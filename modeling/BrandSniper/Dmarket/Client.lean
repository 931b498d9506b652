import BrandSniper.Kit.Runs
import BrandSniper.Kit.Text
import Mathlib.Algebra.Order.Field.Rat
import Mathlib.Data.List.Chain
import Mathlib.Tactic.Linarith

/-!
# DMarket request pacing

`DMarketClient` of `packages/shared_utils/src/shared_utils/dmarket.py`: any
number of tasks in `get`, one lock, and one field that says when the next
request may start.

A task sleeps inside the lock towards the slot the field named when it went to
sleep, and what it makes of the field after that is computed from the field, not
from the clock. So the spacing holds as long as no task wakes later than the
field says (`requestsSpaced_of_wakesInTime`), and the second after a response
that left no requests holds for every task that was not asleep in the lock
already, towards a slot within that second (`holdsRespected_of_noEarlierSleeper`).

Code between two awaits takes no time. Seconds are rationals.
-/

namespace BrandSniper.Dmarket

open Kit

/-! ## The client -/

/-- `float` reads a number as Python does, with `inf` as some number from 30 on. -/
structure ClientSettings where
  maxRequestsPerSecond : ℚ
  positive : 0 < maxRequestsPerSecond
  maxRetries : Nat
  float : String → Option ℚ

namespace ClientSettings

def interval (S : ClientSettings) : ℚ := 1 / S.maxRequestsPerSecond

theorem interval_pos (S : ClientSettings) : 0 < S.interval := one_div_pos.mpr S.positive

end ClientSettings

/-- `MAX_BACKOFF_SECONDS` -/
def maxBackoffSeconds : ℚ := 30

/-- A response, with the headers X-RateLimit-Remaining-Second and Retry-After. -/
structure Response where
  status : Nat
  remainingSecond : Option String
  retryAfter : Option String

namespace Response

/-- Whether this response used the last request of the second. -/
def noneLeft (response : Response) : Bool :=
  response.remainingSecond.any fun remaining => Text.trim remaining.toList = ['0']

def retryAfterSeconds (S : ClientSettings) (response : Response) : Option ℚ :=
  match response.retryAfter with
  | none => none
  | some value =>
      match S.float value with
      | none => none
      | some seconds => if seconds ≥ 0 then some seconds else none

end Response

/-- What a run shows: a request starts, a response leaves no requests. -/
inductive Mark where
  | request (time : ℚ)
  | noneLeft (time : ℚ)
  deriving DecidableEq, Repr

/-- The time, `_next_request_at`, the task that sleeps inside the lock and until when it asked to,
and what has been seen, the latest first. -/
structure Pacing where
  now : ℚ
  nextRequestAt : ℚ
  sleeper : Option (Nat × ℚ)
  log : List Mark
  deriving DecidableEq, Repr

namespace Pacing

/-- The end of `_wait_for_turn` and the request right after it. -/
def start (S : ClientSettings) (p : Pacing) (slot : ℚ) : Pacing :=
  { p with nextRequestAt := slot + S.interval, sleeper := none, log := .request p.now :: p.log }

/-- `_pause_after` -/
def pauseAfter (p : Pacing) (response : Response) : Pacing :=
  if response.noneLeft then
    { p with nextRequestAt := max p.nextRequestAt (p.now + 1), log := .noneLeft p.now :: p.log }
  else p

end Pacing

/-- Where a task is in `get`. -/
inductive Place where
  | queued
  | asleep
  | inFlight
  | backingOff (deadline : ℚ)
  deriving DecidableEq, Repr

structure Call where
  attempt : Nat
  backoff : ℚ
  place : Place

structure DMarketClient where
  pacing : Pacing
  calls : Nat → Option Call

inductive ClientEvent where
  /-- Time passes. -/
  | tick (now : ℚ)
  /-- A task enters `get`. -/
  | get (task : Nat)
  /-- It gets the lock. -/
  | turn (task : Nat)
  /-- Its sleep inside the lock ends. -/
  | wake (task : Nat)
  | answer (task : Nat) (response : Response)
  /-- Its sleep after a 429 ends. -/
  | retry (task : Nat)
  /-- It is cancelled, or its request fails. -/
  | leave (task : Nat)

namespace DMarketClient

/-- The client at the start. -/
def fresh (now : ℚ) : DMarketClient := ⟨⟨now, 0, none, []⟩, fun _ => none⟩

def setCall (c : DMarketClient) (task : Nat) (call : Option Call) : DMarketClient :=
  { c with calls := fun other => if other = task then call else c.calls other }

@[simp] theorem pacing_setCall (c : DMarketClient) (task : Nat) (call : Option Call) :
    (c.setCall task call).pacing = c.pacing := rfl

/-- A queued task with the lock: it sleeps, or its request starts. -/
def turn (S : ClientSettings) (c : DMarketClient) (task : Nat) (call : Call) : DMarketClient :=
  if c.pacing.nextRequestAt > c.pacing.now then
    { c with pacing := { c.pacing with sleeper := some (task, c.pacing.nextRequestAt) } }.setCall
      task (some { call with place := .asleep })
  else
    { c with pacing := c.pacing.start S c.pacing.now }.setCall
      task (some { call with place := .inFlight })

/-- A response. Only a 429 leaves the task in `get`. -/
def answer (S : ClientSettings) (c : DMarketClient) (task : Nat) (call : Call)
    (response : Response) : DMarketClient :=
  let c := { c with pacing := c.pacing.pauseAfter response }
  if response.status = 429 then
    let wait := max ((response.retryAfterSeconds S).getD 0) call.backoff
    c.setCall task (some { call with
      backoff := min (call.backoff * 2) maxBackoffSeconds
      place := .backingOff (c.pacing.now + min wait maxBackoffSeconds) })
  else c.setCall task none

/-- A task that leaves gives the lock back. -/
def leave (c : DMarketClient) (task : Nat) : DMarketClient :=
  { c with pacing := { c.pacing with
      sleeper := c.pacing.sleeper.filter fun sleeper => sleeper.1 ≠ task } }.setCall task none

end DMarketClient

def clientStep (S : ClientSettings) (c : DMarketClient) : ClientEvent → Option DMarketClient
  | .tick now =>
      if c.pacing.now ≤ now then some { c with pacing := { c.pacing with now := now } } else none
  | .get task =>
      if (c.calls task).isNone then some (c.setCall task (some ⟨0, 1, .queued⟩)) else none
  | .turn task =>
      match c.calls task with
      | some call =>
          if call.place = .queued ∧ c.pacing.sleeper = none then some (c.turn S task call) else none
      | none => none
  | .wake task =>
      match c.calls task, c.pacing.sleeper with
      | some call, some (sleeper, deadline) =>
          if sleeper = task ∧ deadline ≤ c.pacing.now then
            -- the field is read again: `_pause_after` may have moved it meanwhile
            some ({ c with pacing := c.pacing.start S c.pacing.nextRequestAt }.setCall
              task (some { call with place := .inFlight }))
          else none
      | _, _ => none
  | .answer task response =>
      match c.calls task with
      | some call => if call.place = .inFlight then some (c.answer S task call response) else none
      | none => none
  | .retry task =>
      match c.calls task with
      | some call =>
          match call.place with
          | .backingOff deadline =>
              if deadline ≤ c.pacing.now then
                if call.attempt < S.maxRetries then
                  some (c.setCall task (some { call with
                    attempt := call.attempt + 1
                    place := .queued }))
                else some (c.setCall task none)
              else none
          | _ => none
      | none => none
  | .leave task => if (c.calls task).isSome then some (c.leave task) else none

/-! ## What a step does to the pacing -/

section
variable {S : ClientSettings} {c c' : DMarketClient} {e : ClientEvent}

/-- What an event makes of the pacing. -/
inductive Paces (S : ClientSettings) (p : Pacing) : ClientEvent → Pacing → Prop
  /-- Nothing but the time moves, and a sleeper may be gone. -/
  | idle {e : ClientEvent} {now : ℚ} {sleeper : Option (Nat × ℚ)} (hnow : p.now ≤ now)
      (hsleeper : sleeper = p.sleeper ∨ sleeper = none) :
      Paces S p e { p with now := now, sleeper := sleeper }
  | sleep {task : Nat} (hnone : p.sleeper = none) :
      Paces S p (.turn task) { p with sleeper := some (task, p.nextRequestAt) }
  | turn {task : Nat} (hnone : p.sleeper = none) (hslot : p.nextRequestAt ≤ p.now) :
      Paces S p (.turn task) (p.start S p.now)
  | wake {task : Nat} {deadline : ℚ} (hsleeper : p.sleeper = some (task, deadline))
      (hdeadline : deadline ≤ p.now) : Paces S p (.wake task) (p.start S p.nextRequestAt)
  | answer {task : Nat} {response : Response} :
      Paces S p (.answer task response) (p.pauseAfter response)

theorem Paces.same {p : Pacing} : Paces S p e p := .idle le_rfl (.inl rfl)

theorem paces_of_step (h : clientStep S c e = some c') : Paces S c.pacing e c'.pacing := by
  cases e with
  | tick now =>
      rw [clientStep] at h
      split at h
      · rename_i hnow
        cases h
        exact .idle hnow (.inl rfl)
      · cases h
  | get task =>
      rw [clientStep] at h
      split at h
      · cases h
        exact .same
      · cases h
  | turn task =>
      simp only [clientStep] at h
      split at h
      · split at h
        · rename_i hturn
          cases h
          rw [DMarketClient.turn]
          split
          · exact .sleep hturn.2
          · rename_i hslot
            exact .turn hturn.2 (not_lt.mp hslot)
        · cases h
      · cases h
  | wake task =>
      simp only [clientStep] at h
      split at h
      · rename_i hsleeper
        split at h
        · rename_i hwake
          cases h
          obtain ⟨rfl, hdeadline⟩ := hwake
          exact .wake hsleeper hdeadline
        · cases h
      · cases h
  | answer task response =>
      simp only [clientStep] at h
      split at h
      · split at h
        · cases h
          rw [DMarketClient.answer]
          split <;> exact .answer
        · cases h
      · cases h
  | retry task =>
      simp only [clientStep] at h
      split at h
      · split at h
        · split at h
          · split at h <;> cases h <;> exact .same
          · cases h
        · cases h
      · cases h
  | leave task =>
      rw [clientStep] at h
      split at h
      · cases h
        refine .idle le_rfl ?_
        cases c.pacing.sleeper with
        | none => exact .inl rfl
        | some sleeper =>
            by_cases heq : sleeper.1 = task
            · exact .inr (by simp [heq])
            · exact .inl (by simp [heq])
      · cases h

end

/-! ## The spacing of requests -/

/-- The start times of the requests, the latest first. -/
def requestTimes (log : List Mark) : List ℚ :=
  log.filterMap fun mark =>
    match mark with
    | .request time => some time
    | .noneLeft _ => none

/-- Consecutive requests start at least an interval apart. -/
def RequestsSpaced (S : ClientSettings) (log : List Mark) : Prop :=
  (requestTimes log).IsChain fun later earlier => earlier + S.interval ≤ later

/-- No task wakes inside the lock after the time that the field says then. -/
def WakesInTime (c : DMarketClient) : ClientEvent → Prop
  | .wake _ => c.pacing.now ≤ c.pacing.nextRequestAt
  | _ => True

instance (c : DMarketClient) : (e : ClientEvent) → Decidable (WakesInTime c e)
  | .wake _ => inferInstanceAs (Decidable (_ ≤ _))
  | .tick _ | .get _ | .turn _ | .answer _ _ | .retry _ | .leave _ => isTrue trivial

/-- The last request is an interval before the slot of the field, and before that of a sleeper. -/
structure Spaced (S : ClientSettings) (p : Pacing) : Prop where
  spaced : RequestsSpaced S p.log
  next : ∀ time ∈ (requestTimes p.log).head?, time + S.interval ≤ p.nextRequestAt
  sleeper : ∀ time ∈ (requestTimes p.log).head?, ∀ task deadline,
    p.sleeper = some (task, deadline) → time + S.interval ≤ deadline

section
variable {S : ClientSettings} {p p' : Pacing}

/-- A request that starts an interval after the last one, and not after its slot. -/
theorem Spaced.start {slot : ℚ} (h : Spaced S p) (hslot : p.now ≤ slot)
    (hspace : ∀ time ∈ (requestTimes p.log).head?, time + S.interval ≤ p.now) :
    Spaced S (p.start S slot) := by
  refine ⟨h.spaced.cons hspace, ?_, ?_⟩
  · intro time htime
    obtain rfl : p.now = time := Option.some.inj htime
    exact add_le_add_left hslot _
  · intro time _ task deadline hsleeper
    cases hsleeper

theorem Spaced.pauseAfter (h : Spaced S p) (response : Response) :
    Spaced S (p.pauseAfter response) := by
  rw [Pacing.pauseAfter]
  split
  · exact ⟨h.spaced, fun time htime => (h.next time htime).trans (le_max_left _ _), h.sleeper⟩
  · exact h

theorem spaced_step {c c' : DMarketClient} {e : ClientEvent} (h : Spaced S c.pacing)
    (hwake : WakesInTime c e) (hstep : clientStep S c e = some c') : Spaced S c'.pacing := by
  have hpaces := paces_of_step hstep
  generalize c'.pacing = p' at hpaces
  cases hpaces with
  | idle hnow hsleeper =>
      refine ⟨h.spaced, h.next, fun time htime task deadline hasleep => ?_⟩
      rcases hsleeper with rfl | rfl
      · exact h.sleeper time htime task deadline hasleep
      · cases hasleep
  | sleep hnone =>
      refine ⟨h.spaced, h.next, fun time htime task deadline hasleep => ?_⟩
      cases hasleep
      exact h.next time htime
  | turn hnone hslot =>
      exact h.start le_rfl fun time htime => (h.next time htime).trans hslot
  | wake hsleeper hdeadline =>
      exact h.start hwake fun time htime =>
        (h.sleeper time htime _ _ hsleeper).trans hdeadline
  | answer => exact h.pauseAfter _

theorem spaced_fresh (now : ℚ) : Spaced S (DMarketClient.fresh now).pacing := by
  refine ⟨.nil, ?_, ?_⟩ <;> intro time htime <;> cases htime

/-- In every run whose sleeps inside the lock end in time, the requests are spaced. -/
theorem requestsSpaced_of_wakesInTime {now : ℚ} {events : List ClientEvent} {c : DMarketClient}
    (hrun : runFrom (clientStep S) (.fresh now) events = some c)
    (hwakes : AllSteps (clientStep S) WakesInTime (.fresh now) events) :
    RequestsSpaced S c.pacing.log :=
  (runFrom_inv_of_allSteps (fun c => Spaced S c.pacing) WakesInTime
    (fun _ _ _ hI hok hstep => spaced_step hI hok hstep) hwakes (spaced_fresh now) hrun).spaced

/-! ### Two schedules of three tasks -/

theorem ten_pos : (0 : ℚ) < 10 := by norm_num

/-- Ten requests a second; waits are whole seconds. -/
def tenPerSecond : ClientSettings :=
  ⟨10, ten_pos, 3, fun text => (Text.natOfText? text.toList).map fun n => (n : ℚ)⟩

/-- Three tasks take turns; the second one sleeps from 1 s on until `wakesAt`. -/
def threeRequests (wakesAt : ℚ) : List ClientEvent :=
  [.get 0, .get 1, .get 2, .turn 0, .turn 1, .tick wakesAt, .wake 1, .turn 2, .tick (6 / 5),
    .wake 2]

/-- The log of a run. -/
def logOf (S : ClientSettings) (now : ℚ) (events : List ClientEvent) : Option (List Mark) :=
  (runFrom (clientStep S) (.fresh now) events).map fun c => c.pacing.log

theorem requestsSpaced_of_wakesInTime_exact : ∃ c,
    runFrom (clientStep tenPerSecond) (.fresh 1) (threeRequests (11 / 10)) = some c ∧
      RequestsSpaced tenPerSecond c.pacing.log ∧
      c.pacing.log = [.request (6 / 5), .request (11 / 10), .request 1] := by
  have hlog : logOf tenPerSecond 1 (threeRequests (11 / 10))
      = some [.request (6 / 5), .request (11 / 10), .request 1] := by decide +kernel
  obtain ⟨c, hrun, heq⟩ := Option.map_eq_some_iff.mp hlog
  exact ⟨c, hrun, requestsSpaced_of_wakesInTime hrun (.of_check (by decide +kernel)), heq⟩

/-- The second task wakes 0.09 s late, and the third starts 0.01 s after it. -/
theorem not_requestsSpaced_overslept : ∃ c,
    runFrom (clientStep tenPerSecond) (.fresh 1) (threeRequests (119 / 100)) = some c ∧
      ¬ RequestsSpaced tenPerSecond c.pacing.log := by
  have hlog : logOf tenPerSecond 1 (threeRequests (119 / 100))
      = some [.request (6 / 5), .request (119 / 100), .request 1] := by decide +kernel
  obtain ⟨c, hrun, heq⟩ := Option.map_eq_some_iff.mp hlog
  refine ⟨c, hrun, ?_⟩
  rw [heq, RequestsSpaced]
  decide +kernel

end

/-! ## The second without requests -/

/-- After a response that left no requests, none starts for a second. -/
def HoldsRespected (log : List Mark) : Prop :=
  log.Pairwise fun later earlier =>
    ∀ start time, later = .request start → earlier = .noneLeft time → time + 1 ≤ start

/-- When a response leaves no requests, no task is asleep inside the lock towards a slot within the
next second. -/
def NoEarlierSleeper (c : DMarketClient) : ClientEvent → Prop
  | .answer _ response => response.noneLeft = true → ∀ sleeper ∈ c.pacing.sleeper,
      c.pacing.now + 1 ≤ sleeper.2
  | _ => True

instance (c : DMarketClient) : (e : ClientEvent) → Decidable (NoEarlierSleeper c e)
  | .answer _ response =>
      inferInstanceAs (Decidable (response.noneLeft = true → ∀ sleeper ∈ c.pacing.sleeper,
        c.pacing.now + 1 ≤ sleeper.2))
  | .tick _ | .get _ | .turn _ | .wake _ | .retry _ | .leave _ => isTrue trivial

/-- The slot of the field, and that of a sleeper, are past every such second. -/
structure Held (p : Pacing) : Prop where
  respected : HoldsRespected p.log
  next : ∀ time, .noneLeft time ∈ p.log → time + 1 ≤ p.nextRequestAt
  sleeper : ∀ time, .noneLeft time ∈ p.log → ∀ sleeper ∈ p.sleeper, time + 1 ≤ sleeper.2

section
variable {S : ClientSettings} {p p' : Pacing}

/-- A request that starts past every such second moves the slot on. -/
theorem Held.start {slot : ℚ} (h : Held p) (hslot : p.nextRequestAt ≤ slot)
    (hpast : ∀ time, .noneLeft time ∈ p.log → time + 1 ≤ p.now) : Held (p.start S slot) := by
  have hmem : ∀ time, .noneLeft time ∈ (p.start S slot).log → .noneLeft time ∈ p.log := by
    intro time htime
    simpa [Pacing.start] using htime
  refine ⟨List.pairwise_cons.mpr ⟨?_, h.respected⟩, fun time htime => ?_, fun time _ sleeper hs => ?_⟩
  · rintro mark hmark start time hstart rfl
    cases hstart
    exact hpast time hmark
  · have hnext := h.next time (hmem time htime)
    have hpos := S.interval_pos
    show time + 1 ≤ slot + S.interval
    linarith
  · cases hs

theorem Held.pauseAfter (h : Held p) {response : Response}
    (hsleeper : response.noneLeft = true → ∀ sleeper ∈ p.sleeper, p.now + 1 ≤ sleeper.2) :
    Held (p.pauseAfter response) := by
  rw [Pacing.pauseAfter]
  split
  · rename_i hnone
    refine ⟨List.pairwise_cons.mpr ⟨?_, h.respected⟩, fun time htime => ?_,
      fun time htime sleeper hs => ?_⟩
    · intro mark _ start time hstart
      cases hstart
    · rcases List.mem_cons.mp htime with heq | htime
      · cases heq
        exact le_max_right _ _
      · exact (h.next time htime).trans (le_max_left _ _)
    · rcases List.mem_cons.mp htime with heq | htime
      · cases heq
        exact hsleeper hnone sleeper hs
      · exact h.sleeper time htime sleeper hs
  · exact h

theorem held_step {c c' : DMarketClient} {e : ClientEvent} (h : Held c.pacing)
    (hanswer : NoEarlierSleeper c e) (hstep : clientStep S c e = some c') : Held c'.pacing := by
  have hpaces := paces_of_step hstep
  generalize c'.pacing = p' at hpaces
  cases hpaces with
  | idle hnow hsleeper =>
      refine ⟨h.respected, h.next, fun time htime sleeper hasleep => ?_⟩
      rcases hsleeper with rfl | rfl
      · exact h.sleeper time htime sleeper hasleep
      · cases hasleep
  | sleep hnone =>
      refine ⟨h.respected, h.next, fun time htime sleeper hasleep => ?_⟩
      cases hasleep
      exact h.next time htime
  | turn hnone hslot => exact h.start hslot fun time htime => (h.next time htime).trans hslot
  | wake hsleeper hdeadline =>
      exact h.start le_rfl fun time htime =>
        (h.sleeper time htime _ hsleeper).trans hdeadline
  | answer => exact h.pauseAfter hanswer

theorem held_fresh (now : ℚ) : Held (DMarketClient.fresh now).pacing := by
  refine ⟨.nil, ?_, ?_⟩ <;> intro time htime <;> cases htime

/-- In every run in which no response that leaves no requests meets such a sleeper, no request
starts in the second after it. -/
theorem holdsRespected_of_noEarlierSleeper {now : ℚ} {events : List ClientEvent}
    {c : DMarketClient} (hrun : runFrom (clientStep S) (.fresh now) events = some c)
    (hanswers : AllSteps (clientStep S) NoEarlierSleeper (.fresh now) events) :
    HoldsRespected c.pacing.log :=
  (runFrom_inv_of_allSteps (fun c => Held c.pacing) NoEarlierSleeper
    (fun _ _ _ hI hok hstep => held_step hI hok hstep) hanswers (held_fresh now) hrun).respected

end

/-- The response that leaves no requests comes before the turn of the second task. -/
def holdBeforeTurn : List ClientEvent :=
  [.get 0, .get 1, .turn 0, .tick (21 / 20), .answer 0 ⟨200, some "0", none⟩, .turn 1,
    .tick (41 / 20), .wake 1]

/-- It comes after that turn. -/
def holdAfterTurn : List ClientEvent :=
  [.get 0, .get 1, .turn 0, .turn 1, .tick (21 / 20), .answer 0 ⟨200, some "0", none⟩,
    .tick (11 / 10), .wake 1]

theorem holdsRespected_of_noEarlierSleeper_awake : ∃ c,
    runFrom (clientStep tenPerSecond) (.fresh 1) holdBeforeTurn = some c ∧
      HoldsRespected c.pacing.log ∧
      c.pacing.log = [.request (41 / 20), .noneLeft (21 / 20), .request 1] := by
  have hlog : logOf tenPerSecond 1 holdBeforeTurn
      = some [.request (41 / 20), .noneLeft (21 / 20), .request 1] := by decide +kernel
  obtain ⟨c, hrun, heq⟩ := Option.map_eq_some_iff.mp hlog
  exact ⟨c, hrun, holdsRespected_of_noEarlierSleeper hrun (.of_check (by decide +kernel)), heq⟩

/-- The second task is asleep until 1.1 s when the response comes, and starts then. -/
theorem not_holdsRespected_asleep : ∃ c,
    runFrom (clientStep tenPerSecond) (.fresh 1) holdAfterTurn = some c ∧
      ¬ HoldsRespected c.pacing.log := by
  have hlog : logOf tenPerSecond 1 holdAfterTurn
      = some [.request (11 / 10), .noneLeft (21 / 20), .request 1] := by decide +kernel
  obtain ⟨c, hrun, heq⟩ := Option.map_eq_some_iff.mp hlog
  refine ⟨c, hrun, fun hrespected => ?_⟩
  rw [heq, HoldsRespected, List.pairwise_cons] at hrespected
  have hlate := hrespected.1 (.noneLeft (21 / 20)) (by simp) (11 / 10) (21 / 20) rfl rfl
  norm_num at hlate

end BrandSniper.Dmarket
