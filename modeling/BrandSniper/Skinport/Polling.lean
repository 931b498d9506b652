import BrandSniper.Kit.Doubles
import BrandSniper.Kit.Runs

/-!
# Polling the Skinport items

`poll_market_stream` of `apps/listener/scrapers/skinport.py` and its
`NextRequestStore`. A poll waits until its next request may go out, sends it,
works out from the answer when the one after it may, stores that time in the
edge Redis and hands the ticks on. It can be cut off anywhere: the process dies,
or an exception leaves the generator and the producer starts it again. A new
one begins with what the edge Redis holds.

A clock reading is a rational. The stored text has three decimals, which can be
half a millisecond early. A command of Redis is executed after the clock was
read for it, and a key is gone once its time to live has passed.
-/

namespace BrandSniper.Skinport

open Kit

/-! ## The wait after an answer -/

/-- `POLL_INTERVAL_SECONDS` -/
def pollIntervalSeconds : ℚ := 305

/-- `MAX_FALLBACK_BACKOFF_SECONDS` -/
def maxFallbackBackoffSeconds : ℚ := 1200

/-- `RETRY_AFTER_MARGIN_SECONDS` -/
def retryAfterMarginSeconds : ℚ := 5

/-- `MAX_RETRY_AFTER_SECONDS` -/
def maxRetryAfterSeconds : ℚ := 7200

/-- What a `Retry-After` header reads as. -/
inductive RetryAfter where
  | missing
  | seconds (n : Nat)
  /-- A date, as a Unix time. -/
  | date (time : ℚ)
  | unreadable

def usableSeconds (seconds : ℚ) : Option ℚ :=
  if seconds ≤ maxRetryAfterSeconds then some seconds else none

def parseRetryAfter (header : RetryAfter) (now : ℚ) : Option ℚ :=
  match header with
  | .missing => none
  | .seconds n => usableSeconds n
  | .date time => usableSeconds (max 0 (time - now))
  | .unreadable => none

inductive Answer where
  | ok
  | rateLimited (retryAfter : RetryAfter)
  | unexpected
  /-- `TimeoutError`, `ClientError` or `ValueError` -/
  | failed

/-- `wait_seconds` and `fallback_backoff_seconds` -/
def afterAnswer (answer : Answer) (fallback now : ℚ) : ℚ × ℚ :=
  match answer with
  | .ok => (pollIntervalSeconds, pollIntervalSeconds)
  | .rateLimited header =>
      match parseRetryAfter header now with
      | none =>
          let fallback := min maxFallbackBackoffSeconds (fallback * 2)
          (fallback, fallback)
      | some seconds => (⌈seconds⌉ + retryAfterMarginSeconds, fallback)
  | .unexpected => (pollIntervalSeconds, fallback)
  | .failed => (pollIntervalSeconds, fallback)

/-! ## The store -/

/-- The key of the edge Redis, with the time it expires at. -/
structure StoredTime where
  value : ℚ
  expiresAt : ℚ

/-- The text `f"{request_at:.3f}"`, read back. -/
def roundMillis (time : ℚ) : ℚ := roundHalfEven (time * 1000) / 1000

/-- `NextRequestStore.save`, executed at `executedAt`. -/
def storeTime (requestAt now executedAt : ℚ) : StoredTime where
  value := roundMillis requestAt
  expiresAt := executedAt + (max 1 ⌈requestAt - now⌉ + 60 : Int)

/-- `NextRequestStore.load() or 0.0` -/
def loadTime (key : Option StoredTime) (now : ℚ) (fails : Bool) : ℚ :=
  match key with
  | some stored => if fails = false ∧ now < stored.expiresAt then stored.value else 0
  | none => 0

/-! ## The poll -/

inductive Phase where
  | stopped
  | loading
  /-- At the top of the loop. -/
  | deciding (nextRequestAt fallback : ℚ)
  | asleep (nextRequestAt fallback : ℚ)
  | requesting (fallback : ℚ)
  /-- The answer is in, with the time it was judged at. -/
  | answered (answer : Answer) (time wait fallback : ℚ)
  | saving (answer : Answer) (time nextRequestAt fallback : ℚ)
  /-- The ticks are handed on. -/
  | draining (nextRequestAt fallback : ℚ)

inductive Mark where
  | requested (time : ℚ)
  /-- The time of the next request is stored, after an answer judged at `time`. -/
  | kept (answer : Answer) (time nextRequestAt : ℚ)

/-- The last clock reading, the edge Redis, and the marks, the latest first. -/
structure Poller where
  now : ℚ
  key : Option StoredTime
  phase : Phase
  log : List Mark

inductive PollEvent where
  | start
  | load (now : ℚ) (fails : Bool)
  | check (now : ℚ)
  /-- The sleep is over. -/
  | wake (now : ℚ)
  | answer (now : ℚ) (answer : Answer)
  /-- `next_request_at = _now() + wait_seconds` -/
  | schedule (now : ℚ)
  | save (now executedAt : ℚ) (stored : Bool)
  | drained
  /-- The process dies, or an exception leaves the generator. -/
  | abort
  /-- The edge Redis loses its data. -/
  | lose

namespace Poller

def fresh (now : ℚ) : Poller := ⟨now, none, .stopped, []⟩

def request (s : Poller) (now fallback : ℚ) : Poller :=
  { s with now := now, phase := .requesting fallback, log := .requested now :: s.log }

/-- A time that is read is not before the last one. -/
def step (s : Poller) : PollEvent → Option Poller
  | .start =>
      match s.phase with
      | .stopped => some { s with phase := .loading }
      | _ => none
  | .load now fails =>
      match s.phase with
      | .loading =>
          if s.now ≤ now then
            some { s with now := now, phase := .deciding (loadTime s.key now fails) pollIntervalSeconds }
          else none
      | _ => none
  | .check now =>
      match s.phase with
      | .deciding next fallback =>
          if s.now ≤ now then
            if 0 < next - now then some { s with now := now, phase := .asleep next fallback }
            else some (s.request now fallback)
          else none
      | _ => none
  | .wake now =>
      match s.phase with
      | .asleep next fallback =>
          if s.now ≤ now ∧ next ≤ now then some (s.request now fallback) else none
      | _ => none
  | .answer now answer =>
      match s.phase with
      | .requesting fallback =>
          if s.now ≤ now then
            let (wait, fallback) := afterAnswer answer fallback now
            some { s with now := now, phase := .answered answer now wait fallback }
          else none
      | _ => none
  | .schedule now =>
      match s.phase with
      | .answered answer time wait fallback =>
          if s.now ≤ now then
            some { s with now := now, phase := .saving answer time (now + wait) fallback }
          else none
      | _ => none
  | .save now executedAt stored =>
      match s.phase with
      | .saving answer time next fallback =>
          if s.now ≤ now ∧ now ≤ executedAt then
            if stored then some
              { now := executedAt
                key := some (storeTime next now executedAt)
                phase := .draining next fallback
                log := .kept answer time next :: s.log }
            else some { s with now := executedAt, phase := .draining next fallback }
          else none
      | _ => none
  | .drained =>
      match s.phase with
      | .draining next fallback => some { s with phase := .deciding next fallback }
      | _ => none
  | .abort => some { s with phase := .stopped }
  | .lose => some { s with key := none }

end Poller

/-! ## What is promised -/

/-- The edge Redis keeps its data and answers. -/
def PollEvent.redisUp : PollEvent → Bool
  | .load _ fails => !fails
  | .save _ _ stored => stored
  | .lose => false
  | _ => true

/-- How long after an answer no request goes out: as long as a usable `Retry-After` asks, with the
margin, and a whole interval otherwise. -/
def Answer.quiet (answer : Answer) (time : ℚ) : ℚ :=
  match answer with
  | .rateLimited header =>
      match parseRetryAfter header time with
      | some seconds => seconds + retryAfterMarginSeconds
      | none => pollIntervalSeconds
  | _ => pollIntervalSeconds

/-- The rounding of the stored text. -/
def millisSlack : ℚ := 1 / 2000

/-- The longest wait: the longest usable `Retry-After`, with its margin. -/
def longestWait : ℚ := maxRetryAfterSeconds + retryAfterMarginSeconds

/-- A request after an answer whose time was kept goes out when it may. -/
def Paced : Mark → Mark → Prop
  | .requested time, .kept answer answeredAt _ =>
      answeredAt + answer.quiet answeredAt - millisSlack ≤ time
  | _, _ => True

/-! ## What a step does -/

namespace Poller

inductive Moved (s : Poller) : PollEvent → Poller → Prop where
  | start : s.phase = .stopped → Moved s .start { s with phase := .loading }
  | load {now fails} : s.phase = .loading → s.now ≤ now → Moved s (.load now fails)
      { s with now := now, phase := .deciding (loadTime s.key now fails) pollIntervalSeconds }
  | sleep {now next fallback} : s.phase = .deciding next fallback → s.now ≤ now → now < next →
      Moved s (.check now) { s with now := now, phase := .asleep next fallback }
  | check {now next fallback} : s.phase = .deciding next fallback → s.now ≤ now → next ≤ now →
      Moved s (.check now) (s.request now fallback)
  | wake {now next fallback} : s.phase = .asleep next fallback → s.now ≤ now → next ≤ now →
      Moved s (.wake now) (s.request now fallback)
  | answer {now answer fallback} : s.phase = .requesting fallback → s.now ≤ now →
      Moved s (.answer now answer)
        { s with
          now := now
          phase := .answered answer now (afterAnswer answer fallback now).1
            (afterAnswer answer fallback now).2 }
  | schedule {now answer time wait fallback} : s.phase = .answered answer time wait fallback →
      s.now ≤ now →
      Moved s (.schedule now)
        { s with now := now, phase := .saving answer time (now + wait) fallback }
  | save {now executedAt answer time next fallback} : s.phase = .saving answer time next fallback →
      s.now ≤ now → now ≤ executedAt →
      Moved s (.save now executedAt true)
        { now := executedAt
          key := some (storeTime next now executedAt)
          phase := .draining next fallback
          log := .kept answer time next :: s.log }
  | saveFails {now executedAt answer time next fallback} :
      s.phase = .saving answer time next fallback → s.now ≤ now → now ≤ executedAt →
      Moved s (.save now executedAt false) { s with now := executedAt, phase := .draining next fallback }
  | drained {next fallback} : s.phase = .draining next fallback →
      Moved s .drained { s with phase := .deciding next fallback }
  | abort : Moved s .abort { s with phase := .stopped }
  | lose : Moved s .lose { s with key := none }

theorem step_cases {s s' : Poller} {e : PollEvent} (h : s.step e = some s') : Moved s e s' := by
  cases e with
  | start =>
      simp only [step] at h
      split at h
      · cases h
        exact .start ‹_›
      · cases h
  | load now fails =>
      simp only [step] at h
      split at h
      · split at h
        · cases h
          exact .load ‹_› ‹_›
        · cases h
      · cases h
  | check now =>
      simp only [step] at h
      split at h
      · split at h
        · split at h
          · rename_i hphase hnow hdelay
            cases h
            exact .sleep hphase hnow (sub_pos.mp hdelay)
          · rename_i hphase hnow hdelay
            cases h
            exact .check hphase hnow (not_lt.mp fun hlt => hdelay (sub_pos.mpr hlt))
        · cases h
      · cases h
  | wake now =>
      simp only [step] at h
      split at h
      · split at h
        · rename_i hphase hnow
          cases h
          exact .wake hphase hnow.1 hnow.2
        · cases h
      · cases h
  | answer now answer =>
      simp only [step] at h
      split at h
      · split at h
        · cases h
          exact .answer ‹_› ‹_›
        · cases h
      · cases h
  | schedule now =>
      simp only [step] at h
      split at h
      · split at h
        · cases h
          exact .schedule ‹_› ‹_›
        · cases h
      · cases h
  | save now executedAt stored =>
      simp only [step] at h
      split at h
      · split at h
        · rename_i hphase htimes
          cases stored with
          | true =>
              cases h
              exact .save hphase htimes.1 htimes.2
          | false =>
              cases h
              exact .saveFails hphase htimes.1 htimes.2
        · cases h
      · cases h
  | drained =>
      simp only [step] at h
      split at h
      · cases h
        exact .drained ‹_›
      · cases h
  | abort =>
      cases h
      exact .abort
  | lose =>
      cases h
      exact .lose

end Poller

/-! ## How long a wait can be -/

theorem roundMillis_bounds (time : ℚ) :
    time - millisSlack ≤ roundMillis time ∧ roundMillis time ≤ time + millisSlack := by
  have h := abs_le.mp (abs_roundHalfEven_sub_le (time * 1000))
  rw [roundMillis, millisSlack]
  constructor <;> linarith

theorem usableSeconds_eq_some {seconds usable : ℚ} (h : usableSeconds seconds = some usable) :
    usable = seconds ∧ seconds ≤ maxRetryAfterSeconds := by
  rw [usableSeconds] at h
  split at h
  · exact ⟨(Option.some.inj h).symm, ‹_›⟩
  · cases h

theorem parseRetryAfter_bounds {header : RetryAfter} {now seconds : ℚ}
    (h : parseRetryAfter header now = some seconds) :
    0 ≤ seconds ∧ seconds ≤ maxRetryAfterSeconds := by
  cases header with
  | missing => cases h
  | unreadable => cases h
  | seconds n =>
      obtain ⟨rfl, hle⟩ := usableSeconds_eq_some h
      exact ⟨Nat.cast_nonneg n, hle⟩
  | date time =>
      obtain ⟨rfl, hle⟩ := usableSeconds_eq_some h
      exact ⟨le_max_left _ _, hle⟩

/-- A wait is as long as the answer asks, and no longer than the longest one. -/
theorem afterAnswer_bounds (answer : Answer) {fallback : ℚ} (now : ℚ)
    (h : pollIntervalSeconds ≤ fallback) :
    answer.quiet now ≤ (afterAnswer answer fallback now).1 ∧
      (afterAnswer answer fallback now).1 ≤ longestWait ∧
      pollIntervalSeconds ≤ (afterAnswer answer fallback now).2 := by
  have hinterval : pollIntervalSeconds ≤ longestWait := by
    norm_num [pollIntervalSeconds, longestWait, maxRetryAfterSeconds, retryAfterMarginSeconds]
  cases answer with
  | ok => exact ⟨le_rfl, hinterval, le_rfl⟩
  | unexpected => exact ⟨le_rfl, hinterval, h⟩
  | failed => exact ⟨le_rfl, hinterval, h⟩
  | rateLimited header =>
      rw [Answer.quiet, afterAnswer]
      dsimp only
      cases hparse : parseRetryAfter header now with
      | none =>
          have hdoubled : pollIntervalSeconds ≤ min maxFallbackBackoffSeconds (fallback * 2) := by
            refine le_min (by norm_num [pollIntervalSeconds, maxFallbackBackoffSeconds]) ?_
            have hpos : 0 ≤ fallback := le_trans (by norm_num [pollIntervalSeconds]) h
            linarith
          have hcap : maxFallbackBackoffSeconds ≤ longestWait := by
            norm_num [maxFallbackBackoffSeconds, longestWait, maxRetryAfterSeconds,
              retryAfterMarginSeconds]
          exact ⟨hdoubled, (min_le_left _ _).trans hcap, hdoubled⟩
      | some seconds =>
          obtain ⟨-, hle⟩ := parseRetryAfter_bounds hparse
          have hceil : ⌈seconds⌉ ≤ (7200 : ℤ) := Int.ceil_le.mpr (by exact_mod_cast hle)
          have hceil' : (⌈seconds⌉ : ℚ) ≤ maxRetryAfterSeconds := by
            rw [maxRetryAfterSeconds]
            exact_mod_cast hceil
          exact ⟨add_le_add_left (Int.le_ceil seconds) _, add_le_add_left hceil' _, h⟩

theorem margin_le_quiet (answer : Answer) (now : ℚ) : retryAfterMarginSeconds ≤ answer.quiet now := by
  have hinterval : retryAfterMarginSeconds ≤ pollIntervalSeconds := by
    norm_num [retryAfterMarginSeconds, pollIntervalSeconds]
  cases answer with
  | rateLimited header =>
      rw [Answer.quiet]
      cases hparse : parseRetryAfter header now with
      | none => exact hinterval
      | some seconds => exact le_add_of_nonneg_left (parseRetryAfter_bounds hparse).1
  | _ => exact hinterval

/-- No wait is longer than the longest one, nor the one of a time that is read back. -/
def WaitOk (now : ℚ) : Phase → Prop
  | .deciding next fallback => pollIntervalSeconds ≤ fallback ∧ next ≤ now + longestWait + millisSlack
  | .asleep next fallback => pollIntervalSeconds ≤ fallback ∧ next ≤ now + longestWait + millisSlack
  | .draining next fallback => pollIntervalSeconds ≤ fallback ∧ next ≤ now + longestWait + millisSlack
  | .requesting fallback => pollIntervalSeconds ≤ fallback
  | .answered answer time wait fallback =>
      pollIntervalSeconds ≤ fallback ∧ time ≤ now ∧ answer.quiet time ≤ wait ∧ wait ≤ longestWait
  | .saving answer time next fallback =>
      pollIntervalSeconds ≤ fallback ∧ time + answer.quiet time ≤ next ∧
        now + retryAfterMarginSeconds ≤ next ∧ next ≤ now + longestWait
  | _ => True

structure WaitInv (s : Poller) : Prop where
  phase : WaitOk s.now s.phase
  key : ∀ stored, s.key = some stored → stored.value ≤ s.now + longestWait + millisSlack

theorem longestWait_pos : 0 < longestWait + millisSlack := by
  norm_num [longestWait, maxRetryAfterSeconds, retryAfterMarginSeconds, millisSlack]

theorem loadTime_le {key : Option StoredTime} {now bound : ℚ} (fails : Bool) (hbound : 0 ≤ bound)
    (h : ∀ stored, key = some stored → stored.value ≤ bound) : loadTime key now fails ≤ bound := by
  cases key with
  | none => exact hbound
  | some stored =>
      rw [loadTime]
      split
      · exact h stored rfl
      · exact hbound

/-- The clock shows times of the Unix epoch. -/
theorem WaitInv.step {s s' : Poller} {e : PollEvent} (h : WaitInv s) (hpos : 0 ≤ s.now)
    (hstep : s.step e = some s') : WaitInv s' ∧ 0 ≤ s'.now := by
  obtain ⟨hphase, hkey⟩ := h
  have hlater : ∀ {now : ℚ}, s.now ≤ now →
      ∀ stored, s.key = some stored → stored.value ≤ now + longestWait + millisSlack :=
    fun hle stored hstored => (hkey stored hstored).trans (by linarith)
  cases Poller.step_cases hstep with
  | start hwas => exact ⟨⟨trivial, hkey⟩, hpos⟩
  | @load now fails hwas hnow =>
      have hpos' : 0 ≤ now := hpos.trans hnow
      have hwait := longestWait_pos
      exact ⟨⟨⟨le_rfl, loadTime_le fails (by linarith) (hlater hnow)⟩, hlater hnow⟩, hpos'⟩
  | sleep hwas hnow hdelay =>
      rw [hwas] at hphase
      exact ⟨⟨⟨hphase.1, hphase.2.trans (by linarith)⟩, hlater hnow⟩, hpos.trans hnow⟩
  | check hwas hnow hdue =>
      rw [hwas] at hphase
      exact ⟨⟨hphase.1, hlater hnow⟩, hpos.trans hnow⟩
  | wake hwas hnow hdue =>
      rw [hwas] at hphase
      exact ⟨⟨hphase.1, hlater hnow⟩, hpos.trans hnow⟩
  | @answer now answer fallback hwas hnow =>
      rw [hwas] at hphase
      obtain ⟨hquiet, hlongest, hfallback⟩ := afterAnswer_bounds answer now hphase
      exact ⟨⟨⟨hfallback, le_rfl, hquiet, hlongest⟩, hlater hnow⟩, hpos.trans hnow⟩
  | @schedule now answer time wait fallback hwas hnow =>
      rw [hwas] at hphase
      obtain ⟨hfallback, htime, hquiet, hlongest⟩ := hphase
      have hmargin := margin_le_quiet answer time
      refine ⟨⟨⟨hfallback, ?_, ?_, ?_⟩, hlater hnow⟩, hpos.trans hnow⟩
      · linarith
      · linarith
      · linarith
  | @save now executedAt answer time next fallback hwas hnow hexecuted =>
      rw [hwas] at hphase
      obtain ⟨hfallback, -, -, hnext⟩ := hphase
      have hround := (roundMillis_bounds next).2
      have hslack : 0 ≤ millisSlack := by norm_num [millisSlack]
      refine ⟨⟨⟨hfallback, ?_⟩, ?_⟩, (hpos.trans hnow).trans hexecuted⟩
      · show next ≤ executedAt + longestWait + millisSlack
        linarith
      · rintro _ ⟨⟩
        show roundMillis next ≤ executedAt + longestWait + millisSlack
        linarith
  | @saveFails now executedAt answer time next fallback hwas hnow hexecuted =>
      rw [hwas] at hphase
      obtain ⟨hfallback, -, -, hnext⟩ := hphase
      have hslack : 0 ≤ millisSlack := by norm_num [millisSlack]
      refine ⟨⟨⟨hfallback, ?_⟩, hlater (hnow.trans hexecuted)⟩, (hpos.trans hnow).trans hexecuted⟩
      show next ≤ executedAt + longestWait + millisSlack
      linarith
  | drained hwas =>
      rw [hwas] at hphase
      exact ⟨⟨hphase, hkey⟩, hpos⟩
  | abort => exact ⟨⟨trivial, hkey⟩, hpos⟩
  | lose => exact ⟨⟨hphase, by rintro _ ⟨⟩⟩, hpos⟩

/-! ## What the edge Redis keeps -/

/-- Every time kept is over, up to its rounding. -/
def Over (bound : ℚ) (log : List Mark) : Prop :=
  ∀ answer time next, .kept answer time next ∈ log → next - millisSlack ≤ bound

theorem Over.mono {bound bound' : ℚ} {log : List Mark} (h : Over bound log) (hle : bound ≤ bound') :
    Over bound' log := fun answer time next hmark => (h answer time next hmark).trans hle

theorem Over.requested {bound : ℚ} {log : List Mark} (h : Over bound log) (time : ℚ) :
    Over bound (.requested time :: log) := by
  intro answer answeredAt next hmark
  rcases List.mem_cons.mp hmark with heq | hold
  · cases heq
  · exact h answer answeredAt next hold

/-- The times kept are over before the next request. -/
def OverIn (now : ℚ) (log : List Mark) : Phase → Prop
  | .deciding next _ => Over (max next now) log
  | .asleep next _ => Over (max next now) log
  | .draining next _ => Over (max next now) log
  | .requesting _ => Over now log
  | .answered _ _ _ _ => Over now log
  | .saving _ _ _ _ => Over now log
  | _ => True

structure KeptInv (s : Poller) : Prop where
  key : ∀ answer time next, .kept answer time next ∈ s.log → ∃ stored, s.key = some stored ∧
    next - millisSlack ≤ stored.value ∧ next - millisSlack ≤ stored.expiresAt
  phase : OverIn s.now s.log s.phase
  marks : ∀ answer time next, .kept answer time next ∈ s.log → time + answer.quiet time ≤ next
  paced : s.log.Pairwise Paced

/-- A request goes out when every time kept is over. -/
theorem KeptInv.request {s : Poller} {now fallback : ℚ} (h : KeptInv s) (hover : Over now s.log) :
    KeptInv (s.request now fallback) where
  key := by
    intro answer time next hmark
    rcases List.mem_cons.mp hmark with heq | hold
    · cases heq
    · exact h.key answer time next hold
  phase := hover.requested now
  marks := by
    intro answer time next hmark
    rcases List.mem_cons.mp hmark with heq | hold
    · cases heq
    · exact h.marks answer time next hold
  paced := by
    refine List.pairwise_cons.mpr ⟨fun mark hmark => ?_, h.paced⟩
    cases mark with
    | requested time => trivial
    | kept answer time next =>
        have hquiet := h.marks answer time next hmark
        have hnext := hover answer time next hmark
        show time + answer.quiet time - millisSlack ≤ now
        linarith

/-- The key expires after the time it holds. -/
theorem storeTime_bounds {next now executedAt : ℚ} (hexecuted : now ≤ executedAt) :
    next - millisSlack ≤ (storeTime next now executedAt).value ∧
      next ≤ (storeTime next now executedAt).expiresAt := by
  refine ⟨(roundMillis_bounds next).1, ?_⟩
  have hceil : next - now ≤ ⌈next - now⌉ := Int.le_ceil _
  have hmax : (⌈next - now⌉ : ℚ) ≤ (max 1 ⌈next - now⌉ : Int) := by
    exact_mod_cast le_max_right _ _
  rw [storeTime]
  push_cast at hmax ⊢
  linarith

theorem KeptInv.load {s : Poller} {now : ℚ} (h : KeptInv s) :
    Over (max (loadTime s.key now false) now) s.log := by
  intro answer time next hmark
  obtain ⟨stored, hstored, hvalue, hexpires⟩ := h.key answer time next hmark
  rw [hstored, loadTime]
  split
  · exact hvalue.trans (le_max_left _ _)
  · rename_i hgone
    have hgone : stored.expiresAt ≤ now := not_lt.mp fun hlt => hgone ⟨rfl, hlt⟩
    exact (hexpires.trans hgone).trans (le_max_right _ _)

theorem KeptInv.step {s s' : Poller} {e : PollEvent} (hwait : WaitInv s) (h : KeptInv s)
    (hup : e.redisUp = true) (hstep : s.step e = some s') : KeptInv s' := by
  have hphase := h.phase
  have hwaits := hwait.phase
  cases Poller.step_cases hstep with
  | start hwas => exact { h with phase := trivial }
  | @load now fails hwas hnow =>
      obtain rfl : fails = false := Bool.not_eq_true' _ ▸ hup
      exact { h with phase := h.load }
  | sleep hwas hnow hdelay =>
      rw [hwas] at hphase
      exact { h with phase := hphase.mono (max_le_max le_rfl hnow) }
  | check hwas hnow hdue =>
      rw [hwas] at hphase
      exact h.request (hphase.mono (max_le hdue hnow))
  | wake hwas hnow hdue =>
      rw [hwas] at hphase
      exact h.request (hphase.mono (max_le hdue hnow))
  | answer hwas hnow =>
      rw [hwas] at hphase
      exact { h with phase := Over.mono hphase hnow }
  | schedule hwas hnow =>
      rw [hwas] at hphase
      exact { h with phase := Over.mono hphase hnow }
  | @save now executedAt answer time next fallback hwas hnow hexecuted =>
      rw [hwas] at hphase hwaits
      obtain ⟨-, hquiet, hmargin, -⟩ := hwaits
      have hstored : next - millisSlack ≤ (storeTime next now executedAt).value ∧
          next ≤ (storeTime next now executedAt).expiresAt := storeTime_bounds hexecuted
      obtain ⟨hvalue, hexpires⟩ := hstored
      have hslack : 0 ≤ millisSlack := by norm_num [millisSlack]
      have hsmall : millisSlack ≤ retryAfterMarginSeconds := by
        norm_num [millisSlack, retryAfterMarginSeconds]
      refine ⟨fun answer' time' next' hmark => ⟨_, rfl, ?_⟩, fun answer' time' next' hmark => ?_,
        fun answer' time' next' hmark => ?_, List.pairwise_cons.mpr ⟨?_, h.paced⟩⟩
      · rcases List.mem_cons.mp hmark with heq | hold
        · cases heq
          exact ⟨hvalue, by linarith⟩
        · have hover := hphase answer' time' next' hold
          exact ⟨by linarith, by linarith⟩
      · rcases List.mem_cons.mp hmark with heq | hold
        · cases heq
          exact (by linarith : next - millisSlack ≤ next).trans (le_max_left _ _)
        · have hover := hphase answer' time' next' hold
          exact (by linarith : next' - millisSlack ≤ executedAt).trans (le_max_right _ _)
      · rcases List.mem_cons.mp hmark with heq | hold
        · cases heq
          exact hquiet
        · exact h.marks answer' time' next' hold
      · intro mark hmark
        trivial
  | saveFails => cases hup
  | drained hwas =>
      rw [hwas] at hphase
      exact { h with phase := hphase }
  | abort => exact { h with phase := trivial }
  | lose => cases hup

/-! ## Runs -/

section
variable {start : ℚ} {es : List PollEvent} {s : Poller}

theorem waitInv_fresh (start : ℚ) : WaitInv (.fresh start) := ⟨trivial, by rintro _ ⟨⟩⟩

theorem keptInv_fresh (start : ℚ) : KeptInv (.fresh start) :=
  ⟨by rintro _ _ _ ⟨⟩, trivial, by rintro _ _ _ ⟨⟩, List.Pairwise.nil⟩

theorem waitInv_of_run (hpos : 0 ≤ start) (hrun : runFrom Poller.step (.fresh start) es = some s) :
    WaitInv s ∧ 0 ≤ s.now :=
  runFrom_inv (fun s => WaitInv s ∧ 0 ≤ s.now) (fun _ _ _ h hstep => h.1.step h.2 hstep)
    ⟨waitInv_fresh start, hpos⟩ hrun

/-- Whatever cuts a poll off, and however often the listener starts again: while the edge Redis keeps
its data, no request goes out in the time an earlier answer asks to keep quiet. -/
theorem requests_paced (hpos : 0 ≤ start) (hup : ∀ e ∈ es, e.redisUp = true)
    (hrun : runFrom Poller.step (.fresh start) es = some s) : s.log.Pairwise Paced := by
  have hinv : (WaitInv s ∧ 0 ≤ s.now) ∧ KeptInv s := by
    refine runFrom_inv_of_allSteps (fun s => (WaitInv s ∧ 0 ≤ s.now) ∧ KeptInv s)
      (fun _ e => e.redisUp = true) ?_ ?_ ?_ hrun
    · rintro mid e next ⟨⟨hwait, hnow⟩, hkept⟩ he hstep
      exact ⟨hwait.step hnow hstep, hkept.step hwait he hstep⟩
    · intro before e mid hinitial _
      exact hup e (hinitial.subset (List.mem_append_right _ (List.mem_singleton_self _)))
    · exact ⟨⟨waitInv_fresh start, hpos⟩, keptInv_fresh start⟩
  exact hinv.2.paced

/-- A rate limited poll, cut off while its ticks are handed on, and the next start. -/
def restartedPoll : List PollEvent :=
  [.start, .load 1000 false, .check 1000, .answer 1001 (.rateLimited (.seconds 60)),
    .schedule (1001 + 1 / 2500),
    .save 1002 1002 true, .abort, .start, .load 1010 false, .check 1010, .wake 1066]

theorem requests_paced_restartedPoll :
    ∃ s, runFrom Poller.step (.fresh 1000) restartedPoll = some s ∧ s.log.Pairwise Paced := by
  have hrun : (runFrom Poller.step (.fresh 1000) restartedPoll).isSome = true := by decide +kernel
  obtain ⟨s, hs⟩ := Option.isSome_iff_exists.mp hrun
  exact ⟨s, hs, requests_paced (by norm_num) (by decide) hs⟩

/-- A stored time never delays a start for longer than the longest wait. -/
theorem sleep_le_longestWait (hpos : 0 ≤ start)
    (hrun : runFrom Poller.step (.fresh start) es = some s) {next fallback : ℚ}
    (hasleep : s.phase = .asleep next fallback) : next - s.now ≤ longestWait + millisSlack := by
  have hwait := (waitInv_of_run hpos hrun).1.phase
  rw [hasleep] at hwait
  have hnext := hwait.2
  linarith

end

end BrandSniper.Skinport
