import BrandSniper.Kit.Expiry
import BrandSniper.Kit.Runs
import Mathlib.Algebra.Order.Field.Rat
import Mathlib.Algebra.Order.Monoid.WithTop
import Mathlib.Tactic.Linarith

/-!
# The rate of trade alerts

`RateLimiter` of `apps/listener/alerts.py` with the single worker of its
channel. An `acquire` is several steps: it looks at the queue of past sends and
the pause, sleeps and looks again, and reads the clock once more when it takes
its slot.

What the queue no longer holds has left the window (`Limited.kept`), so a queue
with room means that the send a whole allowance back is a minute old. Looking
only drops from the queue what every later look drops too (`Alike`), which is
why a refused `acquire` leaves no trace.

A clock reading is a rational, a wait or a pause may be infinite. Sleeps may take
any time, also less than was asked.
-/

namespace BrandSniper.Alerts

open Kit

/-- `RateLimiter.WINDOW_SECONDS` -/
def windowSeconds : ℚ := 60

structure RateLimiter where
  maxPerMinute : Nat
  positive : 1 ≤ maxPerMinute
  sent : List ℚ
  pausedUntil : WithTop ℚ

/-- `self._sent[0] <= now - self.WINDOW_SECONDS` -/
def leftWindow (now sentAt : ℚ) : Bool := decide (sentAt ≤ now - windowSeconds)

namespace RateLimiter

def new (maxPerMinute : Nat) (positive : 1 ≤ maxPerMinute) : RateLimiter :=
  ⟨maxPerMinute, positive, [], 0⟩

def pause (l : RateLimiter) (now : ℚ) (seconds : WithTop ℚ) : RateLimiter :=
  { l with pausedUntil := max l.pausedUntil (now + seconds) }

/-- The sends of the last window. -/
def prune (l : RateLimiter) (now : ℚ) : RateLimiter :=
  { l with sent := expire (leftWindow now) l.sent }

/-- How long until the next send is allowed, with the queue pruned. -/
def waitSeconds (l : RateLimiter) (now : ℚ) : RateLimiter × WithTop ℚ :=
  let l := l.prune now
  let wait : WithTop ℚ := max 0 (l.pausedUntil.map (· - now))
  match l.sent with
  | oldest :: _ =>
      if l.maxPerMinute ≤ l.sent.length then
        (l, max wait ((oldest + windowSeconds - now : ℚ) : WithTop ℚ))
      else (l, wait)
  | [] => (l, wait)

end RateLimiter

/-! ## The worker -/

inductive Worker where
  | idle
  /-- Asleep in `acquire`, with the wait it allows. -/
  | asleep (maxWaitSeconds : WithTop ℚ)
  /-- Past the loop, before it takes the slot. -/
  | cleared
  deriving DecidableEq

/-- What the calls of a run did. -/
inductive Mark where
  | paused (ends : WithTop ℚ)
  | granted (time : ℚ)
  | refused
  deriving DecidableEq

/-- The time of the last clock reading, and the marks, the latest first. -/
structure Channel where
  now : ℚ
  limiter : RateLimiter
  worker : Worker
  log : List Mark

/-- A clock reading of the worker. -/
inductive ChannelEvent where
  | pause (now : ℚ) (seconds : WithTop ℚ)
  /-- It calls `acquire`. -/
  | acquire (now : ℚ) (maxWaitSeconds : WithTop ℚ)
  /-- Its sleep is over. -/
  | wake (now : ℚ)
  /-- `self._sent.append(self._clock())` -/
  | take (now : ℚ)

namespace Channel

def fresh (maxPerMinute : Nat) (positive : 1 ≤ maxPerMinute) (now : ℚ) : Channel :=
  ⟨now, .new maxPerMinute positive, .idle, []⟩

/-- One turn of `while (wait := self.wait_seconds()) > 0:` -/
def check (c : Channel) (now : ℚ) (maxWaitSeconds : WithTop ℚ) : Channel :=
  let (limiter, wait) := c.limiter.waitSeconds now
  if 0 < wait then
    if maxWaitSeconds < wait then ⟨now, limiter, .idle, .refused :: c.log⟩
    else ⟨now, limiter, .asleep maxWaitSeconds, c.log⟩
  else ⟨now, limiter, .cleared, c.log⟩

def step (c : Channel) : ChannelEvent → Option Channel
  | .pause now seconds =>
      if c.now ≤ now ∧ c.worker = .idle then
        some ⟨now, c.limiter.pause now seconds, .idle, .paused (now + seconds) :: c.log⟩
      else none
  | .acquire now maxWaitSeconds =>
      if c.now ≤ now ∧ c.worker = .idle then some (c.check now maxWaitSeconds) else none
  | .wake now =>
      match c.worker with
      | .asleep maxWaitSeconds => if c.now ≤ now then some (c.check now maxWaitSeconds) else none
      | _ => none
  | .take now =>
      if c.now ≤ now ∧ c.worker = .cleared then
        some ⟨now, { c.limiter with sent := c.limiter.sent ++ [now] }, .idle,
          .granted now :: c.log⟩
      else none

end Channel

def Mark.grantedAt : Mark → Option ℚ
  | granted time => some time
  | _ => none

/-- The times of the granted sends, the first one first. -/
def Channel.sends (c : Channel) : List ℚ := (c.log.filterMap Mark.grantedAt).reverse

/-! ## What a look at the queue does -/

namespace RateLimiter

@[simp] theorem fst_waitSeconds (l : RateLimiter) (now : ℚ) :
    (l.waitSeconds now).1 = l.prune now := by
  unfold waitSeconds
  dsimp only
  split
  · split <;> rfl
  · rfl

theorem map_sub_le_zero {u : WithTop ℚ} {now : ℚ} : u.map (· - now) ≤ 0 ↔ u ≤ now := by
  cases u with
  | top => simp
  | coe u =>
      rw [WithTop.map_coe, ← WithTop.coe_zero, WithTop.coe_le_coe, WithTop.coe_le_coe]
      exact sub_nonpos

/-- No wait means no pause and room in the window. -/
theorem waitSeconds_pos_iff (l : RateLimiter) (now : ℚ) : ¬ 0 < (l.waitSeconds now).2 ↔
    l.pausedUntil ≤ now ∧ (l.prune now).sent.length < l.maxPerMinute := by
  have hpaused : (l.prune now).pausedUntil = l.pausedUntil := rfl
  have hlimit : (l.prune now).maxPerMinute = l.maxPerMinute := rfl
  unfold waitSeconds
  dsimp only
  rw [not_lt, hpaused, hlimit]
  cases hsent : (l.prune now).sent with
  | nil =>
      have hroom : 0 < l.maxPerMinute := l.positive
      simp only [List.length_nil, max_le_iff, le_refl, true_and, map_sub_le_zero, hroom, and_true]
  | cons oldest rest =>
      have hfresh : leftWindow now oldest = false := head_expire hsent
      rw [leftWindow, decide_eq_false_iff_not, not_le] at hfresh
      have hoccupied : ¬ ((oldest + windowSeconds - now : ℚ) : WithTop ℚ) ≤ 0 := by
        rw [← WithTop.coe_zero, WithTop.coe_le_coe, not_le]
        linarith
      by_cases hfull : l.maxPerMinute ≤ (oldest :: rest).length
      · simp only [if_pos hfull, max_le_iff, hoccupied, and_false, false_iff, not_and, not_lt]
        exact fun _ => hfull
      · simp only [if_neg hfull, max_le_iff, le_refl, true_and, map_sub_le_zero]
        exact ⟨fun h => ⟨h, Nat.lt_of_not_le hfull⟩, fun h => h.1⟩

end RateLimiter

/-! ## The bound on every window -/

/-- A send is a window later than the one `count` sends before it. -/
def Spaced (count : Nat) (times : List ℚ) : Prop :=
  ∀ i t t', times[i]? = some t → times[i + count]? = some t' → t + windowSeconds ≤ t'

theorem spaced_nil (count : Nat) : Spaced count [] := by
  intro i t t' ht
  cases ht

/-- With fewer than `count` sends in the window, the one that many back has left it. -/
theorem Spaced.concat {count : Nat} {gone recent : List ℚ} (h : Spaced count (gone ++ recent))
    (hroom : recent.length < count) {time : ℚ} (hgone : ∀ t ∈ gone, t + windowSeconds ≤ time) :
    Spaced count (gone ++ recent ++ [time]) := by
  intro i t t' ht ht'
  obtain ⟨hlt, -⟩ := List.getElem?_eq_some_iff.mp ht'
  rw [List.length_append, List.length_append, List.length_singleton] at hlt
  have hi : i < (gone ++ recent).length := by
    rw [List.length_append]
    omega
  rw [List.getElem?_append_left hi] at ht
  by_cases hlast : i + count < (gone ++ recent).length
  · rw [List.getElem?_append_left hlast] at ht'
    exact h i t t' ht ht'
  · rw [List.length_append] at hlast
    have hcount : i + count = (gone ++ recent).length := by
      rw [List.length_append]
      omega
    rw [hcount, List.getElem?_concat_length] at ht'
    obtain rfl := Option.some.inj ht'
    have hold : i < gone.length := by omega
    rw [List.getElem?_append_left hold] at ht
    exact hgone t (List.mem_of_getElem? ht)

/-- No send comes before the end of a pause announced before it. -/
def Respected (log : List Mark) : Prop :=
  log.Pairwise fun later earlier => ∀ (time : ℚ) (ends : WithTop ℚ), later = .granted time →
    earlier = .paused ends → ends ≤ time

/-- What the queue and the pause say of the past. -/
structure Limited (c : Channel) : Prop where
  kept : ∃ gone, c.sends = gone ++ c.limiter.sent ∧ ∀ t ∈ gone, t + windowSeconds ≤ c.now
  past : ∀ t ∈ c.sends, t ≤ c.now
  ordered : c.sends.Pairwise (· ≤ ·)
  spaced : Spaced c.limiter.maxPerMinute c.sends
  pauses : ∀ ends, .paused ends ∈ c.log → ends ≤ c.limiter.pausedUntil
  respected : Respected c.log
  cleared : c.worker = .cleared →
    c.limiter.pausedUntil ≤ c.now ∧ c.limiter.sent.length < c.limiter.maxPerMinute

namespace Limited

theorem fresh (maxPerMinute : Nat) (positive : 1 ≤ maxPerMinute) (now : ℚ) :
    Limited (.fresh maxPerMinute positive now) where
  kept := ⟨[], rfl, by simp⟩
  past := by simp [Channel.sends, Channel.fresh]
  ordered := List.Pairwise.nil
  spaced := spaced_nil _
  pauses := by simp [Channel.fresh]
  respected := List.Pairwise.nil
  cleared := by
    intro h
    cases h

variable {c : Channel}

/-- Looking at the queue. -/
theorem prune (h : Limited c) {now : ℚ} (hnow : c.now ≤ now) :
    ∃ gone, c.sends = gone ++ (c.limiter.prune now).sent ∧
      ∀ t ∈ gone, t + windowSeconds ≤ now := by
  obtain ⟨gone, hsends, hgone⟩ := h.kept
  obtain ⟨left, hsplit, hleft⟩ := expire_split (leftWindow now) c.limiter.sent
  refine ⟨gone ++ left, ?_, fun t ht => ?_⟩
  · rw [List.append_assoc, hsends, RateLimiter.prune, ← hsplit]
  · rcases List.mem_append.mp ht with ht | ht
    · exact (hgone t ht).trans hnow
    · have hold := hleft t ht
      rw [leftWindow, decide_eq_true_eq] at hold
      linarith

/-- A step that grants nothing, and leaves the pause. -/
theorem quiet (h : Limited c) {now : ℚ} (hnow : c.now ≤ now) {worker : Worker} {log : List Mark}
    (hsends : log.filterMap Mark.grantedAt = c.log.filterMap Mark.grantedAt)
    (hpauses : ∀ ends, .paused ends ∈ log → .paused ends ∈ c.log)
    (hrespected : Respected log)
    (hcleared : worker = .cleared → c.limiter.pausedUntil ≤ now ∧
      (c.limiter.prune now).sent.length < c.limiter.maxPerMinute) :
    Limited ⟨now, c.limiter.prune now, worker, log⟩ := by
  have hsame : Channel.sends ⟨now, c.limiter.prune now, worker, log⟩ = c.sends := by
    rw [Channel.sends, Channel.sends, hsends]
  constructor
  · rw [hsame]
    exact h.prune hnow
  · rw [hsame]
    exact fun t ht => (h.past t ht).trans hnow
  · rw [hsame]
    exact h.ordered
  · rw [hsame]
    exact h.spaced
  · exact fun ends hmem => h.pauses ends (hpauses ends hmem)
  · exact hrespected
  · exact hcleared

theorem check (h : Limited c) {now : ℚ} (hnow : c.now ≤ now) (maxWaitSeconds : WithTop ℚ) :
    Limited (c.check now maxWaitSeconds) := by
  unfold Channel.check
  dsimp only
  rw [RateLimiter.fst_waitSeconds]
  split
  · split
    · have hsends : (Mark.refused :: c.log).filterMap Mark.grantedAt
          = c.log.filterMap Mark.grantedAt := rfl
      apply h.quiet hnow hsends
      · intro ends hmem
        exact (List.mem_cons.mp hmem).resolve_left (by simp)
      · apply List.Pairwise.cons _ h.respected
        rintro _ _ _ _ ⟨⟩
      · rintro ⟨⟩
    · exact h.quiet hnow rfl (fun _ hmem => hmem) h.respected (by rintro ⟨⟩)
  · rename_i hwait
    exact h.quiet hnow rfl (fun _ hmem => hmem) h.respected
      fun _ => (c.limiter.waitSeconds_pos_iff now).mp hwait

theorem pause (h : Limited c) {now : ℚ} (hnow : c.now ≤ now) (seconds : WithTop ℚ) :
    Limited ⟨now, c.limiter.pause now seconds, .idle, .paused (now + seconds) :: c.log⟩ := by
  obtain ⟨gone, hsends, hgone⟩ := h.kept
  refine ⟨⟨gone, hsends, fun t ht => (hgone t ht).trans hnow⟩, fun t ht => (h.past t ht).trans hnow,
    h.ordered, h.spaced, fun ends hmem => ?_, ?_, by rintro ⟨⟩⟩
  · rcases List.mem_cons.mp hmem with heq | hmem
    · cases heq
      exact le_max_right _ _
    · exact (h.pauses ends hmem).trans (le_max_left _ _)
  · apply List.Pairwise.cons _ h.respected
    rintro _ _ _ _ ⟨⟩

theorem take (h : Limited c) {now : ℚ} (hnow : c.now ≤ now) (hcleared : c.worker = .cleared) :
    Limited ⟨now, { c.limiter with sent := c.limiter.sent ++ [now] }, .idle,
      .granted now :: c.log⟩ := by
  obtain ⟨gone, hkept, hgone⟩ := h.kept
  obtain ⟨hpaused, hroom⟩ := h.cleared hcleared
  have hgone : ∀ t ∈ gone, t + windowSeconds ≤ now := fun t ht => (hgone t ht).trans hnow
  have hsends : Channel.sends ⟨now, { c.limiter with sent := c.limiter.sent ++ [now] }, .idle,
      .granted now :: c.log⟩ = c.sends ++ [now] := by
    simp [Channel.sends, Mark.grantedAt]
  have hspaced := h.spaced
  rw [hkept] at hspaced
  constructor
  · rw [hsends]
    exact ⟨gone, by rw [hkept, List.append_assoc], hgone⟩
  · rw [hsends]
    intro t ht
    rcases List.mem_append.mp ht with ht | ht
    · exact (h.past t ht).trans hnow
    · exact le_of_eq (List.mem_singleton.mp ht)
  · rw [hsends, List.pairwise_append]
    refine ⟨h.ordered, List.pairwise_singleton _ _, fun t ht t' ht' => ?_⟩
    rw [List.mem_singleton.mp ht']
    exact (h.past t ht).trans hnow
  · rw [hsends, hkept]
    exact hspaced.concat hroom hgone
  · intro ends hmem
    exact h.pauses ends ((List.mem_cons.mp hmem).resolve_left (by simp))
  · apply List.Pairwise.cons _ h.respected
    rintro mark hmark _ ends ⟨⟩ rfl
    have hend := (h.pauses ends hmark).trans hpaused
    exact hend.trans (WithTop.coe_le_coe.mpr hnow)
  · rintro ⟨⟩

/-- What one step keeps. -/
theorem step (h : Limited c) {e : ChannelEvent} {c' : Channel} (hstep : c.step e = some c') :
    Limited c' := by
  cases e with
  | pause now seconds =>
      obtain ⟨⟨hnow, -⟩, hc⟩ := Option.ite_none_right_eq_some.mp hstep
      cases hc
      exact h.pause hnow seconds
  | acquire now maxWaitSeconds =>
      obtain ⟨⟨hnow, -⟩, hc⟩ := Option.ite_none_right_eq_some.mp hstep
      cases hc
      exact h.check hnow maxWaitSeconds
  | wake now =>
      rw [Channel.step] at hstep
      split at hstep
      · obtain ⟨hnow, hc⟩ := Option.ite_none_right_eq_some.mp hstep
        cases hc
        exact h.check hnow _
      · cases hstep
  | take now =>
      obtain ⟨⟨hnow, hcleared⟩, hc⟩ := Option.ite_none_right_eq_some.mp hstep
      cases hc
      exact h.take hnow hcleared

end Limited

/-! ## What a refused call leaves behind -/

/-- No later look tells the two queues apart. -/
structure SameQueue (now : ℚ) (l l' : RateLimiter) : Prop where
  limit : l.maxPerMinute = l'.maxPerMinute
  paused : l.pausedUntil = l'.pausedUntil
  queue : ∀ later, now ≤ later → expire (leftWindow later) l.sent = expire (leftWindow later) l'.sent

namespace SameQueue

variable {now now' : ℚ} {l l' l'' : RateLimiter}

theorem refl (now : ℚ) (l : RateLimiter) : SameQueue now l l := ⟨rfl, rfl, fun _ _ => rfl⟩

theorem symm (h : SameQueue now l l') : SameQueue now l' l :=
  ⟨h.limit.symm, h.paused.symm, fun later hlater => (h.queue later hlater).symm⟩

theorem trans (h : SameQueue now l l') (h' : SameQueue now l' l'') : SameQueue now l l'' :=
  ⟨h.limit.trans h'.limit, h.paused.trans h'.paused,
    fun later hlater => (h.queue later hlater).trans (h'.queue later hlater)⟩

theorem mono (h : SameQueue now l l') (hnow : now ≤ now') : SameQueue now' l l' :=
  ⟨h.limit, h.paused, fun later hlater => h.queue later (hnow.trans hlater)⟩

/-- Pruning drops what every later look drops. -/
theorem prune (now : ℚ) (l : RateLimiter) : SameQueue now l (l.prune now) := by
  refine ⟨rfl, rfl, fun later hlater => ?_⟩
  rw [RateLimiter.prune, expire_expire]
  intro t ht
  rw [leftWindow, decide_eq_true_eq] at ht ⊢
  linarith

/-- They are pruned to the same queue. -/
theorem prune_eq (h : SameQueue now l l') : l.prune now = l'.prune now := by
  have hqueue := h.queue now le_rfl
  have hlimit := h.limit
  have hpaused := h.paused
  obtain ⟨limit, _, sent, paused⟩ := l
  obtain ⟨limit', _, sent', paused'⟩ := l'
  subst hlimit hpaused
  simp only [RateLimiter.prune, RateLimiter.mk.injEq, true_and, and_true]
  exact hqueue

theorem waitSeconds_eq (h : SameQueue now l l') : l.waitSeconds now = l'.waitSeconds now := by
  unfold RateLimiter.waitSeconds
  rw [h.prune_eq]

theorem append (h : SameQueue now l l') (time : ℚ) :
    SameQueue now { l with sent := l.sent ++ [time] } { l' with sent := l'.sent ++ [time] } := by
  refine ⟨h.limit, h.paused, fun later hlater => ?_⟩
  have hqueue := h.queue later hlater
  unfold expire at hqueue ⊢
  rw [List.dropWhile_append, List.dropWhile_append, hqueue]

end SameQueue

/-- Channels that differ in what their logs begin with, and in what no look tells apart. -/
structure Alike (base base' : List Mark) (c c' : Channel) : Prop where
  now : c.now = c'.now
  limiter : SameQueue c.now c.limiter c'.limiter
  worker : c.worker = c'.worker
  log : ∃ new, c.log = new ++ base ∧ c'.log = new ++ base'

namespace Alike

variable {base base' : List Mark} {c c' d : Channel}

theorem symm (h : Alike base base' c c') : Alike base' base c' c := by
  obtain ⟨new, hlog, hlog'⟩ := h.log
  exact ⟨h.now.symm, h.now ▸ h.limiter.symm, h.worker.symm, new, hlog', hlog⟩

theorem check (h : Alike base base' c c') {now : ℚ} (hnow : c.now ≤ now)
    (maxWaitSeconds : WithTop ℚ) :
    Alike base base' (c.check now maxWaitSeconds) (c'.check now maxWaitSeconds) := by
  obtain ⟨new, hlog, hlog'⟩ := h.log
  have hwait := (h.limiter.mono hnow).waitSeconds_eq
  unfold Channel.check
  rw [hwait]
  dsimp only
  split
  · split
    · exact ⟨rfl, .refl _ _, rfl, .refused :: new, by rw [hlog]; rfl, by rw [hlog']; rfl⟩
    · exact ⟨rfl, .refl _ _, rfl, new, hlog, hlog'⟩
  · exact ⟨rfl, .refl _ _, rfl, new, hlog, hlog'⟩

/-- They take the same steps. -/
theorem step (h : Alike base base' c c') {e : ChannelEvent} (hstep : c.step e = some d) :
    ∃ d', c'.step e = some d' ∧ Alike base base' d d' := by
  obtain ⟨new, hlog, hlog'⟩ := h.log
  cases e with
  | pause now seconds =>
      obtain ⟨hmay, hd⟩ := Option.ite_none_right_eq_some.mp hstep
      cases hd
      refine ⟨_, if_pos (by rw [← h.now, ← h.worker]; exact hmay), rfl, ?_, rfl,
        .paused (now + seconds) :: new, by rw [hlog]; rfl, by rw [hlog']; rfl⟩
      have hlater := h.limiter.mono hmay.1
      refine ⟨hlater.limit, ?_, hlater.queue⟩
      simp only [RateLimiter.pause, hlater.paused]
  | acquire now maxWaitSeconds =>
      obtain ⟨hmay, hd⟩ := Option.ite_none_right_eq_some.mp hstep
      cases hd
      exact ⟨_, if_pos (by rw [← h.now, ← h.worker]; exact hmay), h.check hmay.1 _⟩
  | wake now =>
      rw [Channel.step] at hstep ⊢
      rw [← h.worker, ← h.now]
      split at hstep
      · obtain ⟨hnow, hd⟩ := Option.ite_none_right_eq_some.mp hstep
        cases hd
        exact ⟨_, if_pos hnow, h.check hnow _⟩
      · cases hstep
  | take now =>
      obtain ⟨hmay, hd⟩ := Option.ite_none_right_eq_some.mp hstep
      cases hd
      exact ⟨_, if_pos (by rw [← h.now, ← h.worker]; exact hmay), rfl,
        (h.limiter.mono hmay.1).append now, rfl,
        .granted now :: new, by rw [hlog]; rfl, by rw [hlog']; rfl⟩

theorem run (h : Alike base base' c c') {es : List ChannelEvent}
    (hrun : runFrom Channel.step c es = some d) :
    ∃ d', runFrom Channel.step c' es = some d' ∧ Alike base base' d d' := by
  induction es generalizing c c' with
  | nil =>
      cases hrun
      exact ⟨c', rfl, h⟩
  | cons e rest ih =>
      obtain ⟨mid, hmid, hrest⟩ := Option.bind_eq_some_iff.mp hrun
      obtain ⟨mid', hmid', halike⟩ := h.step hmid
      obtain ⟨d', hd', hlast⟩ := ih halike hrest
      exact ⟨d', by rw [runFrom, hmid']; exact hd', hlast⟩

/-- Whatever comes later, the sends are the same. -/
theorem sends_run (h : Alike base base' c c')
    (hbase : base.filterMap Mark.grantedAt = base'.filterMap Mark.grantedAt)
    (es : List ChannelEvent) :
    (runFrom Channel.step c es).map Channel.sends
      = (runFrom Channel.step c' es).map Channel.sends := by
  cases hrun : runFrom Channel.step c es with
  | some d =>
      obtain ⟨d', hd', hlast⟩ := h.run hrun
      obtain ⟨new, hlog, hlog'⟩ := hlast.log
      rw [hd', Option.map_some, Option.map_some, Channel.sends, Channel.sends, hlog, hlog',
        List.filterMap_append, List.filterMap_append, hbase]
  | none =>
      cases hrun' : runFrom Channel.step c' es with
      | none => rfl
      | some d' =>
          obtain ⟨d, hd, -⟩ := h.symm.run hrun'
          rw [hrun] at hd
          cases hd

end Alike

/-- The steps of one `acquire`: it looks, and looks again after every sleep. -/
def IsAcquire (events : List ChannelEvent) : Prop :=
  ∃ now maxWaitSeconds wakes, events = .acquire now maxWaitSeconds :: wakes ∧
    ∀ e ∈ wakes, ∃ woken, e = .wake woken

/-- Where an `acquire` that grants nothing is: still in its loop, or back with False. -/
structure Looking (start c : Channel) : Prop where
  now : start.now ≤ c.now
  limiter : SameQueue c.now start.limiter c.limiter
  outcome : (c.log = start.log ∧ c.worker ≠ .idle) ∨
    (c.log = .refused :: start.log ∧ c.worker = .idle)

namespace Looking

variable {start c : Channel}

theorem check (hnow : start.now ≤ c.now) (hlimiter : SameQueue c.now start.limiter c.limiter)
    (hlog : c.log = start.log) {now : ℚ} (hlater : c.now ≤ now) (maxWaitSeconds : WithTop ℚ) :
    Looking start (c.check now maxWaitSeconds) := by
  have hsame : SameQueue now start.limiter (c.limiter.prune now) :=
    (hlimiter.mono hlater).trans (.prune now c.limiter)
  unfold Channel.check
  dsimp only
  rw [RateLimiter.fst_waitSeconds]
  split
  · split
    · exact ⟨hnow.trans hlater, hsame, .inr ⟨by rw [hlog], rfl⟩⟩
    · exact ⟨hnow.trans hlater, hsame, .inl ⟨hlog, by simp⟩⟩
  · exact ⟨hnow.trans hlater, hsame, .inl ⟨hlog, by simp⟩⟩

theorem wake (h : Looking start c) {now : ℚ} {c' : Channel}
    (hstep : c.step (.wake now) = some c') : Looking start c' := by
  rw [Channel.step] at hstep
  split at hstep
  · rename_i maxWaitSeconds hworker
    obtain ⟨hnow, hc⟩ := Option.ite_none_right_eq_some.mp hstep
    cases hc
    rcases h.outcome with ⟨hlog, -⟩ | ⟨-, hidle⟩
    · exact check h.now h.limiter hlog hnow maxWaitSeconds
    · rw [hworker] at hidle
      cases hidle
  · cases hstep

theorem wakes (h : Looking start c) {events : List ChannelEvent}
    (hwakes : ∀ e ∈ events, ∃ woken, e = .wake woken) {c' : Channel}
    (hrun : runFrom Channel.step c events = some c') : Looking start c' := by
  induction events generalizing c with
  | nil =>
      cases hrun
      exact h
  | cons e rest ih =>
      obtain ⟨mid, hmid, hrest⟩ := Option.bind_eq_some_iff.mp hrun
      obtain ⟨woken, rfl⟩ := hwakes e List.mem_cons_self
      exact ih (h.wake hmid) (fun e he => hwakes e (List.mem_cons_of_mem _ he)) hrest

theorem acquire {call : List ChannelEvent} (hcall : IsAcquire call)
    (hrun : runFrom Channel.step start call = some c) :
    start.worker = .idle ∧ Looking start c := by
  obtain ⟨now, maxWaitSeconds, events, rfl, hwakes⟩ := hcall
  obtain ⟨mid, hmid, hrest⟩ := Option.bind_eq_some_iff.mp hrun
  obtain ⟨⟨hnow, hidle⟩, hmid⟩ := Option.ite_none_right_eq_some.mp hmid
  cases hmid
  exact ⟨hidle, (check le_rfl (.refl _ _) rfl hnow maxWaitSeconds).wakes hwakes hrest⟩

end Looking

/-- An `acquire` that comes back with False takes no slot, and every later send is at the
time it would be at had the call not been made. -/
def RefusalsLeaveNoTrace (c : Channel) : Prop :=
  ∀ call refused, IsAcquire call → runFrom Channel.step c call = some refused →
    refused.log = .refused :: c.log →
    refused.sends = c.sends ∧ ∀ later,
      (runFrom Channel.step refused later).map Channel.sends
        = (runFrom Channel.step { c with now := refused.now } later).map Channel.sends

theorem refusalsLeaveNoTrace (c : Channel) : RefusalsLeaveNoTrace c := by
  intro call refused hcall hrun hlog
  obtain ⟨hidle, hlooking⟩ := Looking.acquire hcall hrun
  have hreturned : refused.worker = .idle := by
    rcases hlooking.outcome with ⟨hsame, -⟩ | ⟨-, hreturned⟩
    · rw [hlog] at hsame
      exact absurd hsame (List.cons_ne_self _ _)
    · exact hreturned
  have hsends : (Mark.refused :: c.log).filterMap Mark.grantedAt
      = c.log.filterMap Mark.grantedAt := rfl
  constructor
  · rw [Channel.sends, Channel.sends, hlog, hsends]
  · intro later
    have halike : Alike c.log (.refused :: c.log) { c with now := refused.now } refused :=
      ⟨rfl, hlooking.limiter, hidle.trans hreturned.symm, [], rfl, hlog⟩
    exact (halike.sends_run hsends.symm later).symm

/-! ## The law of the rate -/

/-- The sends are granted in order, no more than the allowance in any window, and none
before the end of a pause announced earlier. -/
structure RateLimited (maxPerMinute : Nat) (c : Channel) : Prop where
  ordered : c.sends.Pairwise (· ≤ ·)
  spaced : Spaced maxPerMinute c.sends
  respected : Respected c.log

theorem limit_of_step {c c' : Channel} {e : ChannelEvent} (h : c.step e = some c') :
    c'.limiter.maxPerMinute = c.limiter.maxPerMinute := by
  have hcheck : ∀ now maxWaitSeconds,
      (c.check now maxWaitSeconds).limiter.maxPerMinute = c.limiter.maxPerMinute := by
    intro now maxWaitSeconds
    unfold Channel.check
    dsimp only
    rw [RateLimiter.fst_waitSeconds]
    split
    · split <;> rfl
    · rfl
  cases e with
  | pause now seconds =>
      obtain ⟨-, hc⟩ := Option.ite_none_right_eq_some.mp h
      cases hc
      rfl
  | acquire now maxWaitSeconds =>
      obtain ⟨-, hc⟩ := Option.ite_none_right_eq_some.mp h
      cases hc
      exact hcheck now maxWaitSeconds
  | wake now =>
      rw [Channel.step] at h
      split at h
      · obtain ⟨-, hc⟩ := Option.ite_none_right_eq_some.mp h
        cases hc
        exact hcheck now _
      · cases h
  | take now =>
      obtain ⟨-, hc⟩ := Option.ite_none_right_eq_some.mp h
      cases hc
      rfl

/-- After any pauses and `acquire` calls of the worker, with clock readings that do not
decrease and sleeps of any length: the rate is limited, and refused calls leave no trace. -/
theorem rateLimited_of_run (maxPerMinute : Nat) (positive : 1 ≤ maxPerMinute) (start : ℚ)
    (events : List ChannelEvent) (c : Channel)
    (hrun : runFrom Channel.step (.fresh maxPerMinute positive start) events = some c) :
    RateLimited maxPerMinute c ∧ RefusalsLeaveNoTrace c := by
  have hinv := runFrom_inv
    (fun c => Limited c ∧ c.limiter.maxPerMinute = maxPerMinute)
    (fun c e c' h hstep => ⟨h.1.step hstep, (limit_of_step hstep).trans h.2⟩)
    ⟨.fresh maxPerMinute positive start, rfl⟩ hrun
  obtain ⟨hlimited, hlimit⟩ := hinv
  exact ⟨⟨hlimited.ordered, hlimit ▸ hlimited.spaced, hlimited.respected⟩,
    refusalsLeaveNoTrace c⟩

/-- Two sends a minute: the third has to wait for the first to leave the window, and a call
that would wait for a pause is refused. -/
def threeSends : List ChannelEvent :=
  [.acquire 0 windowSeconds, .take 0, .acquire 10 windowSeconds, .take 10,
    .acquire 10 windowSeconds, .wake 60, .take 60, .pause 61 (2 * windowSeconds : ℚ),
    .acquire 62 windowSeconds, .acquire 182 windowSeconds, .take 182]

theorem rateLimited_of_run_threeSends :
    ∃ c, runFrom Channel.step (.fresh 2 (by decide) 0) threeSends = some c ∧
      c.sends = [0, 10, 60, 182] ∧ RateLimited 2 c ∧ RefusalsLeaveNoTrace c := by
  have hsends : (runFrom Channel.step (.fresh 2 (by decide) 0) threeSends).map Channel.sends
      = some [0, 10, 60, 182] := by decide +kernel
  obtain ⟨c, hrun, hc⟩ := Option.map_eq_some_iff.mp hsends
  exact ⟨c, hrun, hc, rateLimited_of_run 2 (by decide) 0 threeSends c hrun⟩

end BrandSniper.Alerts
