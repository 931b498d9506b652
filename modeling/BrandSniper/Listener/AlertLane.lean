import BrandSniper.Listener.AlertPool

/-!
# What a lane does with an alert

Of a job the log says only what has happened since it left the queue, so only
of the job the worker awaits there is more to come (`LogOk`). Where that job is
(`DeliveringOk`) counts its posts.
-/

namespace BrandSniper.Alerts

open Kit TaskSupervisor BoundedTaskPool

variable {R : Type}

/-! ## The log -/

/-- What the log says of the jobs, with the one that is awaited and those queued behind it. -/
structure LogOk (maxAttempts : Nat) (log : List LaneMark) (active queued : List Nat)
    (next : Nat) : Prop where
  inLine : (active ++ queued).Pairwise (· < ·)
  fresh : ∀ job ∈ active ++ queued, job < next
  /-- Nothing has happened to the jobs in the queue. -/
  past : ∀ mark ∈ log, ∀ job, mark.job? = some job →
    job < next ∧ (∀ k ∈ active, job ≤ k) ∧ ∀ k ∈ queued, job < k
  attempts : ∀ job, log.countP (LaneMark.isPost job) ≤ maxAttempts
  inOrder : log.Pairwise InOrder
  endsLast : log.Pairwise EndsLast
  sentIsPosted : ∀ job, .ended job .sent ∈ log → ∃ time, .posted job time ∈ log

/-- `_send` of the job has not returned. -/
def Unended (log : List LaneMark) (job : Nat) : Prop := ∀ outcome, .ended job outcome ∉ log

section
variable {maxAttempts next next' job : Nat} {log : List LaneMark}
  {active active' queued queued' : List Nat}

theorem LogOk.take (h : LogOk maxAttempts log [] (active ++ queued) next) :
    LogOk maxAttempts log active queued next :=
  { h with
    past := by
      intro mark hmark job hjob
      obtain ⟨hnext, -, hline⟩ := h.past mark hmark job hjob
      exact ⟨hnext, fun k hk => (hline k (List.mem_append_left _ hk)).le,
        fun k hk => hline k (List.mem_append_right _ hk)⟩ }

theorem LogOk.leave (h : LogOk maxAttempts log active queued next) :
    LogOk maxAttempts log [] queued next :=
  { h with
    inLine := (List.pairwise_append.mp h.inLine).2.1
    fresh := fun job hjob => h.fresh job (List.mem_append_right _ hjob)
    past := by
      intro mark hmark job hjob
      obtain ⟨hnext, -, hqueued⟩ := h.past mark hmark job hjob
      exact ⟨hnext, List.forall_mem_nil _, hqueued⟩ }

theorem LogOk.sublist (h : LogOk maxAttempts log active queued next) (hsub : queued'.Sublist queued) :
    LogOk maxAttempts log active queued' next :=
  { h with
    inLine := h.inLine.sublist (hsub.append_left active)
    fresh := fun job hjob => h.fresh job ((hsub.append_left active).subset hjob)
    past := by
      intro mark hmark job hjob
      obtain ⟨hnext, hactive, hqueued⟩ := h.past mark hmark job hjob
      exact ⟨hnext, hactive, fun k hk => hqueued k (hsub.subset hk)⟩ }

theorem LogOk.skip (h : LogOk maxAttempts log active queued next) (hle : next ≤ next') :
    LogOk maxAttempts log active queued next' :=
  { h with
    fresh := fun job hjob => (h.fresh job hjob).trans_le hle
    past := by
      intro mark hmark job hjob
      obtain ⟨hnext, hline⟩ := h.past mark hmark job hjob
      exact ⟨hnext.trans_le hle, hline⟩ }

theorem LogOk.enter (h : LogOk maxAttempts log active queued next) :
    LogOk maxAttempts log active (queued ++ [next]) (next + 1) :=
  { h with
    inLine := by
      rw [← List.append_assoc]
      refine List.pairwise_append.mpr ⟨h.inLine, List.pairwise_singleton _ _, ?_⟩
      intro job hjob k hk
      rw [List.mem_singleton.mp hk]
      exact h.fresh job hjob
    fresh := by
      intro job hjob
      rw [← List.append_assoc] at hjob
      rcases List.mem_append.mp hjob with hold | hnew
      · exact (h.fresh job hold).trans (Nat.lt_succ_self next)
      · rw [List.mem_singleton.mp hnew]
        exact Nat.lt_succ_self next
    past := by
      intro mark hmark job hjob
      obtain ⟨hnext, hactive, hqueued⟩ := h.past mark hmark job hjob
      refine ⟨hnext.trans (Nat.lt_succ_self next), hactive, ?_⟩
      intro k hk
      rcases List.mem_append.mp hk with hold | hnew
      · exact hqueued k hold
      · rw [List.mem_singleton.mp hnew]
        exact hnext }

theorem countP_note {mark : LaneMark} (hnone : mark.job? = none) (log : List LaneMark) (job : Nat) :
    (mark :: log).countP (LaneMark.isPost job) = log.countP (LaneMark.isPost job) := by
  cases mark with
  | posted other time => cases hnone
  | _ => rw [List.countP_cons_of_neg Bool.false_ne_true]

theorem Unended.note (h : Unended log job) {mark : LaneMark} (hnone : mark.job? = none) :
    Unended (mark :: log) job := by
  intro outcome hmem
  rcases List.mem_cons.mp hmem with rfl | hold
  · cases hnone
  · exact h outcome hold

/-- A mark of no job. -/
theorem LogOk.note (h : LogOk maxAttempts log active queued next) {mark : LaneMark}
    (hnone : mark.job? = none) : LogOk maxAttempts (mark :: log) active queued next := by
  refine { h with
    past := ?_
    attempts := ?_
    inOrder := List.pairwise_cons.mpr ⟨?_, h.inOrder⟩
    endsLast := List.pairwise_cons.mpr ⟨?_, h.endsLast⟩
    sentIsPosted := ?_ }
  · intro other hother job hjob
    rcases List.mem_cons.mp hother with rfl | hold
    · rw [hnone] at hjob
      cases hjob
    · exact h.past other hold job hjob
  · intro job
    rw [countP_note hnone]
    exact h.attempts job
  · intro earlier hearlier job job' hjob hjob'
    rw [hnone] at hjob'
    cases hjob'
  · intro earlier hearlier job outcome heq
    rw [hnone]
    exact (Option.some_ne_none job).symm
  · intro job hjob
    rcases List.mem_cons.mp hjob with rfl | hold
    · cases hnone
    · obtain ⟨time, htime⟩ := h.sentIsPosted job hold
      exact ⟨time, List.mem_cons_of_mem _ htime⟩

/-- A mark of the job that is awaited. -/
theorem LogOk.mark (h : LogOk maxAttempts log [job] queued next) (hopen : Unended log job)
    {mark : LaneMark} (hmark : mark.job? = some job)
    (hattempts : (mark :: log).countP (LaneMark.isPost job) ≤ maxAttempts)
    (hsent : mark = .ended job .sent → ∃ time, .posted job time ∈ log) :
    LogOk maxAttempts (mark :: log) [job] queued next := by
  have hfresh := h.fresh job (List.mem_append_left _ (List.mem_singleton_self _))
  have hline := (List.pairwise_append.mp h.inLine).2.2 job (List.mem_singleton_self _)
  refine { h with
    past := ?_
    attempts := ?_
    inOrder := List.pairwise_cons.mpr ⟨?_, h.inOrder⟩
    endsLast := List.pairwise_cons.mpr ⟨?_, h.endsLast⟩
    sentIsPosted := ?_ }
  · intro other hother job' hjob'
    rcases List.mem_cons.mp hother with rfl | hold
    · rw [hmark] at hjob'
      cases hjob'
      exact ⟨hfresh, fun k hk => (List.mem_singleton.mp hk).ge, hline⟩
    · exact h.past other hold job' hjob'
  · intro other
    by_cases hother : other = job
    · rw [hother]
      exact hattempts
    · have hnot : LaneMark.isPost other mark = false := by
        cases mark with
        | posted posted time =>
            cases hmark
            exact decide_eq_false (Ne.symm hother)
        | _ => rfl
      rw [List.countP_cons_of_neg (by rw [hnot]; exact Bool.false_ne_true)]
      exact h.attempts other
  · intro earlier hearlier job' job'' hjob' hjob''
    rw [hmark] at hjob''
    cases hjob''
    exact (h.past earlier hearlier job' hjob').2.1 job (List.mem_singleton_self _)
  · rintro earlier hearlier job' outcome rfl
    rw [hmark]
    rintro ⟨⟩
    exact hopen outcome hearlier
  · intro job' hjob'
    rcases List.mem_cons.mp hjob' with rfl | hold
    · cases hmark
      obtain ⟨time, htime⟩ := hsent rfl
      exact ⟨time, List.mem_cons_of_mem _ htime⟩
    · obtain ⟨time, htime⟩ := h.sentIsPosted job' hold
      exact ⟨time, List.mem_cons_of_mem _ htime⟩

/-- Nothing has happened to a job that leaves the queue. -/
theorem LogOk.unseen (h : LogOk maxAttempts log [] queued next) (hjob : job ∈ queued) :
    log.countP (LaneMark.isPost job) = 0 ∧ Unended log job := by
  have hnot : ∀ mark ∈ log, mark.job? ≠ some job := by
    intro mark hmark heq
    exact Nat.lt_irrefl job ((h.past mark hmark job heq).2.2 job hjob)
  constructor
  · refine List.countP_eq_zero.mpr fun mark hmark hpost => ?_
    cases mark with
    | posted other time => exact hnot _ hmark (congrArg some (of_decide_eq_true hpost))
    | _ => cases hpost
  · intro outcome hmem
    exact hnot _ hmem rfl

end

/-! ## A lane -/

/-- What is known of the job that is awaited. -/
def DeliveringOk (S : AlertSetting R) (log : List LaneMark) (active : List Nat) : Delivering → Prop
  | .idle => active = []
  | .acquiring job attempts => active = [job] ∧ attempts < S.maxAttempts ∧
      log.countP (LaneMark.isPost job) = attempts ∧ Unended log job
  | .posting job attempts => active = [job] ∧ attempts < S.maxAttempts ∧
      log.countP (LaneMark.isPost job) = attempts + 1 ∧ Unended log job
  | .recording job => active = [job] ∧ ∃ outcome, .ended job outcome ∈ log

/-- All but where the job is. -/
structure Lane.Sound (S : AlertSetting R) (lane : Lane) : Prop where
  pool : lane.pool.Inv
  alone : Alone lane.pool
  log : LogOk S.maxAttempts lane.log lane.pool.activeJobs lane.pool.queuedJobs lane.pool.nextJob
  limited : Limited lane.channel
  rate : lane.channel.limiter.maxPerMinute = S.maxPerMinute
  posts : lane.log.filterMap LaneMark.postedAt = lane.channel.log.filterMap Mark.grantedAt
  entered : lane.pool.entered = (lane.log.filterMap LaneMark.entered).reverse
  outcome : ∀ job, (job, .succeeded) ∈ lane.pool.outcomes → ∃ outcome, .ended job outcome ∈ lane.log

structure Lane.Inv (S : AlertSetting R) (lane : Lane) : Prop where
  sound : lane.Sound S
  delivering : DeliveringOk S lane.log lane.pool.activeJobs lane.delivering

section
variable {S : AlertSetting R} {lane lane' : Lane} {pool : BoundedTaskPool} {job : Nat}

/-- The limiter's look, or its pause. -/
structure Quiet (c c' : Channel) : Prop where
  limited : Limited c'
  rate : c'.limiter.maxPerMinute = c.limiter.maxPerMinute
  grants : c'.log.filterMap Mark.grantedAt = c.log.filterMap Mark.grantedAt

theorem quiet_check {c : Channel} (h : Limited c) {now : ℚ} (hnow : c.now ≤ now)
    (maxWaitSeconds : WithTop ℚ) : Quiet c (c.check now maxWaitSeconds) := by
  refine ⟨h.check hnow maxWaitSeconds, ?_, ?_⟩
  all_goals
    rw [Channel.check]
    dsimp only
    rw [RateLimiter.fst_waitSeconds]
    split
    · split <;> rfl
    · rfl

theorem quiet_acquire {c c' : Channel} (h : Limited c) {now : ℚ} {maxWaitSeconds : WithTop ℚ}
    (hstep : c.step (.acquire now maxWaitSeconds) = some c') : Quiet c c' := by
  obtain ⟨⟨hnow, -⟩, heq⟩ := Option.ite_none_right_eq_some.mp hstep
  cases heq
  exact quiet_check h hnow maxWaitSeconds

theorem quiet_wake {c c' : Channel} (h : Limited c) {now : ℚ}
    (hstep : c.step (.wake now) = some c') : Quiet c c' := by
  rw [Channel.step] at hstep
  split at hstep
  · obtain ⟨hnow, heq⟩ := Option.ite_none_right_eq_some.mp hstep
    cases heq
    exact quiet_check h hnow _
  · cases hstep

theorem quiet_pause {c c' : Channel} (h : Limited c) {now : ℚ} {seconds : WithTop ℚ}
    (hstep : c.step (.pause now seconds) = some c') : Quiet c c' := by
  obtain ⟨⟨hnow, -⟩, heq⟩ := Option.ite_none_right_eq_some.mp hstep
  cases heq
  exact ⟨h.pause hnow seconds, rfl, rfl⟩

theorem Lane.Sound.quiet (h : lane.Sound S) {c : Channel} (hquiet : Quiet lane.channel c) :
    Lane.Sound S { lane with channel := c } :=
  { h with
    limited := hquiet.limited
    rate := hquiet.rate.trans h.rate
    posts := h.posts.trans hquiet.grants.symm }

/-- `_send` returns. -/
theorem Lane.Sound.ended (h : lane.Sound S) {outcome : AlertOutcome}
    (hactive : lane.pool.activeJobs = [job]) (hopen : Unended lane.log job)
    (hsent : outcome = .sent → ∃ time, .posted job time ∈ lane.log) :
    (lane.ended job outcome).Inv S := by
  have hlog := h.log
  rw [hactive] at hlog
  refine ⟨{ h with log := ?_, outcome := ?_ }, hactive, outcome, List.mem_cons_self⟩
  · show LogOk _ _ lane.pool.activeJobs _ _
    rw [hactive]
    refine hlog.mark hopen rfl ?_ ?_
    · rw [List.countP_cons_of_neg Bool.false_ne_true]
      exact h.log.attempts job
    · rintro ⟨⟩
      exact hsent rfl
  · intro other hother
    obtain ⟨outcome', houtcome⟩ := h.outcome other hother
    exact ⟨outcome', List.mem_cons_of_mem _ houtcome⟩

/-- The next attempt, or the end of the attempts. -/
theorem Lane.Sound.attempt (h : lane.Sound S) {attempts : Nat}
    (hactive : lane.pool.activeJobs = [job])
    (hposts : lane.log.countP (LaneMark.isPost job) = attempts) (hopen : Unended lane.log job) :
    (lane.attempt S job attempts).Inv S := by
  rw [Lane.attempt]
  split
  · exact ⟨{ h with }, hactive, ‹_›, hposts, hopen⟩
  · exact h.ended hactive hopen (by rintro ⟨⟩)

theorem Lane.Inv.looked (h : lane.Inv S) {c : Channel} (hquiet : Quiet lane.channel c)
    (hactive : lane.pool.activeJobs = [job]) (hopen : Unended lane.log job) :
    (lane.looked job c).Inv S := by
  rw [Lane.looked]
  split
  · exact (h.sound.quiet hquiet).ended hactive hopen (by rintro ⟨⟩)
  · exact ⟨h.sound.quiet hquiet, h.delivering⟩

theorem DeliveringOk.note {log : List LaneMark} {active : List Nat} {delivering : Delivering}
    (h : DeliveringOk S log active delivering) {mark : LaneMark} (hnone : mark.job? = none) :
    DeliveringOk S (mark :: log) active delivering := by
  cases delivering with
  | idle => exact h
  | acquiring job attempts =>
      exact ⟨h.1, h.2.1, (countP_note hnone log job).trans h.2.2.1, h.2.2.2.note hnone⟩
  | posting job attempts =>
      exact ⟨h.1, h.2.1, (countP_note hnone log job).trans h.2.2.1, h.2.2.2.note hnone⟩
  | recording job =>
      obtain ⟨hactive, outcome, houtcome⟩ := h
      exact ⟨hactive, outcome, List.mem_cons_of_mem _ houtcome⟩

/-- An alert is queued or dropped. -/
theorem Lane.Inv.submit (h : lane.Inv S) (alert : TradeAlert) : (lane.submit alert).Inv S := by
  obtain ⟨hsound, hdelivering⟩ := h
  have hoffers := hsound.alone.trySubmit hsound.pool
  have hpool : lane.pool.trySubmit.Inv := hsound.pool.trySubmit
  have hnote : ∀ {mark : LaneMark}, mark.job? = none → mark.postedAt = none →
      LogOk S.maxAttempts (mark :: lane.log) lane.pool.trySubmit.activeJobs
        lane.pool.trySubmit.queuedJobs lane.pool.trySubmit.nextJob →
      lane.pool.trySubmit.entered = ((mark :: lane.log).filterMap LaneMark.entered).reverse →
      Lane.Inv S { lane with pool := lane.pool.trySubmit, log := mark :: lane.log } := by
    intro mark hnone hposted hlog hentered
    refine ⟨⟨hpool, hoffers.alone, hlog, hsound.limited, hsound.rate, ?_, hentered, ?_⟩, ?_⟩
    · rw [List.filterMap_cons_none hposted]
      exact hsound.posts
    · intro job hjob
      obtain ⟨outcome, houtcome⟩ := hsound.outcome job (hoffers.outcomes ▸ hjob)
      exact ⟨outcome, List.mem_cons_of_mem _ houtcome⟩
    · show DeliveringOk S _ lane.pool.trySubmit.activeJobs _
      rw [hoffers.active]
      exact hdelivering.note hnone
  rw [Lane.submit]
  cases haccepts : accepts lane.pool with
  | true =>
      obtain ⟨hqueued, hnext, hentered⟩ := hoffers.queued haccepts
      rw [if_pos rfl]
      refine hnote rfl rfl ?_ ?_
      · rw [hoffers.active, hqueued, hnext]
        exact hsound.log.enter.note rfl
      · rw [hentered, hsound.entered]
        simp [LaneMark.entered]
  | false =>
      obtain ⟨hqueued, hnext, hentered⟩ := hoffers.full haccepts
      rw [if_neg Bool.false_ne_true]
      refine hnote rfl rfl ?_ ?_
      · rw [hoffers.active, hqueued]
        exact (hsound.log.skip hnext).note rfl
      · rw [hentered, hsound.entered, List.filterMap_cons_none rfl]

/-- The worker takes the next job. -/
theorem Lane.Inv.take (h : lane.Inv S) (hstep : lane.pool.step (.take 0) = some pool) :
    Lane.Sound S { lane with pool } ∧ ∀ job rest, pool.activeJobs = job :: rest →
      rest = [] ∧ lane.log.countP (LaneMark.isPost job) = 0 ∧ Unended lane.log job := by
  obtain ⟨hsound, -⟩ := h
  obtain ⟨halone, hidle, hjobs, hone, hnext, hentered, houtcomes⟩ := hsound.alone.take hstep
  have hpool : pool.Inv := inv_step _ _ _ hsound.pool (hsound.alone.drainsAlone hstep) hstep
  have hlog := hsound.log
  rw [hidle, ← hjobs, ← hnext] at hlog
  refine ⟨⟨hpool, halone, hlog.take, hsound.limited, hsound.rate, hsound.posts,
    hentered.trans hsound.entered, fun job hjob => hsound.outcome job (houtcomes ▸ hjob)⟩, ?_⟩
  intro job rest hactive
  rw [hactive, List.length_cons] at hone
  have hnone : rest.length = 0 := by omega
  have hjob : job ∈ jobs pool := by
    rw [jobs, hactive]
    exact List.mem_cons_self
  exact ⟨List.length_eq_zero_iff.mp hnone, hlog.unseen hjob⟩

/-- The job is over for the pool. -/
theorem Lane.Inv.leave (h : lane.Inv S) {outcome : JobOutcome}
    (hpool : pool.Inv) (hleaves : Leaves lane.pool pool outcome)
    (hended : outcome = .succeeded → ∀ job ∈ lane.pool.activeJobs,
      ∃ outcome, .ended job outcome ∈ lane.log) :
    Lane.Inv S { lane with pool, delivering := .idle } := by
  obtain ⟨hsound, -⟩ := h
  refine ⟨⟨hpool, hleaves.alone, ?_, hsound.limited, hsound.rate, hsound.posts,
    hleaves.entered.trans hsound.entered, ?_⟩, hleaves.idle⟩
  · show LogOk _ _ pool.activeJobs pool.queuedJobs pool.nextJob
    rw [hleaves.idle, hleaves.queued, hleaves.next]
    exact hsound.log.leave
  · intro job hjob
    have hjob : (job, .succeeded) ∈ pool.outcomes := hjob
    rw [hleaves.outcomes] at hjob
    rcases List.mem_append.mp hjob with hold | hnew
    · exact hsound.outcome job hold
    · obtain ⟨other, hother, heq⟩ := List.mem_map.mp hnew
      cases heq
      exact hended rfl job hother

theorem Lane.Inv.closing (h : lane.Inv S) (hpool : pool.Inv) (hcloses : Closes lane.pool pool) :
    Lane.Inv S { lane with pool } := by
  obtain ⟨hsound, hdelivering⟩ := h
  refine ⟨⟨hpool, hcloses.alone, ?_, hsound.limited, hsound.rate, hsound.posts,
    hcloses.entered.trans hsound.entered, ?_⟩, ?_⟩
  · show LogOk _ _ pool.activeJobs pool.queuedJobs pool.nextJob
    rw [hcloses.active, hcloses.next]
    exact hsound.log.sublist hcloses.queued
  · exact fun job hjob => hsound.outcome job (hcloses.succeeded job hjob)
  · show DeliveringOk S _ pool.activeJobs _
    rw [hcloses.active]
    exact hdelivering

theorem posted_of_countP {log : List LaneMark} (h : 0 < log.countP (LaneMark.isPost job)) :
    ∃ time, .posted job time ∈ log := by
  obtain ⟨mark, hmark, hpost⟩ := List.countP_pos_iff.mp h
  cases mark with
  | posted other time =>
      obtain rfl : other = job := of_decide_eq_true hpost
      exact ⟨time, hmark⟩
  | _ => cases hpost

theorem DeliveringOk.idle {log : List LaneMark} {delivering : Delivering}
    (h : DeliveringOk S log [] delivering) : delivering = .idle := by
  cases delivering with
  | idle => rfl
  | _ => cases h.1

/-- The slot is taken, and the request goes out. -/
theorem Lane.Sound.post (h : lane.Sound S) {attempts : Nat} {now : ℚ} {c : Channel}
    (hactive : lane.pool.activeJobs = [job]) (hlt : attempts < S.maxAttempts)
    (hposts : lane.log.countP (LaneMark.isPost job) = attempts) (hopen : Unended lane.log job)
    (hstep : lane.channel.step (.take now) = some c) :
    Lane.Inv S { lane with
      channel := c, delivering := .posting job attempts, log := .posted job now :: lane.log } := by
  have hcount : (.posted job now :: lane.log).countP (LaneMark.isPost job) = attempts + 1 := by
    have hpost : LaneMark.isPost job (.posted job now) = true := decide_eq_true rfl
    rw [List.countP_cons_of_pos hpost, hposts]
  have hlog := h.log
  rw [hactive] at hlog
  have hlimited := h.limited.step hstep
  obtain ⟨-, heq⟩ := Option.ite_none_right_eq_some.mp hstep
  cases heq
  refine ⟨⟨h.pool, h.alone, ?_, hlimited, h.rate, ?_, ?_, ?_⟩, hactive, hlt, hcount, ?_⟩
  · show LogOk _ _ lane.pool.activeJobs _ _
    rw [hactive]
    exact hlog.mark hopen rfl (hcount ▸ hlt) (by rintro ⟨⟩)
  · show now :: lane.log.filterMap LaneMark.postedAt
      = now :: lane.channel.log.filterMap Mark.grantedAt
    rw [h.posts]
  · rw [List.filterMap_cons_none rfl]
    exact h.entered
  · intro other hother
    obtain ⟨outcome, houtcome⟩ := h.outcome other hother
    exact ⟨outcome, List.mem_cons_of_mem _ houtcome⟩
  · intro outcome hmem
    rcases List.mem_cons.mp hmem with heq | hold
    · cases heq
    · exact hopen outcome hold

theorem Lane.Inv.step (h : lane.Inv S) {channel : AlertChannel R} {e : LaneEvent R}
    (hstep : lane.step S channel e = some lane') : lane'.Inv S := by
  have hpool : ∀ {e : Event} {pool : BoundedTaskPool}, lane.pool.step e = some pool → pool.Inv :=
    fun he => inv_step _ _ _ h.sound.pool (h.sound.alone.drainsAlone he) he
  obtain ⟨hsound, hdelivering⟩ := h
  cases e with
  | submit alert =>
      cases hstep
      exact Lane.Inv.submit ⟨hsound, hdelivering⟩ alert
  | take =>
      obtain ⟨pool, htake, rfl⟩ := Option.map_eq_some_iff.mp hstep
      obtain ⟨htaken, hjob⟩ := Lane.Inv.take ⟨hsound, hdelivering⟩ htake
      split
      · rename_i job rest hactive
        obtain ⟨rfl, hposts, hopen⟩ := hjob job rest hactive
        exact htaken.attempt hactive hposts hopen
      · rename_i hactive
        have hidle := (hsound.alone.take htake).idle
        rw [hidle] at hdelivering
        refine ⟨htaken, ?_⟩
        show DeliveringOk S lane.log pool.activeJobs lane.delivering
        rw [hdelivering.idle]
        exact hactive
  | acquire now =>
      rw [Lane.step] at hstep
      split at hstep
      · rename_i job attempts hat
        rw [hat] at hdelivering
        obtain ⟨c, hc, rfl⟩ := Option.map_eq_some_iff.mp hstep
        exact Lane.Inv.looked ⟨hsound, hat ▸ hdelivering⟩ (quiet_acquire hsound.limited hc)
          hdelivering.1 hdelivering.2.2.2
      · cases hstep
  | wake now =>
      rw [Lane.step] at hstep
      split at hstep
      · rename_i job attempts hat
        rw [hat] at hdelivering
        obtain ⟨c, hc, rfl⟩ := Option.map_eq_some_iff.mp hstep
        exact Lane.Inv.looked ⟨hsound, hat ▸ hdelivering⟩ (quiet_wake hsound.limited hc)
          hdelivering.1 hdelivering.2.2.2
      · cases hstep
  | post now =>
      rw [Lane.step] at hstep
      split at hstep
      · rename_i job attempts hat
        rw [hat] at hdelivering
        obtain ⟨hactive, hlt, hposts, hopen⟩ := hdelivering
        obtain ⟨c, hc, rfl⟩ := Option.map_eq_some_iff.mp hstep
        exact hsound.post hactive hlt hposts hopen hc
      · cases hstep
  | reply now status reply =>
      rw [Lane.step] at hstep
      split at hstep
      · rename_i job attempts hat
        rw [hat] at hdelivering
        obtain ⟨hactive, hlt, hposts, hopen⟩ := hdelivering
        rw [Lane.replied] at hstep
        split at hstep
        · obtain ⟨c, hc, rfl⟩ := Option.map_eq_some_iff.mp hstep
          exact (hsound.quiet (quiet_pause hsound.limited hc)).attempt hactive hposts hopen
        · cases hstep
          exact hsound.ended hactive hopen fun _ => posted_of_countP (hposts ▸ Nat.succ_pos attempts)
      · cases hstep
  | disconnected =>
      rw [Lane.step] at hstep
      split at hstep
      · rename_i job attempts hat
        rw [hat] at hdelivering
        cases hstep
        exact hsound.ended hdelivering.1 hdelivering.2.2.2 (by rintro ⟨⟩)
      · cases hstep
  | recorded =>
      rw [Lane.step] at hstep
      split at hstep
      · rename_i job hat
        obtain ⟨pool, hfinish, rfl⟩ := Option.map_eq_some_iff.mp hstep
        refine Lane.Inv.leave ⟨hsound, hdelivering⟩ (hpool hfinish) (hsound.alone.finish hfinish) ?_
        rw [hat] at hdelivering
        intro _ other hother
        rw [hdelivering.1, List.mem_singleton] at hother
        exact hother ▸ hdelivering.2
      · cases hstep
  | raised =>
      obtain ⟨-, hstep⟩ := Option.ite_none_right_eq_some.mp hstep
      obtain ⟨pool, hfinish, rfl⟩ := Option.map_eq_some_iff.mp hstep
      exact Lane.Inv.leave ⟨hsound, hdelivering⟩ (hpool hfinish) (hsound.alone.finish hfinish)
        (by rintro ⟨⟩)
  | closing e =>
      obtain ⟨hclosing, hstep⟩ := Option.ite_none_right_eq_some.mp hstep
      obtain ⟨pool, hclose, rfl⟩ := Option.map_eq_some_iff.mp hstep
      exact Lane.Inv.closing ⟨hsound, hdelivering⟩ (hpool hclose)
        (hsound.alone.closing hclosing hclose)
  | cancelled =>
      obtain ⟨pool, hcancelled, rfl⟩ := Option.map_eq_some_iff.mp hstep
      have hleft := Lane.Inv.leave ⟨hsound, hdelivering⟩ (hpool hcancelled)
        (hsound.alone.cancelled hcancelled) (by rintro ⟨⟩)
      have hquiet : Quiet lane.channel { lane.channel with worker := .idle } :=
        ⟨{ hsound.limited with cleared := by rintro ⟨⟩ }, rfl, rfl⟩
      exact ⟨hleft.sound.quiet hquiet, hleft.delivering⟩

end

end BrandSniper.Alerts
