import BrandSniper.Listener.AlertDispatch

/-!
# The pool of a lane

A lane's pool has one worker and is only offered jobs by `try_submit`, so
nobody waits for a slot, and its jobs are one line: the job the worker awaits
and those queued behind it. What each step does to that line is one lemma.
-/

namespace BrandSniper.Alerts

open Kit TaskSupervisor BoundedTaskPool

/-! ## A pool with one worker -/

/-- Nobody waits for a slot of the lane's pool: alerts are offered by `try_submit` only. -/
structure Alone (p : BoundedTaskPool) : Prop where
  blocked : p.blocked = []
  worker : ∃ worker, p.workers = [worker]
  room : 1 ≤ p.queue.maxsize
  released : p.closing = .joining true → p.queue.unfinished = 0

section
variable {p p' : BoundedTaskPool}

theorem Alone.drainsAlone (h : Alone p) {e : Event} (hstep : p.step e = some p') :
    p.DrainsAlone e := by
  obtain ⟨worker, hworker⟩ := h.worker
  have hone : p.workers.length ≤ p.queue.maxsize := by
    rw [hworker]
    exact h.room
  cases e with
  | close => exact fun _ hdrained => ⟨h.blocked, hdrained, hone⟩
  | joined =>
      obtain ⟨hclosing, -⟩ := Option.ite_none_right_eq_some.mp hstep
      exact ⟨h.blocked, h.released hclosing, hone⟩
  | timeout => exact h.blocked
  | _ => trivial

/-- `task_done` releases `join` when nothing is left unfinished. -/
theorem Alone.taskDone (h : Alone p) : Alone p.taskDone where
  blocked := h.blocked
  worker := h.worker
  room := h.room
  released := by
    intro hclosing
    rw [BoundedTaskPool.taskDone] at hclosing ⊢
    dsimp only at hclosing ⊢
    split at hclosing
    · exact (‹_ ∧ _›).1
    · rw [BoundedQueue.taskDone_unfinished, h.released hclosing]

/-- The jobs of the line: the one that is awaited, and those queued behind it. -/
def jobs (p : BoundedTaskPool) : List Nat := p.activeJobs ++ p.queuedJobs

/-- The worker takes the next job, or an exit. -/
structure TakesNext (p p' : BoundedTaskPool) : Prop where
  alone : Alone p'
  idle : p.activeJobs = []
  jobs : jobs p' = p.queuedJobs
  one : p'.activeJobs.length ≤ 1
  next : p'.nextJob = p.nextJob
  entered : p'.entered = p.entered
  outcomes : p'.outcomes = p.outcomes

theorem Alone.take (h : Alone p) (hstep : p.step (.take 0) = some p') : TakesNext p p' := by
  obtain ⟨worker, hworker⟩ := h.worker
  have hone : ∀ {a b : List TaskSupervisor.Worker} {w : TaskSupervisor.Worker},
      p.workers = a ++ w :: b → a = [] ∧ b = [] := by
    intro a b w hsplit
    rw [hworker] at hsplit
    cases a with
    | nil => exact ⟨rfl, (List.cons.inj hsplit).2.symm⟩
    | cons _ a => cases a <;> cases (List.cons.inj hsplit).2
  obtain ⟨a, b, queue, hworkers, ⟨job, hget, rfl⟩ | ⟨hget, rfl⟩⟩ := take_cases hstep
  · obtain ⟨hmax, hitems, hsame⟩ := BoundedQueue.get?_eq_some hget
    obtain ⟨rfl, rfl⟩ := hone hworkers
    refine ⟨⟨h.blocked, ⟨_, rfl⟩, hmax ▸ h.room, fun hclosing => hsame.trans (h.released hclosing)⟩,
      ?_, ?_, ?_, rfl, rfl, rfl⟩
    · simp [activeJobs, hworkers, Activity.job]
    · simp [jobs, activeJobs, queuedJobs, hitems, Activity.job]
    · simp [activeJobs, Activity.job]
  · obtain ⟨hmax, hitems, hsame⟩ := BoundedQueue.get?_eq_some hget
    obtain ⟨rfl, rfl⟩ := hone hworkers
    refine ⟨Alone.taskDone ⟨h.blocked, ⟨_, rfl⟩, hmax ▸ h.room,
      fun hclosing => hsame.trans (h.released hclosing)⟩, ?_, ?_, ?_, rfl, rfl, rfl⟩
    · simp [activeJobs, hworkers, Activity.job]
    · simp [jobs, activeJobs, queuedJobs, BoundedTaskPool.taskDone, hitems, Activity.job]
    · simp [activeJobs, BoundedTaskPool.taskDone, Activity.job]

/-- The worker is done with its job. -/
structure Leaves (p p' : BoundedTaskPool) (outcome : JobOutcome) : Prop where
  alone : Alone p'
  idle : p'.activeJobs = []
  queued : p'.queuedJobs = p.queuedJobs
  next : p'.nextJob = p.nextJob
  entered : p'.entered = p.entered
  outcomes : p'.outcomes = p.outcomes ++ p.activeJobs.map fun job => (job, outcome)

theorem Alone.finish (h : Alone p) {failed : Bool} (hstep : p.step (.finish 0 failed) = some p') :
    Leaves p p' (if failed then .failed else .succeeded) := by
  obtain ⟨worker, hworker⟩ := h.worker
  dsimp only [BoundedTaskPool.step, BoundedTaskPool.finish] at hstep
  rw [hworker] at hstep
  split at hstep
  · rename_i job heq
    cases heq
    cases hstep
    refine ⟨Alone.taskDone ⟨h.blocked, ⟨⟨.idle, false⟩, ?_⟩, h.room, h.released⟩, ?_, rfl, rfl, rfl, ?_⟩
    · simp [setWorker, countOutcome, hworker]
    · simp [activeJobs, BoundedTaskPool.taskDone, setWorker, countOutcome, hworker, Activity.job]
    · simp [activeJobs, BoundedTaskPool.taskDone, setWorker, countOutcome, hworker, Activity.job]
  · cases hstep

theorem Alone.cancelled (h : Alone p) (hstep : p.step (.cancelled 0) = some p') :
    Leaves p p' .cancelled := by
  obtain ⟨worker, hworker⟩ := h.worker
  dsimp only [BoundedTaskPool.step, BoundedTaskPool.cancelled] at hstep
  rw [hworker] at hstep
  split at hstep
  · rename_i heq
    cases heq
    cases hstep
    refine ⟨⟨h.blocked, ⟨⟨.exited, true⟩, ?_⟩, h.room, h.released⟩, ?_, rfl, rfl, rfl, ?_⟩
    · simp [setWorker, hworker]
    · simp [activeJobs, setWorker, hworker, Activity.job]
    · simp [activeJobs, setWorker, hworker, Activity.job]
  · rename_i job heq
    cases heq
    cases hstep
    refine ⟨Alone.taskDone ⟨h.blocked, ⟨⟨.exited, true⟩, ?_⟩, h.room, h.released⟩, ?_, rfl, rfl, rfl, ?_⟩
    · simp [setWorker, countOutcome, hworker]
    · simp [activeJobs, BoundedTaskPool.taskDone, setWorker, countOutcome, hworker, Activity.job]
    · simp [activeJobs, BoundedTaskPool.taskDone, setWorker, countOutcome, hworker, Activity.job]
  · cases hstep

/-- An alert is offered to the pool. -/
structure Offers (p p' : BoundedTaskPool) : Prop where
  alone : Alone p'
  active : p'.activeJobs = p.activeJobs
  outcomes : p'.outcomes = p.outcomes
  queued : accepts p = true → p'.queuedJobs = p.queuedJobs ++ [p.nextJob] ∧
    p'.nextJob = p.nextJob + 1 ∧ p'.entered = p.entered ++ [p.nextJob]
  full : accepts p = false → p'.queuedJobs = p.queuedJobs ∧ p.nextJob ≤ p'.nextJob ∧
    p'.entered = p.entered

theorem Alone.trySubmit (h : Alone p) (hinv : p.Inv) : Offers p p.trySubmit := by
  rw [BoundedTaskPool.trySubmit]
  split
  · rename_i hstate
    -- a running pool is not closing
    have hclosing := (hinv.phase.notCalled_of_running hstate).1
    have hnot : ∀ released, p.closing ≠ .joining released := by
      intro released heq
      rw [heq] at hclosing
      cases hclosing
    dsimp only
    by_cases hroom : p.queue.items.length < p.queue.maxsize
    · have haccepts : accepts p = true := by simp [accepts, hstate, hroom]
      have hput : p.queue.put? (some p.nextJob) = some
          { p.queue with
            items := p.queue.items ++ [some p.nextJob]
            unfinished := p.queue.unfinished + 1
            bounded := by
              rw [List.length_append]
              exact hroom } := dif_pos hroom
      rw [BoundedTaskPool.enter]
      dsimp only
      rw [hput, Option.map_some, Option.getD_some]
      refine ⟨⟨h.blocked, h.worker, h.room, fun hreleased => absurd hreleased (hnot true)⟩, rfl, rfl,
        fun _ => ⟨?_, rfl, rfl⟩, fun hfull => Bool.noConfusion (haccepts.symm.trans hfull)⟩
      simp [queuedJobs]
    · have hfull : accepts p = false := by simp [accepts, hroom]
      have hput : p.queue.put? (some p.nextJob) = none := dif_neg hroom
      rw [BoundedTaskPool.enter]
      dsimp only
      rw [hput, Option.map_none, Option.getD_none]
      exact ⟨⟨h.blocked, h.worker, h.room, fun hreleased => absurd hreleased (hnot true)⟩, rfl, rfl,
        fun haccepts => Bool.noConfusion (haccepts.symm.trans hfull),
        fun _ => ⟨rfl, Nat.le_succ _, rfl⟩⟩
  · rename_i hstate
    have hfull : accepts p = false := by simp [accepts, hstate]
    exact ⟨h, rfl, rfl, fun haccepts => Bool.noConfusion (haccepts.symm.trans hfull),
      fun _ => ⟨rfl, le_rfl, rfl⟩⟩

/-- `close` goes on. -/
structure Closes (p p' : BoundedTaskPool) : Prop where
  alone : Alone p'
  active : p'.activeJobs = p.activeJobs
  queued : p'.queuedJobs.Sublist p.queuedJobs
  next : p'.nextJob = p.nextJob
  entered : p'.entered = p.entered
  succeeded : ∀ job, (job, .succeeded) ∈ p'.outcomes → (job, .succeeded) ∈ p.outcomes

theorem putCopies_none {q : BoundedQueue (Option Nat)} (n : Nat) :
    (q.putCopies none n).1.maxsize = q.maxsize ∧
      (q.putCopies none n).1.items.filterMap id = q.items.filterMap id := by
  induction n generalizing q with
  | zero => exact ⟨rfl, rfl⟩
  | succ n ih =>
      rw [BoundedQueue.putCopies]
      cases hput : q.put? none with
      | none => exact ⟨rfl, rfl⟩
      | some q' =>
          obtain ⟨hmax, hitems, -⟩ := BoundedQueue.put?_eq_some hput
          obtain ⟨hmax', hitems'⟩ := ih (q := q')
          refine ⟨hmax'.trans hmax, hitems'.trans ?_⟩
          rw [hitems]
          simp

theorem Alone.sendExits (h : Alone p) : Closes p p.sendExits := by
  obtain ⟨hmax, hitems⟩ := putCopies_none (q := p.queue) p.workers.length
  refine ⟨⟨h.blocked, h.worker, hmax ▸ h.room, ?_⟩, rfl, ?_, rfl, rfl, fun _ hjob => hjob⟩
  · rw [BoundedTaskPool.sendExits]
    dsimp only
    split <;> rintro ⟨⟩
  · rw [queuedJobs, BoundedTaskPool.sendExits]
    dsimp only
    rw [hitems]
    exact List.Sublist.refl _

theorem Alone.cancelAll (h : Alone p) : Closes p p.cancelAll := by
  obtain ⟨worker, hworker⟩ := h.worker
  refine ⟨⟨h.blocked, ⟨{ worker with cancelling := true }, ?_⟩, h.room, ?_⟩, ?_, ?_, rfl, rfl, ?_⟩
  · simp [BoundedTaskPool.cancelAll, hworker]
  · rintro ⟨⟩
  · rw [activeJobs, BoundedTaskPool.cancelAll, activeJobs, hworker]
    rfl
  · exact List.nil_sublist _
  · intro job hjob
    rcases List.mem_append.mp hjob with hold | hnew
    · exact hold
    · obtain ⟨other, -, heq⟩ := List.mem_map.mp hnew
      cases heq

theorem Alone.closing (h : Alone p) {e : Event} (he : isClosing e = true)
    (hstep : p.step e = some p') : Closes p p' := by
  have hsame : ∀ {q : BoundedTaskPool}, Alone q → q.activeJobs = p.activeJobs →
      q.queuedJobs = p.queuedJobs → q.nextJob = p.nextJob → q.entered = p.entered →
      q.outcomes = p.outcomes → Closes p q := by
    intro q halone hactive hqueued hnext hentered houtcomes
    exact ⟨halone, hactive, hqueued ▸ List.Sublist.refl _, hnext, hentered,
      fun _ hjob => houtcomes ▸ hjob⟩
  cases e with
  | close =>
      dsimp only [BoundedTaskPool.step, BoundedTaskPool.close] at hstep
      split at hstep
      · cases hstep
        exact hsame h rfl rfl rfl rfl rfl
      · cases hstep
        exact hsame ⟨h.blocked, h.worker, h.room, by rintro ⟨⟩⟩ rfl rfl rfl rfl rfl
      · split at hstep
        · cases hstep
          have hexits := Alone.sendExits (p := { p with state := .draining })
            ⟨h.blocked, h.worker, h.room, h.released⟩
          exact ⟨hexits.alone, hexits.active, hexits.queued, hexits.next, hexits.entered,
            hexits.succeeded⟩
        · cases hstep
          exact hsame ⟨h.blocked, h.worker, h.room, by rintro ⟨⟩⟩ rfl rfl rfl rfl rfl
      · cases hstep
  | joined =>
      obtain ⟨-, heq⟩ := Option.ite_none_right_eq_some.mp hstep
      cases heq
      exact h.sendExits
  | timeout =>
      dsimp only [BoundedTaskPool.step] at hstep
      split at hstep
      · cases hstep
        exact h.cancelAll
      · cases hstep
  | workersDone =>
      obtain ⟨-, heq⟩ := Option.ite_none_right_eq_some.mp hstep
      cases heq
      exact hsame ⟨h.blocked, h.worker, h.room, by rintro ⟨⟩⟩ rfl rfl rfl rfl rfl
  | _ => cases he

end

end BrandSniper.Alerts
