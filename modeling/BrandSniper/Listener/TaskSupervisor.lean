import Mathlib.Data.List.Nodup
import BrandSniper.Kit.BoundedQueue
import BrandSniper.Kit.Runs

/-!
# The bounded task pool

`BoundedTaskPool` of `apps/listener/task_supervisor.py` as a machine whose
steps are what its tasks do between two awaits: a submitter puts a job or
waits for a slot, a worker takes an item or ends its job, `close` goes on.
Any task that can go on may be the next one to do so.

A job is a submission; jobs are numbered in the order they were submitted. It
may end when its worker likes, or not until it is cancelled.
-/

namespace BrandSniper.TaskSupervisor

open Kit

inductive PoolState where
  | created
  | running
  | draining
  | closed
  deriving DecidableEq, Repr

/-- The `outcome` a job is counted with once it has entered the queue. -/
inductive JobOutcome where
  | succeeded
  | failed
  | cancelled
  deriving DecidableEq, Repr

inductive Activity where
  /-- Waits for an item. -/
  | idle
  /-- Awaits the job. -/
  | active (job : Nat)
  | exited
  deriving DecidableEq, Repr

def Activity.job : Activity → Option Nat
  | active job => some job
  | _ => none

structure Worker where
  activity : Activity
  /-- `cancel()` was called on its task. -/
  cancelling : Bool
  deriving DecidableEq, Repr

def Worker.live (worker : Worker) : Bool := worker.activity ≠ .exited

/-- How far `close` is. -/
inductive Closing where
  | notCalled
  /-- Awaits `queue.join()`; `true` once that can go on. -/
  | joining (released : Bool)
  /-- `put_nowait` raised `QueueFull`. -/
  | raised
  /-- Awaits the task group of the workers. -/
  | awaitingWorkers
  | returned
  deriving DecidableEq, Repr

structure BoundedTaskPool where
  workerCount : Nat
  /-- `none` tells a worker to exit. -/
  queue : BoundedQueue (Option Nat)
  workers : List Worker
  state : PoolState
  closing : Closing
  /-- Jobs of the submitters that wait for a slot. -/
  blocked : List Nat
  nextJob : Nat
  /-- Jobs that have entered the queue. -/
  entered : List Nat
  outcomes : List (Nat × JobOutcome)

namespace BoundedTaskPool

/-- `BoundedTaskPool(workers=..., queue_size=...)`, or the message of its `ValueError`. -/
def new (workers queueSize : Nat) : Except String BoundedTaskPool :=
  if workers < 1 then .error "workers must be at least 1"
  else if queueSize < 1 then .error "queue_size must be at least 1"
  else .ok ⟨workers, .empty queueSize, [], .created, .notCalled, [], 0, [], []⟩

/-- A job enters the queue, if it has a slot. -/
def enter (p : BoundedTaskPool) (job : Nat) : Option BoundedTaskPool :=
  (p.queue.put? (some job)).map fun queue =>
    { p with queue := queue, entered := p.entered ++ [job] }

/-- `queue.task_done()`: the last unfinished item releases `join`. -/
def taskDone (p : BoundedTaskPool) : BoundedTaskPool :=
  { p with
    queue := p.queue.taskDone
    closing :=
      if p.queue.taskDone.unfinished = 0 ∧ p.closing = .joining false then .joining true
      else p.closing }

def setWorker (p : BoundedTaskPool) (index : Nat) (worker : Worker) : BoundedTaskPool :=
  { p with workers := p.workers.set index worker }

def countOutcome (p : BoundedTaskPool) (job : Nat) (outcome : JobOutcome) : BoundedTaskPool :=
  { p with outcomes := p.outcomes ++ [(job, outcome)] }

def submit (p : BoundedTaskPool) : BoundedTaskPool :=
  if p.state = .running then
    let next := { p with nextJob := p.nextJob + 1 }
    (next.enter p.nextJob).getD { next with blocked := p.blocked ++ [p.nextJob] }
  else p

def trySubmit (p : BoundedTaskPool) : BoundedTaskPool :=
  if p.state = .running then
    let next := { p with nextJob := p.nextJob + 1 }
    (next.enter p.nextJob).getD next
  else p

/-- A worker takes the first item of the queue. -/
def take (p : BoundedTaskPool) (index : Nat) : Option BoundedTaskPool :=
  match p.workers[index]?, p.queue.get? with
  | some ⟨.idle, false⟩, some (some job, queue) =>
      some ({ p with queue := queue }.setWorker index ⟨.active job, false⟩)
  | some ⟨.idle, false⟩, some (none, queue) =>
      some ({ p with queue := queue }.setWorker index ⟨.exited, false⟩).taskDone
  | _, _ => none

/-- A job ends by itself. -/
def finish (p : BoundedTaskPool) (index : Nat) (failed : Bool) : Option BoundedTaskPool :=
  match p.workers[index]? with
  | some ⟨.active job, false⟩ =>
      let outcome := if failed then JobOutcome.failed else JobOutcome.succeeded
      some ((p.countOutcome job outcome).setWorker index ⟨.idle, false⟩).taskDone
  | _ => none

/-- The cancellation reaches a worker, and the job it awaits. -/
def cancelled (p : BoundedTaskPool) (index : Nat) : Option BoundedTaskPool :=
  match p.workers[index]? with
  | some ⟨.idle, true⟩ => some (p.setWorker index ⟨.exited, true⟩)
  | some ⟨.active job, true⟩ =>
      some ((p.countOutcome job .cancelled).setWorker index ⟨.exited, true⟩).taskDone
  | _ => none

/-- One `None` for every worker, put without waiting. -/
def sendExits (p : BoundedTaskPool) : BoundedTaskPool :=
  let sent := p.queue.putCopies none p.workers.length
  { p with queue := sent.1, closing := if sent.2 then .awaitingWorkers else .raised }

/-- `_cancel_queued_work`, then `cancel()` on every worker. -/
def cancelAll (p : BoundedTaskPool) : BoundedTaskPool :=
  { p with
    queue := p.queue.clear
    outcomes := p.outcomes ++ (p.queue.items.filterMap id).map fun job => (job, .cancelled)
    workers := p.workers.map fun worker => { worker with cancelling := true }
    closing := .awaitingWorkers }

/-- The first call of `close`, up to where it waits. -/
def close (p : BoundedTaskPool) : Option BoundedTaskPool :=
  match p.state with
  | .closed => some p
  | .created => some { p with state := .closed, closing := .returned }
  | .running =>
      let p := { p with state := .draining }
      if p.queue.unfinished = 0 then some p.sendExits
      else some { p with closing := .joining false }
  | .draining => none

inductive Event where
  /-- `__aenter__` -/
  | start
  | submit
  | trySubmit
  /-- A submitter that waits for a slot gets one. -/
  | put (job : Nat)
  /-- It is cancelled while it waits. -/
  | abandon (job : Nat)
  | take (index : Nat)
  | finish (index : Nat) (failed : Bool)
  | cancelled (index : Nat)
  | close
  /-- `join` returns to `close`. -/
  | joined
  /-- `shutdown_timeout` is over. -/
  | timeout
  /-- The task group of the workers returns to `close`. -/
  | workersDone
  deriving DecidableEq, Repr

def step (p : BoundedTaskPool) : Event → Option BoundedTaskPool
  | .start =>
      if p.state = .created then
        some { p with
          state := .running
          workers := List.replicate p.workerCount ⟨.idle, false⟩ }
      else none
  | .submit => some p.submit
  | .trySubmit => some p.trySubmit
  | .put job =>
      if job ∈ p.blocked then { p with blocked := p.blocked.erase job }.enter job else none
  | .abandon job =>
      if job ∈ p.blocked then some { p with blocked := p.blocked.erase job } else none
  | .take index => p.take index
  | .finish index failed => p.finish index failed
  | .cancelled index => p.cancelled index
  | .close => p.close
  | .joined => if p.closing = .joining true then some p.sendExits else none
  | .timeout =>
      match p.closing with
      | .joining _ => some p.cancelAll
      | _ => none
  | .workersDone =>
      if p.closing = .awaitingWorkers ∧ p.workers.all (fun worker => !worker.live) then
        some { p with state := .closed, closing := .returned }
      else none

/-! ## What the pool promises -/

/-- What the pool's tasks do; submissions are the caller's. -/
def OfPool : Event → Prop
  | .start | .submit | .trySubmit | .close => False
  | _ => True

/-- What does not depend on a job ending by itself, or on a submitter. -/
def ByItself : Event → Prop
  | .take _ | .cancelled _ | .workersDone => True
  | _ => False

/-- What holds in every state of a pool that closes cleanly. -/
structure ClosesCleanly (p : BoundedTaskPool) : Prop where
  notRaised : p.closing ≠ .raised
  /-- `close` waits for the queue no longer than the timeout. -/
  joinEnds : ∀ released, p.closing = .joining released → ∃ p', step p .timeout = some p'
  /-- From then on it comes to the closed pool, also if no job ends by itself. -/
  workersEnd : p.closing = .awaitingWorkers →
    Leads step OfPool ByItself (fun p => p.state = .closed) p
  /-- No job has two outcomes, or one before it has entered the queue. -/
  onlyOnce : ∀ job, (p.outcomes.map Prod.fst).count job ≤ 1 ∧
    (job ∈ p.outcomes.map Prod.fst → job ∈ p.entered)
  settled : p.state = .closed → p.queue.items = [] ∧
    ∀ job ∈ p.entered, (p.outcomes.map Prod.fst).count job = 1

/-- No submitter waits for a slot, and the queue holds an exit for every worker. -/
def RoomForExits (p : BoundedTaskPool) : Prop :=
  p.blocked = [] ∧ p.queue.unfinished = 0 ∧ p.workers.length ≤ p.queue.maxsize

/-- When `close` goes on from draining the queue, no submitter waits for a slot; and if the queue
was drained, no job has entered it since and it holds an exit for every worker. -/
def DrainsAlone (p : BoundedTaskPool) : Event → Prop
  | .close => p.state = .running → p.queue.unfinished = 0 → p.RoomForExits
  | .joined => p.RoomForExits
  | .timeout => p.blocked = []
  | _ => True

/-! ## Jobs are accounted for -/

def queuedJobs (p : BoundedTaskPool) : List Nat := p.queue.items.filterMap id

def activeJobs (p : BoundedTaskPool) : List Nat :=
  p.workers.filterMap fun worker => worker.activity.job

/-- Every job that has entered is in the queue, with a worker, or has its outcome. -/
structure Accounts (p : BoundedTaskPool) : Prop where
  perm : p.entered.Perm (p.queuedJobs ++ p.activeJobs ++ p.outcomes.map Prod.fst)
  nodup : (p.entered ++ p.blocked).Nodup
  fresh : ∀ job ∈ p.entered ++ p.blocked, job < p.nextJob
  unfinished : p.queue.unfinished = p.queue.items.length + p.activeJobs.length

theorem exists_split_of_getElem? {α : Type} {l : List α} {i : Nat} {x : α} (h : l[i]? = some x) :
    ∃ a b, l = a ++ x :: b ∧ ∀ y, l.set i y = a ++ y :: b := by
  induction l generalizing i with
  | nil => cases h
  | cons first rest ih =>
      cases i with
      | zero =>
          cases h
          exact ⟨[], rest, rfl, fun _ => rfl⟩
      | succ i =>
          obtain ⟨a, b, hsplit, hset⟩ := ih h
          refine ⟨first :: a, b, by rw [hsplit]; rfl, fun y => ?_⟩
          rw [List.set_cons_succ, hset]
          rfl

theorem forall_replaced {α : Type} {P : α → Prop} {a b : List α} {old new : α}
    (h : ∀ x ∈ a ++ old :: b, P x) (hnew : P new) : ∀ x ∈ a ++ new :: b, P x := by
  intro x hx
  rcases List.mem_append.mp hx with hx | hx
  · exact h x (List.mem_append_left _ hx)
  · rcases List.mem_cons.mp hx with rfl | hx
    · exact hnew
    · exact h x (List.mem_append_right _ (List.mem_cons_of_mem _ hx))

section
variable {p p' : BoundedTaskPool} {job index : Nat}

theorem enter_eq_some (h : p.enter job = some p') :
    ∃ queue, p.queue.put? (some job) = some queue ∧
      p' = { p with queue := queue, entered := p.entered ++ [job] } := by
  obtain ⟨queue, hput, rfl⟩ := Option.map_eq_some_iff.mp h
  exact ⟨queue, hput, rfl⟩

/-- A job that is neither in the queue nor waiting for a slot may enter. -/
theorem Accounts.enter (h : p.Accounts) (hnew : job ∉ p.entered ++ p.blocked)
    (hfresh : job < p.nextJob) (henter : p.enter job = some p') : p'.Accounts := by
  obtain ⟨queue, hput, rfl⟩ := enter_eq_some henter
  obtain ⟨-, hitems, hunfinished⟩ := BoundedQueue.put?_eq_some hput
  have hperm := h.perm
  have hnodup := h.nodup
  refine ⟨?_, ?_, fun x hx => ?_, ?_⟩
  · rw [List.perm_iff_count] at hperm ⊢
    intro x
    have := hperm x
    simp only [queuedJobs, activeJobs, hitems, List.count_append, List.filterMap_append,
      List.filterMap_cons, id, List.filterMap_nil] at this ⊢
    omega
  · rw [List.append_assoc]
    refine (List.perm_middle.nodup_iff).mpr (List.nodup_cons.mpr ⟨hnew, hnodup⟩)
  · simp only [List.mem_append, List.mem_singleton] at hx
    rcases hx with (hx | rfl) | hx
    · exact h.fresh x (List.mem_append_left _ hx)
    · exact hfresh
    · exact h.fresh x (List.mem_append_right _ hx)
  · have hcount := h.unfinished
    simp only [activeJobs, hitems, hunfinished, List.length_append, List.length_singleton] at hcount ⊢
    omega

/-! ## What a worker's step does -/

theorem take_cases (h : p.take index = some p') :
    ∃ a b queue, p.workers = a ++ ⟨.idle, false⟩ :: b ∧
      ((∃ job, p.queue.get? = some (some job, queue) ∧
        p' = { p with queue := queue, workers := a ++ ⟨.active job, false⟩ :: b }) ∨
      (p.queue.get? = some (none, queue) ∧
        p' = taskDone { p with queue := queue, workers := a ++ ⟨.exited, false⟩ :: b })) := by
  unfold take at h
  split at h
  · rename_i job queue hworker hget
    obtain ⟨a, b, hsplit, hset⟩ := exists_split_of_getElem? hworker
    cases h
    exact ⟨a, b, queue, hsplit, .inl ⟨job, hget, by rw [setWorker, hset]⟩⟩
  · rename_i queue hworker hget
    obtain ⟨a, b, hsplit, hset⟩ := exists_split_of_getElem? hworker
    cases h
    exact ⟨a, b, queue, hsplit, .inr ⟨hget, by rw [setWorker, hset]⟩⟩
  · cases h

theorem finish_cases {failed : Bool} (h : p.finish index failed = some p') :
    ∃ a b job outcome, p.workers = a ++ ⟨.active job, false⟩ :: b ∧
      p' = taskDone { p with
        outcomes := p.outcomes ++ [(job, outcome)]
        workers := a ++ ⟨.idle, false⟩ :: b } := by
  unfold finish at h
  split at h
  · rename_i job hworker
    obtain ⟨a, b, hsplit, hset⟩ := exists_split_of_getElem? hworker
    cases h
    exact ⟨a, b, job, _, hsplit, by rw [setWorker, countOutcome, hset]⟩
  · cases h

theorem cancelled_cases (h : p.cancelled index = some p') :
    ∃ a b, (p.workers = a ++ ⟨.idle, true⟩ :: b ∧
        p' = { p with workers := a ++ ⟨.exited, true⟩ :: b }) ∨
      ∃ job, p.workers = a ++ ⟨.active job, true⟩ :: b ∧
        p' = taskDone { p with
          outcomes := p.outcomes ++ [(job, .cancelled)]
          workers := a ++ ⟨.exited, true⟩ :: b } := by
  unfold cancelled at h
  split at h
  · rename_i hworker
    obtain ⟨a, b, hsplit, hset⟩ := exists_split_of_getElem? hworker
    cases h
    exact ⟨a, b, .inl ⟨hsplit, by rw [setWorker, hset]⟩⟩
  · rename_i job hworker
    obtain ⟨a, b, hsplit, hset⟩ := exists_split_of_getElem? hworker
    cases h
    exact ⟨a, b, .inr ⟨job, hsplit, by rw [setWorker, countOutcome, hset]⟩⟩
  · cases h

/-- A step that moves a job along and finishes at most one item. -/
theorem Accounts.moved (h : p.Accounts) (hentered : p'.entered = p.entered)
    (hblocked : p'.blocked = p.blocked) (hnext : p'.nextJob = p.nextJob)
    (hcount : ∀ x, p.queuedJobs.count x + p.activeJobs.count x + (p.outcomes.map Prod.fst).count x
      = p'.queuedJobs.count x + p'.activeJobs.count x + (p'.outcomes.map Prod.fst).count x)
    (hunfinished : p'.queue.unfinished = p'.queue.items.length + p'.activeJobs.length) :
    p'.Accounts := by
  have hperm := h.perm
  refine ⟨?_, by rw [hentered, hblocked]; exact h.nodup,
    by rw [hentered, hblocked, hnext]; exact h.fresh, hunfinished⟩
  rw [List.perm_iff_count] at hperm ⊢
  intro x
  have := hperm x
  have := hcount x
  simp only [List.count_append, hentered] at *
  omega

theorem Accounts.take (h : p.Accounts) (htake : p.take index = some p') : p'.Accounts := by
  have hunfinished := h.unfinished
  obtain ⟨a, b, queue, hworkers, ⟨job, hget, rfl⟩ | ⟨hget, rfl⟩⟩ := take_cases htake
  · obtain ⟨-, hitems, hsame⟩ := BoundedQueue.get?_eq_some hget
    refine h.moved rfl rfl rfl (fun x => ?_) ?_
    · simp only [queuedJobs, activeJobs, hitems, hworkers, List.filterMap_append,
        List.filterMap_cons, List.count_append, List.count_cons, Activity.job, id]
      omega
    · simp only [activeJobs, hitems, hworkers, hsame, List.filterMap_append, List.filterMap_cons,
        List.length_append, List.length_cons, Activity.job] at hunfinished ⊢
      omega
  · obtain ⟨-, hitems, hsame⟩ := BoundedQueue.get?_eq_some hget
    refine h.moved rfl rfl rfl (fun x => ?_) ?_
    · simp only [queuedJobs, activeJobs, taskDone, BoundedQueue.taskDone_items, hitems, hworkers,
        List.filterMap_append, List.filterMap_cons, Activity.job, id]
    · simp only [activeJobs, taskDone, BoundedQueue.taskDone_items,
        BoundedQueue.taskDone_unfinished, hitems, hworkers, hsame, List.filterMap_append,
        List.filterMap_cons, List.length_append, List.length_cons, Activity.job] at hunfinished ⊢
      omega

theorem Accounts.finish {failed : Bool} (h : p.Accounts) (hfinish : p.finish index failed = some p') :
    p'.Accounts := by
  have hunfinished := h.unfinished
  obtain ⟨a, b, job, outcome, hworkers, rfl⟩ := finish_cases hfinish
  refine h.moved rfl rfl rfl (fun x => ?_) ?_
  · simp only [queuedJobs, activeJobs, taskDone, BoundedQueue.taskDone_items, hworkers,
      List.filterMap_append, List.filterMap_cons, List.map_append, List.map_cons, List.map_nil,
      List.count_append, List.count_cons, List.count_nil, Activity.job]
    omega
  · simp only [activeJobs, taskDone, BoundedQueue.taskDone_items, BoundedQueue.taskDone_unfinished,
      hworkers, List.filterMap_append, List.filterMap_cons, List.length_append, List.length_cons,
      Activity.job] at hunfinished ⊢
    omega

theorem Accounts.cancelled (h : p.Accounts) (hcancelled : p.cancelled index = some p') :
    p'.Accounts := by
  have hunfinished := h.unfinished
  obtain ⟨a, b, ⟨hworkers, rfl⟩ | ⟨job, hworkers, rfl⟩⟩ := cancelled_cases hcancelled
  · refine h.moved rfl rfl rfl (fun x => ?_) ?_
    · simp only [queuedJobs, activeJobs, hworkers, List.filterMap_append, List.filterMap_cons,
        Activity.job]
    · simp only [activeJobs, hworkers, List.filterMap_append, List.filterMap_cons,
        Activity.job] at hunfinished ⊢
      exact hunfinished
  · refine h.moved rfl rfl rfl (fun x => ?_) ?_
    · simp only [queuedJobs, activeJobs, taskDone, BoundedQueue.taskDone_items, hworkers,
        List.filterMap_append, List.filterMap_cons, List.map_append, List.map_cons, List.map_nil,
        List.count_append, List.count_cons, List.count_nil, Activity.job]
      omega
    · simp only [activeJobs, taskDone, BoundedQueue.taskDone_items,
        BoundedQueue.taskDone_unfinished, hworkers, List.filterMap_append, List.filterMap_cons,
        List.length_append, List.length_cons, Activity.job] at hunfinished ⊢
      omega

/-- The queued jobs count as cancelled. -/
theorem Accounts.cancelAll (h : p.Accounts) : p.cancelAll.Accounts := by
  have hunfinished := h.unfinished
  have hactive : p.cancelAll.activeJobs = p.activeJobs := by
    show (p.workers.map _).filterMap _ = p.workers.filterMap _
    rw [List.filterMap_map]
    rfl
  refine h.moved rfl rfl rfl (fun x => ?_) ?_
  · rw [hactive]
    simp only [queuedJobs, BoundedTaskPool.cancelAll, BoundedQueue.clear_items, List.map_append,
      List.map_map, Function.comp_def, List.map_id', List.count_append, List.filterMap_nil,
      List.count_nil]
    omega
  · rw [hactive]
    simp only [BoundedTaskPool.cancelAll, BoundedQueue.clear_items, BoundedQueue.clear_unfinished,
      List.length_nil]
    omega

/-! ## Where the pool is while it closes -/

/-- No worker has been told to stop. -/
def Untouched (p : BoundedTaskPool) : Prop :=
  none ∉ p.queue.items ∧
    ∀ worker ∈ p.workers, worker.live = true ∧ worker.cancelling = false

/-- The queue holds one exit for every worker that has not exited, and nothing else. -/
def Exiting (p : BoundedTaskPool) : Prop :=
  p.queue.items = List.replicate (p.workers.countP Worker.live) none ∧
    ∀ worker ∈ p.workers, worker.activity.job = none ∧ worker.cancelling = false

def Cancelling (p : BoundedTaskPool) : Prop :=
  p.queue.items = [] ∧ ∀ worker ∈ p.workers, worker.cancelling = true

def Phase (p : BoundedTaskPool) : Prop :=
  match p.closing with
  | .notCalled => p.Untouched ∧
      (p.state = .running ∨ (p.state = .created ∧ p.queue.items = [] ∧ p.workers = [] ∧
        p.blocked = []))
  | .joining _ => p.Untouched ∧ p.state = .draining
  | .raised => False
  | .awaitingWorkers => p.state = .draining ∧ p.blocked = [] ∧ (p.Exiting ∨ p.Cancelling)
  | .returned => p.state = .closed ∧ p.blocked = [] ∧ p.queue.items = [] ∧
      ∀ worker ∈ p.workers, worker.live = false

theorem Phase.notCalled_of_running (h : p.Phase) (hstate : p.state = .running) :
    p.closing = .notCalled ∧ p.Untouched := by
  unfold Phase at h
  split at h <;> simp_all

theorem Phase.notCalled_of_created (h : p.Phase) (hstate : p.state = .created) :
    p.closing = .notCalled ∧ p.queue.items = [] ∧ p.workers = [] ∧ p.blocked = [] := by
  unfold Phase at h
  split at h <;> simp_all

/-- Submitters wait only while no worker has been told to stop. -/
theorem Phase.untouched_of_blocked (h : p.Phase) (hblocked : job ∈ p.blocked) :
    p.Untouched ∧ ((p.closing = .notCalled ∧ p.state = .running) ∨
      ((∃ released, p.closing = .joining released) ∧ p.state = .draining)) := by
  unfold Phase at h
  split at h
  · rename_i hclosing
    rcases h.2 with hstate | hcreated
    · exact ⟨h.1, .inl ⟨hclosing, hstate⟩⟩
    · rw [hcreated.2.2.2] at hblocked
      cases hblocked
  · rename_i released hclosing
    exact ⟨h.1, .inr ⟨⟨released, hclosing⟩, h.2⟩⟩
  · exact h.elim
  · rw [h.2.1] at hblocked
    cases hblocked
  · rw [h.2.1] at hblocked
    cases hblocked

theorem phase_untouched (h : p'.Untouched)
    (hat : (p'.closing = .notCalled ∧ p'.state = .running) ∨
      ((∃ released, p'.closing = .joining released) ∧ p'.state = .draining)) : p'.Phase := by
  unfold Phase
  rcases hat with ⟨hclosing, hstate⟩ | ⟨⟨released, hclosing⟩, hstate⟩
  · rw [hclosing]
    exact ⟨h, .inl hstate⟩
  · rw [hclosing]
    exact ⟨h, hstate⟩

theorem phase_taskDone (h : p.Phase) : p.taskDone.Phase := by
  unfold Phase at h ⊢
  unfold taskDone
  by_cases hrelease : p.queue.taskDone.unfinished = 0 ∧ p.closing = .joining false
  · rw [hrelease.2] at h
    rw [if_pos hrelease]
    exact h
  · rw [if_neg hrelease]
    exact h

/-- A worker that has not been told to stop, and is neither waiting nor busy with an exit, works
while no worker has been told to stop. -/
theorem Phase.untouched_of_active {a b : List Worker} (h : p.Phase)
    (hworkers : p.workers = a ++ ⟨.active job, false⟩ :: b) :
    p.Untouched ∧ ((p.closing = .notCalled ∧ p.state = .running) ∨
      ((∃ released, p.closing = .joining released) ∧ p.state = .draining)) := by
  have hmem : (⟨.active job, false⟩ : Worker) ∈ p.workers := by simp [hworkers]
  unfold Phase at h
  split at h
  · rename_i hclosing
    rcases h.2 with hstate | hcreated
    · exact ⟨h.1, .inl ⟨hclosing, hstate⟩⟩
    · rw [hcreated.2.2.1] at hmem
      cases hmem
  · rename_i released hclosing
    exact ⟨h.1, .inr ⟨⟨released, hclosing⟩, h.2⟩⟩
  · exact h.elim
  · rcases h.2.2 with hexiting | hcancelling
    · cases (hexiting.2 _ hmem).1
    · cases hcancelling.2 _ hmem
  · cases h.2.2.2 _ hmem

theorem Phase.enter (h : p.Untouched)
    (hat : (p.closing = .notCalled ∧ p.state = .running) ∨
      ((∃ released, p.closing = .joining released) ∧ p.state = .draining))
    (henter : p.enter job = some p') : p'.Phase := by
  obtain ⟨queue, hput, rfl⟩ := enter_eq_some henter
  obtain ⟨-, hitems, -⟩ := BoundedQueue.put?_eq_some hput
  refine phase_untouched ⟨?_, h.2⟩ hat
  show none ∉ queue.items
  rw [hitems]
  simpa using h.1

theorem Phase.take (h : p.Phase) (htake : p.take index = some p') : p'.Phase := by
  obtain ⟨a, b, queue, hworkers, htook⟩ := take_cases htake
  have hmem : (⟨.idle, false⟩ : Worker) ∈ p.workers := by simp [hworkers]
  rcases htook with ⟨job, hget, rfl⟩ | ⟨hget, rfl⟩
  · -- a job is taken only while no worker has been told to stop
    obtain ⟨-, hitems, -⟩ := BoundedQueue.get?_eq_some hget
    have hkeep : p.Untouched → Untouched
        { p with queue := queue, workers := a ++ ⟨.active job, false⟩ :: b } := by
      intro hu
      refine ⟨fun hnone => hu.1 (by rw [hitems]; exact List.mem_cons_of_mem _ hnone), ?_⟩
      exact forall_replaced (hworkers ▸ hu.2) ⟨rfl, rfl⟩
    unfold Phase at h
    split at h
    · rename_i hclosing
      rcases h.2 with hstate | hcreated
      · exact phase_untouched (hkeep h.1) (.inl ⟨hclosing, hstate⟩)
      · rw [hcreated.2.2.1] at hmem
        cases hmem
    · rename_i released hclosing
      exact phase_untouched (hkeep h.1) (.inr ⟨⟨released, hclosing⟩, h.2⟩)
    · exact h.elim
    · rcases h.2.2 with hexiting | hcancelling
      · have : some job ∈ p.queue.items := by rw [hitems]; exact List.mem_cons_self
        rw [hexiting.1] at this
        cases List.eq_of_mem_replicate this
      · cases hcancelling.2 _ hmem
    · cases h.2.2.2 _ hmem
  · obtain ⟨-, hitems, -⟩ := BoundedQueue.get?_eq_some hget
    have hnone : none ∈ p.queue.items := by rw [hitems]; exact List.mem_cons_self
    refine phase_taskDone ?_
    unfold Phase at h
    split at h
    · exact absurd hnone h.1.1
    · exact absurd hnone h.1.1
    · exact h.elim
    · rename_i hclosing
      rcases h.2.2 with hexiting | hcancelling
      · unfold Phase
        dsimp only
        rw [hclosing]
        refine ⟨h.1, h.2.1, .inl ⟨?_, forall_replaced (hworkers ▸ hexiting.2) ⟨rfl, rfl⟩⟩⟩
        · have hall := hexiting.1
          rw [hitems, hworkers, List.countP_append, List.countP_cons_of_pos (by rfl),
            ← Nat.add_assoc, List.replicate_succ] at hall
          show queue.items = List.replicate ((a ++ ⟨.exited, false⟩ :: b).countP Worker.live) none
          rw [List.countP_append, List.countP_cons_of_neg (by decide)]
          exact (List.cons.inj hall).2
      · cases hcancelling.2 _ hmem
    · cases h.2.2.2 _ hmem

theorem Phase.finish {failed : Bool} (h : p.Phase) (hfinish : p.finish index failed = some p') :
    p'.Phase := by
  obtain ⟨a, b, job, outcome, hworkers, rfl⟩ := finish_cases hfinish
  obtain ⟨hu, hat⟩ := h.untouched_of_active hworkers
  exact phase_taskDone
    (phase_untouched ⟨hu.1, forall_replaced (hworkers ▸ hu.2) ⟨rfl, rfl⟩⟩ hat)

theorem Phase.cancelled (h : p.Phase) (hcancelled : p.cancelled index = some p') : p'.Phase := by
  -- only a worker whose task was cancelled takes this step
  have hkeep : ∀ (a b : List Worker) (activity : Activity),
      p.workers = a ++ ⟨activity, true⟩ :: b → (⟨activity, true⟩ : Worker).live = true →
      ∀ outcomes, Phase { p with outcomes := outcomes, workers := a ++ ⟨.exited, true⟩ :: b } := by
    intro a b activity hworkers hlive outcomes
    have hmem : (⟨activity, true⟩ : Worker) ∈ p.workers := by simp [hworkers]
    unfold Phase at h
    split at h
    · cases (h.1.2 _ hmem).2
    · cases (h.1.2 _ hmem).2
    · exact h.elim
    · rename_i hclosing
      unfold Phase
      dsimp only
      rw [hclosing]
      rcases h.2.2 with hexiting | hcancelling
      · cases (hexiting.2 _ hmem).2
      · exact ⟨h.1, h.2.1, .inr ⟨hcancelling.1, forall_replaced (hworkers ▸ hcancelling.2) rfl⟩⟩
    · rw [h.2.2.2 _ hmem] at hlive
      cases hlive
  obtain ⟨a, b, ⟨hworkers, rfl⟩ | ⟨job, hworkers, rfl⟩⟩ := cancelled_cases hcancelled
  · exact hkeep a b .idle hworkers rfl p.outcomes
  · exact phase_taskDone (hkeep a b (.active job) hworkers rfl _)

/-- With room for them, the exits are sent to workers that are all idle. -/
theorem sendExits_spec (hroom : p.RoomForExits) (haccounts : p.Accounts) (hu : p.Untouched)
    (hstate : p.state = .draining) : p.sendExits.Phase ∧ p.sendExits.Accounts := by
  obtain ⟨hblocked, hunfinished, hworkers⟩ := hroom
  have hcount := haccounts.unfinished
  have hitems : p.queue.items = [] := List.length_eq_zero_iff.mp (by omega)
  have hactive : p.activeJobs = [] := List.length_eq_zero_iff.mp (by omega)
  obtain ⟨hsent, -, hsentItems, hsentCount⟩ := BoundedQueue.putCopies_of_le none
    (q := p.queue) (n := p.workers.length) (by rw [hitems, List.length_nil]; omega)
  rw [hitems, List.nil_append] at hsentItems
  constructor
  · unfold Phase sendExits
    dsimp only
    rw [hsent]
    refine ⟨hstate, hblocked, .inl ⟨?_, fun worker hw => ⟨?_, (hu.2 worker hw).2⟩⟩⟩
    · rw [hsentItems, List.countP_eq_length.mpr fun worker hw => (hu.2 worker hw).1]
    · exact List.filterMap_eq_nil_iff.mp hactive worker hw
  · refine haccounts.moved rfl rfl rfl (fun x => ?_) ?_
    · have hnone : p.sendExits.queuedJobs = p.queuedJobs := by
        show List.filterMap id (p.queue.putCopies none p.workers.length).1.items
          = List.filterMap id p.queue.items
        rw [hsentItems, hitems, List.filterMap_replicate_of_none rfl]
        rfl
      rw [hnone]
      rfl
    · show (p.queue.putCopies none p.workers.length).1.unfinished
        = (p.queue.putCopies none p.workers.length).1.items.length + p.activeJobs.length
      rw [hsentItems, hsentCount, hactive, List.length_replicate, List.length_nil]
      omega

/-- Without the room, an exit finds the queue full. -/
theorem sendExits_raised_iff : p.sendExits.closing = .raised ↔
    p.queue.maxsize < p.queue.items.length + p.workers.length := by
  have hclosing : p.sendExits.closing
      = if (p.queue.putCopies none p.workers.length).2 then .awaitingWorkers else .raised := rfl
  rw [hclosing]
  rcases Nat.lt_or_ge p.queue.maxsize (p.queue.items.length + p.workers.length) with hlt | hle
  · simp [BoundedQueue.putCopies_of_lt none hlt, hlt]
  · simp [(BoundedQueue.putCopies_of_le none hle).1, Nat.not_lt.mpr hle]

theorem cancelAll_phase (hstate : p.state = .draining) (hblocked : p.blocked = []) :
    p.cancelAll.Phase := by
  refine ⟨hstate, hblocked, .inr ⟨rfl, fun worker hw => ?_⟩⟩
  obtain ⟨worker, -, rfl⟩ := List.mem_map.mp hw
  rfl

/-! ## One step -/

structure Inv (p : BoundedTaskPool) : Prop where
  accounts : p.Accounts
  phase : p.Phase

theorem Accounts.abandon (h : p.Accounts) :
    Accounts { p with blocked := p.blocked.erase job } where
  perm := h.perm
  nodup := h.nodup.sublist (List.Sublist.append_left List.erase_sublist _)
  fresh x hx := h.fresh x (by
    rcases List.mem_append.mp hx with hx | hx
    · exact List.mem_append_left _ hx
    · exact List.mem_append_right _ (List.mem_of_mem_erase hx))
  unfinished := h.unfinished

theorem Accounts.fresh_not_mem (h : p.Accounts) : p.nextJob ∉ p.entered ++ p.blocked := fun hmem =>
  Nat.lt_irrefl _ (h.fresh _ hmem)

/-- The same pool, with the number of the next job taken. -/
theorem Accounts.next (h : p.Accounts) : Accounts { p with nextJob := p.nextJob + 1 } where
  perm := h.perm
  nodup := h.nodup
  fresh x hx := Nat.lt_succ_of_lt (h.fresh x hx)
  unfinished := h.unfinished

theorem Inv.submit (h : p.Inv) : p.submit.Inv := by
  unfold BoundedTaskPool.submit
  split
  · rename_i hstate
    obtain ⟨hclosing, hu⟩ := h.phase.notCalled_of_running hstate
    dsimp only
    cases henter : BoundedTaskPool.enter { p with nextJob := p.nextJob + 1 } p.nextJob with
    | some p' =>
        exact ⟨h.accounts.next.enter h.accounts.fresh_not_mem (Nat.lt_succ_self _) henter,
          Phase.enter (p := { p with nextJob := p.nextJob + 1 }) hu (.inl ⟨hclosing, hstate⟩)
            henter⟩
    | none =>
        refine ⟨⟨h.accounts.perm, ?_, fun x hx => ?_, h.accounts.unfinished⟩,
          phase_untouched hu (.inl ⟨hclosing, hstate⟩)⟩
        · show (p.entered ++ (p.blocked ++ [p.nextJob])).Nodup
          rw [← List.append_assoc]
          refine (List.perm_append_comm.nodup_iff).mp (List.nodup_cons.mpr ⟨?_, h.accounts.nodup⟩)
          exact h.accounts.fresh_not_mem
        · rw [Option.getD_none, ← List.append_assoc] at hx
          rcases List.mem_append.mp hx with hx | hx
          · exact Nat.lt_succ_of_lt (h.accounts.fresh x hx)
          · rw [List.mem_singleton.mp hx]
            exact Nat.lt_succ_self _
  · exact h

theorem Inv.trySubmit (h : p.Inv) : p.trySubmit.Inv := by
  unfold BoundedTaskPool.trySubmit
  split
  · rename_i hstate
    obtain ⟨hclosing, hu⟩ := h.phase.notCalled_of_running hstate
    dsimp only
    cases henter : BoundedTaskPool.enter { p with nextJob := p.nextJob + 1 } p.nextJob with
    | some p' =>
        exact ⟨h.accounts.next.enter h.accounts.fresh_not_mem (Nat.lt_succ_self _) henter,
          Phase.enter (p := { p with nextJob := p.nextJob + 1 }) hu (.inl ⟨hclosing, hstate⟩)
            henter⟩
    | none => exact ⟨h.accounts.next, phase_untouched hu (.inl ⟨hclosing, hstate⟩)⟩
  · exact h

theorem Inv.put (h : p.Inv) (hblocked : job ∈ p.blocked)
    (henter : BoundedTaskPool.enter { p with blocked := p.blocked.erase job } job = some p') :
    p'.Inv := by
  obtain ⟨hu, hat⟩ := h.phase.untouched_of_blocked hblocked
  have hnodup := List.nodup_append.mp h.accounts.nodup
  have hnew : job ∉ p.entered ++ p.blocked.erase job := by
    intro hmem
    rcases List.mem_append.mp hmem with hmem | hmem
    · exact hnodup.2.2 job hmem job hblocked rfl
    · exact (hnodup.2.1.mem_erase_iff.mp hmem).1 rfl
  exact ⟨h.accounts.abandon.enter hnew (h.accounts.fresh job (List.mem_append_right _ hblocked))
    henter, Phase.enter (p := { p with blocked := p.blocked.erase job }) hu hat henter⟩

theorem Inv.abandon (h : p.Inv) (hblocked : job ∈ p.blocked) :
    Inv { p with blocked := p.blocked.erase job } := by
  obtain ⟨hu, hat⟩ := h.phase.untouched_of_blocked hblocked
  exact ⟨h.accounts.abandon, phase_untouched hu hat⟩

theorem Inv.start (h : p.Inv) (hstate : p.state = .created) :
    Inv { p with
      state := .running
      workers := List.replicate p.workerCount ⟨.idle, false⟩ } := by
  obtain ⟨hclosing, hitems, hworkers, -⟩ := h.phase.notCalled_of_created hstate
  have hactive : (List.replicate p.workerCount (⟨.idle, false⟩ : Worker)).filterMap
      (fun worker => worker.activity.job) = [] :=
    List.filterMap_replicate_of_none rfl
  have hnone : p.activeJobs = [] := by rw [activeJobs, hworkers]; rfl
  refine ⟨h.accounts.moved rfl rfl rfl (fun x => ?_) ?_, phase_untouched ⟨?_, ?_⟩
    (.inl ⟨hclosing, rfl⟩)⟩
  · rw [hnone, activeJobs, hactive]
    rfl
  · have := h.accounts.unfinished
    rw [hnone] at this
    rw [activeJobs, hactive]
    exact this
  · show none ∉ p.queue.items
    rw [hitems]
    exact List.not_mem_nil
  · intro worker hw
    rw [List.eq_of_mem_replicate hw]
    exact ⟨rfl, rfl⟩

theorem Inv.close (h : p.Inv) (halone : DrainsAlone p .close) (hclose : p.close = some p') :
    p'.Inv := by
  unfold BoundedTaskPool.close at hclose
  split at hclose
  · cases hclose
    exact h
  · rename_i hstate
    cases hclose
    obtain ⟨-, hitems, hworkers, hblocked⟩ := h.phase.notCalled_of_created hstate
    refine ⟨⟨h.accounts.perm, h.accounts.nodup, h.accounts.fresh, h.accounts.unfinished⟩,
      rfl, hblocked, hitems, fun worker hw => ?_⟩
    rw [hworkers] at hw
    cases hw
  · rename_i hstate
    obtain ⟨-, hu⟩ := h.phase.notCalled_of_running hstate
    have haccounts : Accounts { p with state := .draining } :=
      ⟨h.accounts.perm, h.accounts.nodup, h.accounts.fresh, h.accounts.unfinished⟩
    dsimp only at hclose
    split at hclose
    · rename_i hunfinished
      cases hclose
      obtain ⟨hphase, haccounts'⟩ := sendExits_spec
        (p := { p with state := .draining }) (halone hstate hunfinished) haccounts hu rfl
      exact ⟨haccounts', hphase⟩
    · cases hclose
      exact ⟨⟨haccounts.perm, haccounts.nodup, haccounts.fresh, haccounts.unfinished⟩, hu, rfl⟩
  · cases hclose

theorem Phase.joining (h : p.Phase) {released : Bool} (hclosing : p.closing = .joining released) :
    p.Untouched ∧ p.state = .draining := by
  unfold Phase at h
  rw [hclosing] at h
  exact h

theorem Phase.awaiting (h : p.Phase) (hclosing : p.closing = .awaitingWorkers) :
    p.state = .draining ∧ p.blocked = [] ∧ (p.Exiting ∨ p.Cancelling) := by
  unfold Phase at h
  rw [hclosing] at h
  exact h

/-- Once every worker has exited, the queue is empty. -/
theorem Inv.workersDone (h : p.Inv) (hclosing : p.closing = .awaitingWorkers)
    (hexited : p.workers.all (fun worker => !worker.live) = true) :
    Inv { p with state := .closed, closing := .returned } := by
  obtain ⟨-, hblocked, hstop⟩ := h.phase.awaiting hclosing
  have hdead : ∀ worker ∈ p.workers, worker.live = false := fun worker hw => by
    simpa using List.all_eq_true.mp hexited worker hw
  have hitems : p.queue.items = [] := by
    rcases hstop with hexiting | hcancelling
    · rw [hexiting.1, List.countP_eq_zero.mpr fun worker hw => by simp [hdead worker hw]]
      rfl
    · exact hcancelling.1
  exact ⟨⟨h.accounts.perm, h.accounts.nodup, h.accounts.fresh, h.accounts.unfinished⟩,
    rfl, hblocked, hitems, hdead⟩

theorem inv_step (p : BoundedTaskPool) (e : Event) (p' : BoundedTaskPool) (h : p.Inv)
    (halone : p.DrainsAlone e) (hstep : p.step e = some p') : p'.Inv := by
  cases e with
  | start =>
      simp only [step] at hstep
      split at hstep
      · rename_i hstate
        cases hstep
        exact h.start hstate
      · cases hstep
  | submit =>
      cases hstep
      exact h.submit
  | trySubmit =>
      cases hstep
      exact h.trySubmit
  | put job =>
      simp only [step] at hstep
      split at hstep
      · rename_i hblocked
        exact h.put hblocked hstep
      · cases hstep
  | abandon job =>
      simp only [step] at hstep
      split at hstep
      · rename_i hblocked
        cases hstep
        exact h.abandon hblocked
      · cases hstep
  | take index => exact ⟨h.accounts.take hstep, h.phase.take hstep⟩
  | finish index failed => exact ⟨h.accounts.finish hstep, h.phase.finish hstep⟩
  | cancelled index => exact ⟨h.accounts.cancelled hstep, h.phase.cancelled hstep⟩
  | close => exact h.close halone hstep
  | joined =>
      simp only [step] at hstep
      split at hstep
      · rename_i hclosing
        cases hstep
        obtain ⟨hu, hstate⟩ := h.phase.joining hclosing
        obtain ⟨hphase, haccounts⟩ := sendExits_spec halone h.accounts hu hstate
        exact ⟨haccounts, hphase⟩
      · cases hstep
  | timeout =>
      simp only [step] at hstep
      split at hstep
      · rename_i released hclosing
        cases hstep
        exact ⟨h.accounts.cancelAll, cancelAll_phase (h.phase.joining hclosing).2 halone⟩
      · cases hstep
  | workersDone =>
      simp only [step] at hstep
      split at hstep
      · rename_i hdone
        cases hstep
        exact h.workersDone hdone.1 hdone.2
      · cases hstep

/-! ## The end of a close -/

/-- Workers that have not exited. -/
def liveWorkers (p : BoundedTaskPool) : Nat := p.workers.countP Worker.live

theorem liveWorkers_replaced {a b : List Worker} {old new : Worker} (hold : old.live = true)
    (hnew : new.live = false) :
    (a ++ new :: b).countP Worker.live < (a ++ old :: b).countP Worker.live := by
  rw [List.countP_append, List.countP_append, List.countP_cons_of_pos hold,
    List.countP_cons_of_neg (by simp [hnew])]
  omega

theorem taskDone_closing (h : p.closing = .awaitingWorkers) :
    p.taskDone.closing = .awaitingWorkers := by
  unfold taskDone
  dsimp only
  rw [if_neg, h]
  rw [h]
  exact fun hrelease => by cases hrelease.2

/-- While `close` awaits the workers, a worker can go on unless all have exited. -/
theorem Inv.workersGoOn (h : p.Inv) (hclosing : p.closing = .awaitingWorkers) :
    ∃ e p', ByItself e ∧ p.step e = some p' := by
  obtain ⟨-, -, hstop⟩ := h.phase.awaiting hclosing
  by_cases hall : p.workers.all (fun worker => !worker.live) = true
  · exact ⟨.workersDone, _, trivial, if_pos ⟨hclosing, hall⟩⟩
  · rw [Bool.not_eq_true, List.all_eq_false] at hall
    obtain ⟨⟨activity, cancelling⟩, hmem, hlive⟩ := hall
    rw [Bool.not_eq_true, Bool.not_eq_false'] at hlive
    obtain ⟨index, hindex⟩ := List.mem_iff_getElem?.mp hmem
    rcases hstop with hexiting | hcancelling
    · -- an idle worker, and an exit in the queue
      obtain ⟨hjob, hcancelling⟩ := hexiting.2 _ hmem
      dsimp only at hjob hcancelling
      subst hcancelling
      have hpos : 0 < p.workers.countP Worker.live := List.countP_pos_iff.mpr ⟨_, hmem, hlive⟩
      have hitems : p.queue.items ≠ [] := by
        rw [hexiting.1]
        intro hnil
        rw [List.replicate_eq_nil_iff] at hnil
        omega
      obtain ⟨x, queue, hget⟩ := BoundedQueue.get?_isSome hitems
      have hx : x = none := by
        have hmem : x ∈ p.queue.items := by
          rw [(BoundedQueue.get?_eq_some hget).2.1]
          exact List.mem_cons_self
        rw [hexiting.1] at hmem
        exact List.eq_of_mem_replicate hmem
      subst hx
      cases activity with
      | idle =>
          have htake : (p.take index).isSome = true := by
            rw [BoundedTaskPool.take, hindex, hget]
            rfl
          obtain ⟨p', hp'⟩ := Option.isSome_iff_exists.mp htake
          exact ⟨.take index, p', trivial, hp'⟩
      | active job => cases hjob
      | exited => cases hlive
    · have htrue := hcancelling.2 _ hmem
      dsimp only at htrue
      subst htrue
      have hcancelled : (p.cancelled index).isSome = true := by
        rw [BoundedTaskPool.cancelled, hindex]
        cases activity with
        | idle => rfl
        | active job => rfl
        | exited => cases hlive
      obtain ⟨p', hp'⟩ := Option.isSome_iff_exists.mp hcancelled
      exact ⟨.cancelled index, p', trivial, hp'⟩

/-- While `close` awaits the workers, every step of the pool lets one of them exit, or ends it. -/
theorem Inv.workersShrink (h : p.Inv) (hclosing : p.closing = .awaitingWorkers) {e : Event}
    (hmove : OfPool e) (hstep : p.step e = some p') :
    p'.state = .closed ∨ (p'.closing = .awaitingWorkers ∧ p'.liveWorkers < p.liveWorkers) := by
  obtain ⟨-, hblocked, hstop⟩ := h.phase.awaiting hclosing
  cases e with
  | start => exact hmove.elim
  | submit => exact hmove.elim
  | trySubmit => exact hmove.elim
  | close => exact hmove.elim
  | put job =>
      simp only [step, hblocked, List.not_mem_nil, if_false] at hstep
      cases hstep
  | abandon job =>
      simp only [step, hblocked, List.not_mem_nil, if_false] at hstep
      cases hstep
  | joined =>
      simp only [step, hclosing, reduceCtorEq, if_false] at hstep
  | timeout =>
      simp only [step, hclosing] at hstep
      cases hstep
  | workersDone =>
      simp only [step] at hstep
      split at hstep
      · cases hstep
        exact .inl rfl
      · cases hstep
  | finish index failed =>
      obtain ⟨a, b, job, outcome, hworkers, rfl⟩ := finish_cases hstep
      rcases (h.phase.untouched_of_active hworkers).2 with hat | hat
      · rw [hat.1] at hclosing
        cases hclosing
      · obtain ⟨released, hjoining⟩ := hat.1
        rw [hjoining] at hclosing
        cases hclosing
  | take index =>
      obtain ⟨a, b, queue, hworkers, ⟨job, hget, rfl⟩ | ⟨hget, rfl⟩⟩ := take_cases hstep
      · have hmem : some job ∈ p.queue.items := by
          rw [(BoundedQueue.get?_eq_some hget).2.1]
          exact List.mem_cons_self
        rcases hstop with hexiting | hcancelling
        · rw [hexiting.1] at hmem
          cases List.eq_of_mem_replicate hmem
        · rw [hcancelling.1] at hmem
          cases hmem
      · refine .inr ⟨taskDone_closing hclosing, ?_⟩
        unfold liveWorkers
        rw [hworkers]
        exact liveWorkers_replaced rfl rfl
  | cancelled index =>
      obtain ⟨a, b, ⟨hworkers, rfl⟩ | ⟨job, hworkers, rfl⟩⟩ := cancelled_cases hstep
      · refine .inr ⟨hclosing, ?_⟩
        unfold liveWorkers
        rw [hworkers]
        exact liveWorkers_replaced rfl rfl
      · refine .inr ⟨taskDone_closing hclosing, ?_⟩
        unfold liveWorkers
        rw [hworkers]
        exact liveWorkers_replaced rfl rfl

end

/-- While `close` awaits the workers, it comes to the closed pool. -/
theorem Inv.leads {p : BoundedTaskPool} (h : p.Inv) (hclosing : p.closing = .awaitingWorkers) :
    Leads step OfPool ByItself (fun p => p.state = .closed) p := by
  refine leads_of_measure (fun p => p.Inv ∧ p.closing = .awaitingWorkers) liveWorkers
    (fun s hs _ => hs.1.workersGoOn hs.2) (fun s e s' hs _ hmove hstep => ?_) ⟨h, hclosing⟩
  have halone : s.DrainsAlone e := by
    cases e with
    | close => exact hmove.elim
    | joined => simp only [step, hs.2, reduceCtorEq, if_false] at hstep
    | timeout =>
        simp only [step, hs.2] at hstep
        cases hstep
    | _ => trivial
  have hinv := inv_step s e s' hs.1 halone hstep
  rcases hs.1.workersShrink hs.2 hmove hstep with hclosed | ⟨hclosing', hlt⟩
  · exact .inl hclosed
  · exact .inr ⟨⟨hinv, hclosing'⟩, hlt⟩

theorem Phase.closed {p : BoundedTaskPool} (h : p.Phase) (hstate : p.state = .closed) :
    p.queue.items = [] ∧ ∀ worker ∈ p.workers, worker.live = false := by
  unfold Phase at h
  split at h <;> simp_all

theorem Inv.closesCleanly {p : BoundedTaskPool} (h : p.Inv) : p.ClosesCleanly where
  notRaised hraised := by
    have hphase := h.phase
    unfold Phase at hphase
    rw [hraised] at hphase
    exact hphase
  joinEnds released hclosing := ⟨p.cancelAll, by simp only [step, hclosing]⟩
  workersEnd := h.leads
  onlyOnce job := by
    have hcount := (List.perm_iff_count.mp h.accounts.perm) job
    have honce := List.nodup_iff_count_le_one.mp (List.nodup_append.mp h.accounts.nodup).1 job
    rw [List.count_append] at hcount
    refine ⟨by omega, fun hmem => h.accounts.perm.mem_iff.mpr (List.mem_append_right _ hmem)⟩
  settled hstate := by
    obtain ⟨hitems, hdead⟩ := h.phase.closed hstate
    have hqueued : p.queuedJobs = [] := by rw [queuedJobs, hitems]; rfl
    have hactive : p.activeJobs = [] := List.filterMap_eq_nil_iff.mpr fun worker hw => by
      obtain ⟨activity, cancelling⟩ := worker
      cases activity with
      | active job => cases hdead _ hw
      | _ => rfl
    refine ⟨hitems, fun job hjob => ?_⟩
    have hperm := h.accounts.perm
    rw [hqueued, hactive, List.nil_append, List.nil_append] at hperm
    rw [← (List.perm_iff_count.mp hperm) job]
    exact List.count_eq_one_of_mem (List.nodup_append.mp h.accounts.nodup).1 hjob

/-! ## Every run -/

theorem inv_new {workers queueSize : Nat} {p : BoundedTaskPool}
    (h : new workers queueSize = .ok p) : p.Inv := by
  unfold new at h
  split at h
  · cases h
  · split at h
    · cases h
    · cases h
      refine ⟨⟨List.Perm.refl _, List.nodup_nil, fun job hjob => (by cases hjob), rfl⟩,
        ⟨List.not_mem_nil, fun worker hw => (by cases hw)⟩, .inr ⟨rfl, rfl, rfl, rfl⟩⟩

/-- A pool closes cleanly in every run in which `close` drains its queue alone. -/
theorem closesCleanly_of_run (workers queueSize : Nat) (p p' : BoundedTaskPool)
    (es : List Event) (hnew : new workers queueSize = .ok p) (hrun : runFrom step p es = some p')
    (halone : AllSteps step DrainsAlone p es) : p'.ClosesCleanly :=
  (runFrom_inv_of_allSteps Inv DrainsAlone (fun s e s' hs hok hstep => inv_step s e s' hs hok hstep)
    halone (inv_new hnew) hrun).closesCleanly

instance (p : BoundedTaskPool) : Decidable p.RoomForExits := inferInstanceAs (Decidable (_ ∧ _ ∧ _))

instance (p : BoundedTaskPool) : ∀ e, Decidable (p.DrainsAlone e)
  | .close => inferInstanceAs (Decidable (_ → _ → p.RoomForExits))
  | .joined => inferInstanceAs (Decidable p.RoomForExits)
  | .timeout => inferInstanceAs (Decidable (p.blocked = []))
  | .start | .submit | .trySubmit | .put _ | .abandon _ | .take _ | .finish _ _ | .cancelled _
  | .workersDone => inferInstanceAs (Decidable True)

/-- Two workers; a submitter waits for a slot and gets it, one job fails and one is cancelled. -/
def closingRun : List Event :=
  [.start, .submit, .submit, .take 0, .submit, .submit, .take 1, .put 3, .close, .finish 1 true,
    .take 1, .finish 1 false, .timeout, .cancelled 1, .cancelled 0, .workersDone]

theorem closesCleanly_of_run_closingRun : ∃ p p', new 2 2 = .ok p ∧
    runFrom step p closingRun = some p' ∧ p'.state = .closed ∧ p'.ClosesCleanly := by
  refine ⟨⟨2, .empty 2, [], .created, .notCalled, [], 0, [], []⟩, ?_⟩
  have hrun : ((runFrom step ⟨2, .empty 2, [], .created, .notCalled, [], 0, [], []⟩ closingRun).any
      fun p' => decide (p'.state = .closed)) = true := by decide +kernel
  obtain ⟨p', hp', hclosed⟩ := (Option.any_eq_true _ _).mp hrun
  exact ⟨p', rfl, hp', of_decide_eq_true hclosed,
    closesCleanly_of_run 2 2 _ p' closingRun rfl hp' (AllSteps.of_check (by decide +kernel))⟩

/-- One worker and one slot: a submitter that waits when the timeout is over gets its slot then. -/
def blockedSubmitterRun : List Event :=
  [.start, .submit, .take 0, .submit, .submit, .close, .timeout, .put 2, .cancelled 0, .workersDone]

/-- Two workers share one slot: the second exit finds the queue full, and `close` raises. And the
job of a submitter that was waiting is left in the queue of a closed pool. -/
theorem not_closesCleanly_fullQueue :
    (∃ p p', new 2 1 = .ok p ∧ runFrom step p [.start, .close] = some p' ∧ ¬ p'.ClosesCleanly) ∧
      ∃ p p', new 1 1 = .ok p ∧ runFrom step p blockedSubmitterRun = some p' ∧
        ¬ p'.ClosesCleanly := by
  constructor
  · refine ⟨⟨2, .empty 1, [], .created, .notCalled, [], 0, [], []⟩, ?_⟩
    have hrun : ((runFrom step ⟨2, .empty 1, [], .created, .notCalled, [], 0, [], []⟩
        [.start, .close]).any fun p' => decide (p'.closing = .raised)) = true := by decide +kernel
    obtain ⟨p', hp', hraised⟩ := (Option.any_eq_true _ _).mp hrun
    exact ⟨p', rfl, hp', fun hclean => hclean.notRaised (of_decide_eq_true hraised)⟩
  · refine ⟨⟨1, .empty 1, [], .created, .notCalled, [], 0, [], []⟩, ?_⟩
    have hrun : ((runFrom step ⟨1, .empty 1, [], .created, .notCalled, [], 0, [], []⟩
        blockedSubmitterRun).any fun p' => decide (p'.state = .closed ∧
          p'.queue.items = [some 2])) = true := by decide +kernel
    obtain ⟨p', hp', hleft⟩ := (Option.any_eq_true _ _).mp hrun
    obtain ⟨hclosed, hitems⟩ := of_decide_eq_true hleft
    refine ⟨p', rfl, hp', fun hclean => ?_⟩
    have hempty := (hclean.settled hclosed).1
    rw [hitems] at hempty
    cases hempty

end BoundedTaskPool

end BrandSniper.TaskSupervisor
