import BrandSniper.Listener.GracefulShutdown

/-!
# The shutdown completes

Once the engine has been told to stop, or an exception has cancelled its
tasks, it comes to rest, however its tasks are scheduled and whatever fails:
until then one of them can go on, and all that they do uses up a measure.
-/

namespace BrandSniper

open Kit

/-- How far a consumer is from its end, while it takes no further item. -/
def ConsumerTask.ahead (buffered : Bool) : ConsumerTask → Nat
  | .ended _ => 0
  | .flushing (.last _) => 1
  | .waiting => if buffered then 4 else 2
  | .flushing _ => 3
  | .handling _ => 5

def EngineTask.ahead : EngineTask → Nat
  | .running => 4
  | .stoppingProducers => 3
  | .joining => 2
  | .awaitingConsumer => 1
  | .drained | .timedOut | .aborted => 0

def Producer.isLive : Producer → Bool
  | .ended _ => false
  | _ => true

/-- What other tasks do is no move of the engine. -/
def EngineEvent.OfEngine {C : Type} : EngineEvent C → Prop
  | .reload _ => False
  | _ => True

/-- What waits neither for a feed, for records to be due or for the drain's time to run out, nor for
an exception of another task. -/
def EngineEvent.ByItself {C : Type} : EngineEvent C → Prop
  | .yields .. | .puts _ | .due _ | .reload _ | .signal | .timeout | .abort => False
  | _ => True

namespace Engine

variable {C : Type}

/-- All tasks have ended. -/
def Stopped (e : Engine C) : Prop :=
  e.allStopped = true ∧ (∃ failed, e.consumer = .ended failed) ∧
    (e.task = .drained ∨ e.task = .timedOut ∨ e.task = .aborted)

def consumerAhead (e : Engine C) : Nat := e.consumer.ahead (!e.buffers.isEmpty)

/-- What its tasks have still to do; an item that is taken is handled, and its records written. -/
def ahead (e : Engine C) : Nat :=
  4 * e.queue.items.length + e.consumerAhead + 5 * e.task.ahead
    + e.producers.countP Producer.isLive

section
variable {S : EngineSettings} {e e' : Engine C}

theorem consumerAhead_leave (e : Engine C) (failed : Bool) :
    (e.leave failed).consumerAhead ≤ 1 := by
  unfold consumerAhead leave
  cases e.buffers.isEmpty with
  | true => exact Nat.zero_le 1
  | false => exact le_rfl

theorem consumerAhead_next_le (e : Engine C) : e.next.consumerAhead ≤ 4 := by
  show ConsumerTask.ahead (!e.buffers.isEmpty) .waiting ≤ 4
  cases e.buffers.isEmpty with
  | true => exact (by decide : 2 ≤ 4)
  | false => exact (by decide : 4 ≤ 4)

theorem le_consumerAhead_waiting (h : e.consumer = .waiting) : 2 ≤ e.consumerAhead := by
  unfold consumerAhead
  rw [h]
  cases e.buffers.isEmpty with
  | true => exact (by decide : 2 ≤ 2)
  | false => exact (by decide : 2 ≤ 4)

/-- A step of the consumer leaves the other tasks alone. -/
theorem ahead_lt_of_consumer (hqueue : e'.queue.items = e.queue.items) (htask : e'.task = e.task)
    (hproducers : e'.producers = e.producers) (hconsumer : e'.consumerAhead < e.consumerAhead) :
    e'.ahead < e.ahead := by
  unfold ahead
  rw [hqueue, htask, hproducers]
  omega

/-- A step of the engine's task leaves the others alone. -/
theorem ahead_lt_of_task {task : EngineTask} (h : task.ahead < e.task.ahead) :
    ({ e with task := task }).ahead < e.ahead := by
  show 4 * e.queue.items.length + e.consumerAhead + 5 * task.ahead
    + e.producers.countP Producer.isLive < e.ahead
  unfold ahead
  omega

theorem ahead_stops {i : Nat} {producer : Producer} (hi : e.producers[i]? = some producer)
    (hlive : producer.isLive = true) (dropped : Option StreamItem) :
    ({ e with producers := e.producers.set i (.ended dropped) }).ahead < e.ahead := by
  have hlt : i < e.producers.length := (List.getElem?_eq_some_iff.mp hi).1
  have hcount : (e.producers.set i (.ended dropped)).countP Producer.isLive
      = e.producers.countP Producer.isLive - 1 := by
    rw [List.countP_set hlt, (List.getElem?_eq_some_iff.mp hi).2, if_pos hlive]
    rfl
  have hpos : 0 < e.producers.countP Producer.isLive :=
    List.countP_pos_iff.mpr ⟨producer, List.mem_of_getElem? hi, hlive⟩
  show 4 * e.queue.items.length + e.consumerAhead + 5 * e.task.ahead
    + (e.producers.set i (.ended dropped)).countP Producer.isLive < e.ahead
  rw [hcount]
  unfold ahead
  omega

/-- The consumer takes an item, and is nearer to its end. -/
theorem ahead_take (hwaiting : e.consumer = .waiting) {item : Option StreamItem}
    (hitems : e.queue.items = item :: e'.queue.items) (htask : e'.task = e.task)
    (hproducers : e'.producers = e.producers) (hconsumer : e'.consumerAhead ≤ 5) :
    e'.ahead < e.ahead := by
  have hahead := le_consumerAhead_waiting hwaiting
  unfold ahead
  rw [htask, hproducers, hitems, List.length_cons]
  omega

/-- The last item is put, and the engine awaits the consumer. -/
theorem ahead_joined (hjoining : e.task = .joining) {queue : BoundedQueue (Option StreamItem)}
    (hput : e.queue.put? none = some queue) :
    ({ e with queue := queue, task := .awaitingConsumer }).ahead < e.ahead := by
  obtain ⟨-, hitems, -⟩ := BoundedQueue.put?_eq_some hput
  show 4 * queue.items.length + e.consumerAhead + 5 * EngineTask.awaitingConsumer.ahead
    + e.producers.countP Producer.isLive < e.ahead
  unfold ahead
  rw [hjoining, hitems, List.length_append, List.length_singleton]
  simp only [EngineTask.ahead]
  omega

section
variable [EdgeCache C]

theorem ahead_handle {item : StreamItem} (hhandling : e.consumer = .handling item) (faults : Faults)
    (bufferedAt now : ℚ) : (e.handle S item faults bufferedAt now).ahead < e.ahead := by
  have hahead : e.consumerAhead = 5 := by rw [consumerAhead, hhandling]; rfl
  unfold Engine.handle
  dsimp only
  split
  · refine ahead_lt_of_consumer rfl rfl rfl ?_
    rw [hahead]
    exact Nat.lt_succ_of_le (consumerAhead_next_le _)
  · split
    · refine ahead_lt_of_consumer rfl rfl rfl ?_
      rw [hahead]
      exact (by decide : 3 < 5)
    · refine ahead_lt_of_consumer rfl rfl rfl ?_
      rw [hahead]
      exact Nat.lt_succ_of_le (consumerAhead_next_le _)

end

theorem ahead_raise {reason : FlushReason} (hflushing : e.consumer = .flushing reason) :
    (e.raise reason).ahead < e.ahead := by
  have hahead : e.consumerAhead = (ConsumerTask.flushing reason).ahead (!e.buffers.isEmpty) := by
    rw [consumerAhead, hflushing]
  cases reason with
  | due =>
      refine ahead_lt_of_consumer rfl rfl rfl ?_
      rw [hahead]
      exact lt_of_le_of_lt (consumerAhead_leave e true) (by decide : 1 < 3)
  | item =>
      refine ahead_lt_of_consumer rfl rfl rfl ?_
      rw [hahead]
      exact lt_of_le_of_lt (consumerAhead_leave e.taskDone true) (by decide : 1 < 3)
  | last failed =>
      refine ahead_lt_of_consumer rfl rfl rfl ?_
      rw [hahead]
      exact Nat.one_pos

theorem ahead_flushed {reason : FlushReason} (hflushing : e.consumer = .flushing reason)
    (outcome : FlushOutcome) : (e.flushed reason outcome).ahead < e.ahead := by
  have hahead : e.consumerAhead = (ConsumerTask.flushing reason).ahead (!e.buffers.isEmpty) := by
    rw [consumerAhead, hflushing]
  have hcleared : e.cleared.ahead = e.ahead := by
    show 4 * e.queue.items.length + e.consumer.ahead (!RecordBuffers.empty.isEmpty)
      + 5 * e.task.ahead + e.producers.countP Producer.isLive = e.ahead
    unfold ahead
    rw [hahead, hflushing]
    cases reason <;> rfl
  cases outcome with
  | failed => exact ahead_raise hflushing
  | unscheduled => exact hcleared ▸ @ahead_raise C e.cleared reason hflushing
  | stored =>
      cases reason with
      | due =>
          refine ahead_lt_of_consumer rfl rfl rfl ?_
          rw [hahead]
          exact (by decide : 2 < 3)
      | item =>
          refine ahead_lt_of_consumer rfl rfl rfl ?_
          rw [hahead]
          exact (by decide : 2 < 3)
      | last failed =>
          refine ahead_lt_of_consumer rfl rfl rfl ?_
          rw [hahead]
          exact Nat.one_pos

theorem ahead_interrupt {recorded : Bool} (h : e.interrupt recorded = some e') :
    e'.ahead < e.ahead := by
  unfold Engine.interrupt at h
  split at h
  · rename_i hwaiting
    cases h
    exact ahead_lt_of_consumer rfl rfl rfl
      (lt_of_le_of_lt (consumerAhead_leave e true) (le_consumerAhead_waiting hwaiting))
  · rename_i item hhandling
    cases h
    refine ahead_lt_of_consumer rfl rfl rfl (lt_of_le_of_lt (consumerAhead_leave _ true) ?_)
    rw [consumerAhead, hhandling]
    exact (by decide : 1 < 5)
  · cases h

theorem task_flushed (e : Engine C) (reason : FlushReason) (outcome : FlushOutcome) :
    (e.flushed reason outcome).task = e.task := by
  cases outcome <;> cases reason <;> rfl

theorem task_interrupt {recorded : Bool} (h : e.interrupt recorded = some e') :
    e'.task = e.task := by
  unfold Engine.interrupt at h
  split at h <;> cases h <;> rfl

section
variable [EdgeCache C] {event : EngineEvent C}

theorem task_handle (e : Engine C) (item : StreamItem) (faults : Faults) (bufferedAt now : ℚ) :
    (e.handle S item faults bufferedAt now).task = e.task := by
  unfold Engine.handle
  dsimp only
  split
  · rfl
  · split <;> rfl

/-- The engine does not start again. -/
theorem task_step_ne_running (hstops : e.task ≠ .running) (hstep : e.step S event = some e') :
    e'.task ≠ .running := by
  cases step_cases hstep with
  | yields _ hrunning => exact absurd hrunning hstops
  | puts _ hrunning _ => exact absurd hrunning hstops
  | signal hrunning => exact absurd hrunning hstops
  | handle _ =>
      rw [task_handle]
      exact hstops
  | flushed _ =>
      rw [task_flushed]
      exact hstops
  | interrupt _ hinterrupt =>
      rw [task_interrupt hinterrupt]
      exact hstops
  | producersDone _ _ | joined _ _ _ | timeout _ | consumerDone _ _ | consumerFailed _ _
  | abort _ _ =>
      exact fun htask => by cases htask
  | _ => exact hstops

/-- The queue keeps its size. -/
theorem maxsize_step (hstep : e.step S event = some e') :
    e'.queue.maxsize = e.queue.maxsize := by
  cases step_cases hstep with
  | @yields i item _ _ =>
      unfold Engine.yields Engine.put?
      dsimp only
      cases hput : e.queue.put? (some item) with
      | none => rfl
      | some queue => exact (BoundedQueue.put?_eq_some hput).1
  | puts _ _ hput =>
      obtain ⟨queue, hqueue, rfl⟩ := Option.map_eq_some_iff.mp hput
      exact (BoundedQueue.put?_eq_some hqueue).1
  | take _ hget => exact (BoundedQueue.get?_eq_some hget).1
  | takeLast _ hget => exact (BoundedQueue.get?_eq_some hget).1
  | handle _ =>
      unfold Engine.handle
      dsimp only
      split
      · rfl
      · split <;> rfl
  | @flushed outcome reason _ => cases outcome <;> cases reason <;> rfl
  | interrupt _ hinterrupt =>
      unfold Engine.interrupt at hinterrupt
      split at hinterrupt <;> cases hinterrupt <;> rfl
  | joined _ _ hput => exact (BoundedQueue.put?_eq_some hput).1
  | _ => rfl

omit [EdgeCache C] in
/-- An exception that cancels the tasks is the end of the engine's own. -/
theorem ahead_aborted (hdrained : e.task ≠ .drained) (hcancelled : e.cancelled = false) :
    ({ e with task := .aborted }).ahead < e.ahead := by
  refine ahead_lt_of_task ?_
  unfold cancelled at hcancelled
  revert hdrained hcancelled
  cases e.task <;> decide

/-- Whatever is done once the engine stops, less is left to do. -/
theorem Inv.ahead_step (h : e.Inv S) (hstops : e.task ≠ .running) (hmove : event.OfEngine)
    (hstep : e.step S event = some e') : e'.ahead < e.ahead := by
  cases step_cases hstep with
  | yields _ hrunning => exact absurd hrunning hstops
  | puts _ hrunning _ => exact absurd hrunning hstops
  | stopsReading hi => exact ahead_stops hi rfl none
  | stopsPutting hi _ => exact ahead_stops hi rfl _
  | take hwaiting hget =>
      exact ahead_take hwaiting (BoundedQueue.get?_eq_some hget).2.1 rfl rfl le_rfl
  | takeLast hwaiting hget =>
      exact ahead_take hwaiting (BoundedQueue.get?_eq_some hget).2.1 rfl rfl
        ((consumerAhead_leave _ false).trans (by decide))
  | due hwaiting holdest =>
      refine ahead_lt_of_consumer rfl rfl rfl ?_
      rw [consumerAhead, consumerAhead, hwaiting,
        h.buffered.nonempty_of_oldest hwaiting holdest]
      exact (by decide : 3 < 4)
  | handle hhandling => exact ahead_handle hhandling _ _ _
  | flushed hflushing => exact ahead_flushed hflushing _
  | interrupt _ hinterrupt => exact ahead_interrupt hinterrupt
  | reload => exact hmove.elim
  | signal hrunning => exact absurd hrunning hstops
  | producersDone hstopping _ => exact ahead_lt_of_task (by rw [hstopping]; decide)
  | joined hjoining _ hput => exact ahead_joined hjoining hput
  | timeout hjoining => exact ahead_lt_of_task (by rw [hjoining]; decide)
  | consumerDone _ hawaiting => exact ahead_lt_of_task (by rw [hawaiting]; decide)
  | consumerFailed hdrained hcancelled => exact ahead_aborted hdrained hcancelled
  | abort hdrained hcancelled => exact ahead_aborted hdrained hcancelled

/-- The cancellation reaches a consumer that waits for an item. -/
theorem step_interrupt (htask : e.task = .timedOut ∨ e.task = .aborted)
    (hwaiting : e.consumer = .waiting) (recorded : Bool) :
    e.step S (.interrupt recorded) = some (e.leave true) := by
  have hcancelled : e.cancelled = true := decide_eq_true htask
  rw [Engine.step, if_pos hcancelled, Engine.interrupt, hwaiting]

/-- A consumer that waits while the queue is drained gets an item, or the queue is drained. -/
theorem Inv.goesOn_joining (h : e.Inv S) (hroom : 0 < e.queue.maxsize)
    (hwaiting : e.consumer = .waiting) (hjoining : e.task = .joining) :
    ∃ event e', event.ByItself ∧ e.step S event = some e' := by
  cases hitems : e.queue.items with
  | nil =>
      have hunfinished : e.queue.unfinished = 0 := by
        rw [h.flows.flows.unfinished, hitems, hwaiting]
        rfl
      cases hput : e.queue.put? none with
      | none =>
          have hfull := BoundedQueue.put?_eq_none.mp hput
          rw [hitems, List.length_nil] at hfull
          omega
      | some queue =>
          refine ⟨.joined, { e with queue := queue, task := .awaitingConsumer }, trivial, ?_⟩
          rw [Engine.step, if_pos ⟨hjoining, hunfinished⟩, hput, Option.map_some]
  | cons item rest =>
      have hget : e.queue.get? = some (item, e.queue.tail) := by
        rw [BoundedQueue.get?, hitems]
        rfl
      cases item with
      | none =>
          refine ⟨.take, ({ e with queue := e.queue.tail }).taskDone.leave false, trivial, ?_⟩
          simp only [Engine.step, hwaiting, hget]
      | some item =>
          refine ⟨.take, { e with queue := e.queue.tail, consumer := .handling item }, trivial, ?_⟩
          simp only [Engine.step, hwaiting, hget]

/-- A consumer that has ended with an exception ends the engine's task. -/
theorem goesOn_consumerFailed (hended : e.consumer = .ended true) (hdrained : e.task ≠ .drained)
    (hcancelled : e.cancelled = false) : ∃ event e', event.ByItself ∧ e.step S event = some e' := by
  refine ⟨.consumerFailed, { e with task := .aborted }, trivial, ?_⟩
  have hnot : ¬ (e.task = .drained ∨ e.cancelled = true) := by
    rw [hcancelled]
    simp [hdrained]
  simp only [Engine.step, hended]
  rw [if_neg hnot]

/-- Until it has come to rest, the engine goes on by itself. -/
theorem Inv.goesOn (h : e.Inv S) (hroom : 0 < e.queue.maxsize) (hstops : e.task ≠ .running)
    (hgoal : ¬ e.Stopped) : ∃ event e', event.ByItself ∧ e.step S event = some e' := by
  by_cases hall : e.allStopped = true
  · cases hconsumer : e.consumer with
    | handling item =>
        refine ⟨.handle .none 0 0, e.handle S item .none 0 0, trivial, ?_⟩
        simp only [Engine.step, hconsumer]
    | flushing reason =>
        refine ⟨.flushed .stored, e.flushed reason .stored, trivial, ?_⟩
        simp only [Engine.step, hconsumer]
    | waiting =>
        cases htask : e.task with
        | running => exact absurd htask hstops
        | stoppingProducers =>
            exact ⟨.producersDone, _, trivial, by rw [Engine.step, if_pos ⟨htask, hall⟩]⟩
        | joining => exact h.goesOn_joining hroom hconsumer htask
        | awaitingConsumer =>
            -- The last item is in the queue, or the consumer has left.
            rcases h.flows.lastPut htask with hleft | hitems
            · rw [hconsumer] at hleft
              cases hleft
            · refine ⟨.take, ({ e with queue := e.queue.tail }).taskDone.leave false, trivial, ?_⟩
              have hget : e.queue.get? = some (none, e.queue.tail) := by
                rw [BoundedQueue.get?, hitems]
                rfl
              simp only [Engine.step, hconsumer, hget]
        | drained =>
            have hended := h.flows.drained htask
            rw [hconsumer] at hended
            cases hended
        | timedOut =>
            refine ⟨.interrupt false, e.leave true, trivial, ?_⟩
            exact step_interrupt (.inl htask) hconsumer false
        | aborted =>
            refine ⟨.interrupt false, e.leave true, trivial, ?_⟩
            exact step_interrupt (.inr htask) hconsumer false
    | ended failed =>
        cases htask : e.task with
        | running => exact absurd htask hstops
        | stoppingProducers =>
            exact ⟨.producersDone, _, trivial, by rw [Engine.step, if_pos ⟨htask, hall⟩]⟩
        | joining =>
            -- The consumer gets no last item before the queue is drained.
            cases failed with
            | true =>
                refine goesOn_consumerFailed hconsumer ?_ ?_
                · rw [htask]
                  decide
                · rw [cancelled, htask]
                  decide
            | false =>
                have hlate := (h.flows.leftCleanly (by rw [hconsumer]; rfl)).2
                rw [htask] at hlate
                rcases hlate with hlate | hlate | hlate <;> cases hlate
        | awaitingConsumer =>
            cases failed with
            | true =>
                refine goesOn_consumerFailed hconsumer ?_ ?_
                · rw [htask]
                  decide
                · rw [cancelled, htask]
                  decide
            | false =>
                refine ⟨.consumerDone, { e with task := .drained }, trivial, ?_⟩
                simp only [Engine.step, hconsumer]
                rw [if_pos htask]
        | drained => exact absurd ⟨hall, ⟨failed, hconsumer⟩, .inl htask⟩ hgoal
        | timedOut => exact absurd ⟨hall, ⟨failed, hconsumer⟩, .inr (.inl htask)⟩ hgoal
        | aborted => exact absurd ⟨hall, ⟨failed, hconsumer⟩, .inr (.inr htask)⟩ hgoal
  · obtain ⟨producer, hproducer, hlive⟩ : ∃ producer ∈ e.producers, producer.isLive = true := by
      by_contra hnone
      refine hall (List.all_eq_true.mpr fun producer hproducer => ?_)
      cases hended : producer with
      | ended dropped => rfl
      | reading => exact absurd ⟨producer, hproducer, by rw [hended]; rfl⟩ hnone
      | putting item => exact absurd ⟨producer, hproducer, by rw [hended]; rfl⟩ hnone
    obtain ⟨i, hi⟩ := List.mem_iff_getElem?.mp hproducer
    cases producer with
    | reading =>
        refine ⟨.stops i, { e with producers := e.producers.set i (.ended none) }, trivial, ?_⟩
        simp only [Engine.step, hi]
    | putting item =>
        refine ⟨.stops i, { e with producers := e.producers.set i (.ended (some item)) }, trivial, ?_⟩
        simp only [Engine.step, hi, if_neg hstops]
    | ended dropped => cases hlive

variable {maxsize producers : Nat} {cache : C} {events : List (EngineEvent C)}

/-- Once it has been told to stop, or an exception has cancelled its tasks, the engine comes to
rest. -/
theorem comesToRest_of_run (hsize : 0 < maxsize)
    (h : runFrom (step S) (start maxsize producers cache) events = some e)
    (hstops : e.task ≠ .running) :
    Leads (step S) EngineEvent.OfEngine EngineEvent.ByItself Stopped e := by
  have hroom : 0 < e.queue.maxsize := by
    refine runFrom_inv (fun e : Engine C => 0 < e.queue.maxsize) (fun s event s' hs hstep => ?_)
      hsize h
    rw [maxsize_step hstep]
    exact hs
  refine leads_of_measure (fun e => e.Inv S ∧ 0 < e.queue.maxsize ∧ e.task ≠ .running) ahead
    (fun s hs hgoal => hs.1.goesOn hs.2.1 hs.2.2 hgoal)
    (fun s event s' hs _ hmove hstep => .inr ?_) ⟨inv_of_run h, hroom, hstops⟩
  obtain ⟨hinv, hsroom, hsstops⟩ := hs
  refine ⟨⟨hinv.step hstep, ?_, task_step_ne_running hsstops hstep⟩,
    hinv.ahead_step hsstops hmove hstep⟩
  rw [maxsize_step hstep]
  exact hsroom

end

end

theorem comesToRest_of_run_signalled : ∃ e,
    runFrom (step settings) (start 1 2 EdgeRedis.empty) (drainedRun.take 9) = some e ∧
      e.task = .stoppingProducers ∧
      Leads (step settings) EngineEvent.OfEngine EngineEvent.ByItself Stopped e := by
  have hrun : ∃ e, runFrom (step settings) (start 1 2 EdgeRedis.empty) (drainedRun.take 9) = some e ∧
      decide (e.task = .stoppingProducers) = true := (Option.any_eq_true _ _).mp (by decide +kernel)
  obtain ⟨e, he, htask⟩ := hrun
  have hstopping := of_decide_eq_true htask
  exact ⟨e, he, hstopping, comesToRest_of_run (by decide) he (by rw [hstopping]; decide)⟩

end Engine

end BrandSniper
