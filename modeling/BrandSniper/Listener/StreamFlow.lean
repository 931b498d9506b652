import BrandSniper.Listener.StreamEngine

/-!
# The flow of items

What a step of the stream engine does with the items its producers read: the
queue passes them on in order and once, `task_done` is called once for each,
and the last item is put after all others and taken after them (`Flows`).
-/

namespace BrandSniper

open Kit

/-- An item that the producer has read and not put. -/
def Producer.pending : Producer → List StreamItem
  | .putting item => [item]
  | .ended (some item) => [item]
  | _ => []

namespace ConsumerTask

/-- The item it has taken and not handled. -/
def inHand : ConsumerTask → List StreamItem
  | .handling item => [item]
  | _ => []

/-- How many calls of `task_done` it still owes the queue. -/
def owed : ConsumerTask → Nat
  | .handling _ | .flushing .item => 1
  | _ => 0

/-- Its loop has ended. -/
def left : ConsumerTask → Bool
  | .flushing (.last _) | .ended _ => true
  | _ => false

/-- Its loop has ended after the last item, and no flush has failed since. -/
def leftCleanly : ConsumerTask → Bool
  | .flushing (.last false) | .ended false => true
  | _ => false

theorem left_of_leftCleanly {consumer : ConsumerTask} (h : consumer.leftCleanly = true) :
    consumer.left = true := by
  unfold leftCleanly at h
  split at h
  · rfl
  · rfl
  · cases h

end ConsumerTask

/-- Before the queue was drained or the consumer cancelled. -/
def EngineTask.early : EngineTask → Bool
  | .running | .stoppingProducers | .joining => true
  | _ => false

namespace Engine

variable {C : Type}

/-! ## The flow of items -/

def ofProducer (i : Nat) (items : List (Nat × StreamItem)) : List StreamItem :=
  (items.filter fun item => item.1 = i).map Prod.snd

/-- The item in hand at a cancellation. -/
def cut (e : Engine C) : List StreamItem := e.interrupted.toList.map Prod.fst

/-- What each producer has read is in the queue's hands, all but at most its last item. -/
def Reads (e : Engine C) : Prop :=
  ∀ i producer, e.producers[i]? = some producer →
    ofProducer i e.yielded = ofProducer i e.accepted ++ producer.pending

/-- The queue passes the items on in order, with these in the consumer's hands, and these calls of
`task_done` to come. -/
structure FlowsAt (e : Engine C) (inHand : List StreamItem) (owed : Nat) : Prop where
  order : e.accepted.map Prod.snd
    = e.handled.map HandledItem.item ++ inHand ++ e.cut ++ e.queue.items.filterMap id
  unfinished : e.queue.unfinished = e.queue.items.length + owed
  /-- There is no last item before the queue was drained. -/
  open_ : none ∈ e.queue.items → e.task = .awaitingConsumer ∨ e.task = .aborted
  last : none ∈ e.queue.items → e.queue.items = [none]
  stopped : e.task ≠ .running → e.task ≠ .stoppingProducers → e.task ≠ .aborted →
    e.allStopped = true

structure Flows (e : Engine C) : Prop where
  reads : e.Reads
  flows : e.FlowsAt e.consumer.inHand e.consumer.owed
  leftCleanly : e.consumer.leftCleanly = true → e.queue.items = [] ∧
    (e.task = .awaitingConsumer ∨ e.task = .drained ∨ e.task = .aborted)
  drained : e.task = .drained → e.consumer = .ended false
  interrupted : e.interrupted = none ∨
    e.consumer.left = true ∧ (e.task = .timedOut ∨ e.task = .aborted)
  lastPut : e.task = .awaitingConsumer → e.consumer.left = true ∨ e.queue.items = [none]

theorem ofProducer_concat (i j : Nat) (items : List (Nat × StreamItem)) (item : StreamItem) :
    ofProducer i (items ++ [(j, item)])
      = if j = i then ofProducer i items ++ [item] else ofProducer i items := by
  unfold ofProducer
  rw [List.filter_append, List.map_append]
  by_cases h : j = i <;> simp [h]

section
variable {e e' : Engine C} {inHand : List StreamItem} {owed : Nat}

/-! ### Producers -/

/-- One producer goes on, with what it reads and puts. -/
theorem Reads.set (h : e.Reads) {i : Nat} {old new : Producer} (hold : e.producers[i]? = some old)
    {yielded accepted : List (Nat × StreamItem)}
    (hothers : ∀ j, j ≠ i → ofProducer j yielded = ofProducer j e.yielded ∧
      ofProducer j accepted = ofProducer j e.accepted)
    (hnew : ofProducer i yielded = ofProducer i accepted ++ new.pending) :
    ({ e with
        producers := e.producers.set i new, yielded := yielded, accepted := accepted }).Reads := by
  intro j producer hj
  dsimp only at hj ⊢
  by_cases hij : i = j
  · subst hij
    rw [List.getElem?_set_self', hold] at hj
    obtain rfl : new = producer := Option.some.inj hj
    exact hnew
  · rw [List.getElem?_set_ne hij] at hj
    obtain ⟨hyielded, haccepted⟩ := hothers j (Ne.symm hij)
    rw [hyielded, haccepted]
    exact h j producer hj

theorem ofProducer_concat_ne {i j : Nat} (h : j ≠ i) (items : List (Nat × StreamItem))
    (item : StreamItem) : ofProducer j (items ++ [(i, item)]) = ofProducer j items := by
  rw [ofProducer_concat, if_neg (Ne.symm h)]

theorem ofProducer_concat_self (i : Nat) (items : List (Nat × StreamItem)) (item : StreamItem) :
    ofProducer i (items ++ [(i, item)]) = ofProducer i items ++ [item] := by
  rw [ofProducer_concat, if_pos rfl]

theorem allStopped_set (h : e.allStopped = true) (i : Nat) (dropped : Option StreamItem) :
    ({ e with producers := e.producers.set i (.ended dropped) }).allStopped = true := by
  refine List.all_eq_true.mpr fun producer hproducer => ?_
  rcases List.mem_or_eq_of_mem_set hproducer with hmem | rfl
  · exact List.all_eq_true.mp h producer hmem
  · rfl

/-- The queue takes an item of a producer. -/
theorem FlowsAt.put (h : e.FlowsAt inHand owed) {i : Nat} {item : StreamItem}
    (hrunning : e.task = .running) {queue : BoundedQueue (Option StreamItem)}
    (hput : e.queue.put? (some item) = some queue) (producers : List Producer)
    (yielded : List (Nat × StreamItem)) :
    ({ e with
      queue := queue
      producers := producers
      yielded := yielded
      accepted := e.accepted ++ [(i, item)] }).FlowsAt inHand owed := by
  obtain ⟨-, hitems, hunfinished⟩ := BoundedQueue.put?_eq_some hput
  have hnone : none ∉ e.queue.items := fun hmem => by
    rcases h.open_ hmem with htask | htask <;> rw [hrunning] at htask <;> cases htask
  have hnone' : none ∉ queue.items := by
    rw [hitems, List.mem_append, not_or]
    exact ⟨hnone, by simp⟩
  constructor
  · show (e.accepted ++ [(i, item)]).map Prod.snd = _ ++ queue.items.filterMap id
    rw [List.map_append, h.order, hitems, List.filterMap_append]
    exact List.append_assoc _ _ _
  · show queue.unfinished = queue.items.length + owed
    rw [hunfinished, hitems, List.length_append, List.length_singleton, h.unfinished]
    omega
  · exact fun hmem => absurd hmem hnone'
  · exact fun hmem => absurd hmem hnone'
  · exact fun hne => absurd hrunning hne

/-- Before the queue is drained there is no last item, and the consumer has not ended after one. -/
theorem Flows.early (h : e.Flows) (hearly : e.task.early = true) :
    none ∉ e.queue.items ∧ e.consumer.leftCleanly = false ∧ e.interrupted = none := by
  refine ⟨fun hmem => ?_, ?_, ?_⟩
  · rcases h.flows.open_ hmem with htask | htask <;> rw [htask] at hearly <;> cases hearly
  · by_contra hleft
    rcases (h.leftCleanly (Bool.not_eq_false _ ▸ hleft)).2 with htask | htask | htask <;>
      rw [htask] at hearly <;> cases hearly
  · rcases h.interrupted with hnone | ⟨-, htask | htask⟩
    · exact hnone
    · rw [htask] at hearly
      cases hearly
    · rw [htask] at hearly
      cases hearly

theorem Flows.ofRunning (h : e.Flows) (hrunning : e.task = .running)
    (hconsumer : e'.consumer = e.consumer) (htask : e'.task = e.task)
    (hinterrupted : e'.interrupted = e.interrupted) (hreads : e'.Reads)
    (hflows : e'.FlowsAt e.consumer.inHand e.consumer.owed) : e'.Flows := by
  obtain ⟨-, hleft, hnone⟩ := h.early (by rw [hrunning]; rfl)
  refine ⟨hreads, by rw [hconsumer]; exact hflows, fun hcleanly => ?_, fun hdrained => ?_,
    .inl (hinterrupted.trans hnone), fun hawaiting => ?_⟩
  · rw [hconsumer, hleft] at hcleanly
    cases hcleanly
  · rw [htask, hrunning] at hdrained
    cases hdrained
  · rw [htask, hrunning] at hawaiting
    cases hawaiting

theorem Flows.yields (h : e.Flows) {i : Nat} {item : StreamItem}
    (hi : e.producers[i]? = some .reading) (hrunning : e.task = .running) :
    (e.yields i item).Flows := by
  have hread : ofProducer i e.yielded = ofProducer i e.accepted := by
    rw [h.reads i _ hi]
    exact List.append_nil _
  unfold Engine.yields Engine.put?
  dsimp only
  cases hput : e.queue.put? (some item) with
  | none =>
      refine h.ofRunning hrunning rfl rfl rfl
        (h.reads.set hi (fun j hj => ⟨ofProducer_concat_ne hj _ _, rfl⟩) ?_)
        ⟨h.flows.order, h.flows.unfinished, h.flows.open_, h.flows.last,
          fun hne => absurd hrunning hne⟩
      rw [ofProducer_concat_self, hread]
      rfl
  | some queue =>
      rw [Option.map_some, Option.getD_some]
      refine h.ofRunning hrunning rfl rfl rfl
        (h.reads.set hi (fun j hj => ⟨ofProducer_concat_ne hj _ _, ofProducer_concat_ne hj _ _⟩) ?_)
        (h.flows.put hrunning hput _ _)
      rw [ofProducer_concat_self, ofProducer_concat_self, hread]
      exact (List.append_nil _).symm

theorem Flows.puts (h : e.Flows) {i : Nat} {item : StreamItem}
    (hi : e.producers[i]? = some (.putting item)) (hrunning : e.task = .running)
    (hput : e.put? i item = some e') : e'.Flows := by
  obtain ⟨queue, hqueue, rfl⟩ := Option.map_eq_some_iff.mp hput
  refine h.ofRunning hrunning rfl rfl rfl
    (h.reads.set hi (fun j hj => ⟨rfl, ofProducer_concat_ne hj _ _⟩) ?_)
    (h.flows.put hrunning hqueue _ _)
  rw [ofProducer_concat_self, h.reads i _ hi]
  exact (List.append_nil _).symm

theorem Flows.stops (h : e.Flows) {i : Nat} {old : Producer} {dropped : Option StreamItem}
    (hi : e.producers[i]? = some old) (hpending : (Producer.ended dropped).pending = old.pending) :
    ({ e with producers := e.producers.set i (.ended dropped) }).Flows where
  reads := by
    refine h.reads.set hi (fun j hj => ⟨rfl, rfl⟩) ?_
    rw [hpending]
    exact h.reads i old hi
  flows := ⟨h.flows.order, h.flows.unfinished, h.flows.open_, h.flows.last,
    fun h1 h2 h3 => allStopped_set (h.flows.stopped h1 h2 h3) i dropped⟩
  leftCleanly := h.leftCleanly
  drained := h.drained
  interrupted := h.interrupted
  lastPut := h.lastPut

/-! ### The consumer -/

theorem FlowsAt.taskDone (h : e.FlowsAt inHand (owed + 1)) : e.taskDone.FlowsAt inHand owed where
  order := h.order
  unfinished := by
    have := h.unfinished
    show e.queue.unfinished - 1 = e.queue.items.length + owed
    omega
  open_ := h.open_
  last := h.last
  stopped := h.stopped

/-- While the consumer's loop goes on, nothing was cut off and the engine has not drained. -/
theorem Flows.running (h : e.Flows) (hleft : e.consumer.left = false) :
    e.task ≠ .drained ∧ e.interrupted = none ∧ e.cut = [] ∧
      (e.task = .awaitingConsumer → e.queue.items = [none]) := by
  have hnone : e.interrupted = none := by
    rcases h.interrupted with hnone | ⟨hended, -⟩
    · exact hnone
    · rw [hleft] at hended
      cases hended
  refine ⟨fun htask => ?_, hnone, by rw [Engine.cut, hnone]; rfl, fun htask => ?_⟩
  · rw [h.drained htask] at hleft
    cases hleft
  · rcases h.lastPut htask with hended | hitems
    · rw [hleft] at hended
      cases hended
    · exact hitems

/-- The consumer's loop ends. -/
theorem FlowsAt.leave (h : e.FlowsAt [] 0) (hreads : e.Reads) (failed : Bool)
    (hclean : failed = false → e.queue.items = [] ∧
      (e.task = .awaitingConsumer ∨ e.task = .drained ∨ e.task = .aborted))
    (hdrained : e.task ≠ .drained)
    (hinterrupted : e.interrupted = none ∨ e.task = .timedOut ∨ e.task = .aborted) :
    (e.leave failed).Flows := by
  have hflows : (e.leave failed).FlowsAt [] 0 :=
    ⟨h.order, h.unfinished, h.open_, h.last, h.stopped⟩
  have hconsumer : (e.leave failed).consumer.inHand = [] ∧ (e.leave failed).consumer.owed = 0 ∧
      (e.leave failed).consumer.left = true ∧
      ((e.leave failed).consumer.leftCleanly = true → failed = false) := by
    unfold Engine.leave
    cases e.buffers.isEmpty <;> cases failed <;>
      exact ⟨rfl, rfl, rfl, fun h => by first | rfl | cases h⟩
  obtain ⟨hinHand, howed, hleft, hcleanly⟩ := hconsumer
  refine ⟨hreads, ?_, fun hl => hclean (hcleanly hl), fun htask => absurd htask hdrained,
    hinterrupted.imp_right fun htask => ⟨hleft, htask⟩, fun _ => .inl hleft⟩
  rw [hinHand, howed]
  exact hflows

/-- The consumer's loop goes on. -/
theorem FlowsAt.goOn (h : e.FlowsAt e.consumer.inHand e.consumer.owed) (hreads : e.Reads)
    (hleft : e.consumer.left = false) (hdrained : e.task ≠ .drained)
    (hinterrupted : e.interrupted = none)
    (hlast : e.task = .awaitingConsumer → e.queue.items = [none]) : e.Flows where
  reads := hreads
  flows := h
  leftCleanly hcleanly := by
    rw [ConsumerTask.left_of_leftCleanly hcleanly] at hleft
    cases hleft
  drained htask := absurd htask hdrained
  interrupted := .inl hinterrupted
  lastPut htask := .inr (hlast htask)

theorem FlowsAt.next (h : e.FlowsAt [] 0) (hreads : e.Reads) (hdrained : e.task ≠ .drained)
    (hinterrupted : e.interrupted = none)
    (hlast : e.task = .awaitingConsumer → e.queue.items = [none]) : e.next.Flows :=
  FlowsAt.goOn ⟨h.order, h.unfinished, h.open_, h.last, h.stopped⟩ hreads rfl hdrained hinterrupted
    hlast

theorem Flows.take (h : e.Flows) (hwaiting : e.consumer = .waiting) {item : StreamItem}
    {queue : BoundedQueue (Option StreamItem)} (hget : e.queue.get? = some (some item, queue)) :
    ({ e with queue := queue, consumer := .handling item }).Flows := by
  obtain ⟨-, hitems, hunfinished⟩ := BoundedQueue.get?_eq_some hget
  obtain ⟨hdrained, hnone, hcut, hlast⟩ := h.running (by rw [hwaiting]; rfl)
  have hflows := h.flows
  rw [hwaiting] at hflows
  have hmem : none ∈ queue.items → none ∈ e.queue.items := fun hmem => by
    rw [hitems]
    exact List.mem_cons_of_mem _ hmem
  refine FlowsAt.goOn ⟨?_, ?_, fun h' => hflows.open_ (hmem h'), fun h' => ?_, hflows.stopped⟩
    h.reads rfl hdrained hnone fun htask => ?_
  · have horder := hflows.order
    rw [hitems, hcut] at horder
    show _ = _ ++ [item] ++ e.cut ++ queue.items.filterMap id
    rw [horder, hcut]
    simp [ConsumerTask.inHand]
  · show queue.unfinished = queue.items.length + 1
    have := hflows.unfinished
    rw [hitems, List.length_cons] at this
    rw [hunfinished, this]
    rfl
  · have hlast := hflows.last (hmem h')
    rw [hitems] at hlast
    cases hlast
  · have hlast := hlast htask
    rw [hitems] at hlast
    cases hlast

/-- The consumer takes the last item. -/
theorem Flows.takeLast (h : e.Flows) (hwaiting : e.consumer = .waiting)
    {queue : BoundedQueue (Option StreamItem)} (hget : e.queue.get? = some (none, queue)) :
    (({ e with queue := queue }).taskDone.leave false).Flows := by
  obtain ⟨-, hitems, hunfinished⟩ := BoundedQueue.get?_eq_some hget
  obtain ⟨hdrained, hnone, -⟩ := h.running (by rw [hwaiting]; rfl)
  have hflows := h.flows
  rw [hwaiting] at hflows
  have hmem : none ∈ e.queue.items := by
    rw [hitems]
    exact List.mem_cons_self
  have hempty : queue.items = [] := by
    have hlast := hflows.last hmem
    rw [hitems] at hlast
    exact (List.cons.inj hlast).2
  have hone : FlowsAt { e with queue := queue } [] (0 + 1) := by
    refine ⟨?_, ?_, fun h' => ?_, fun h' => ?_, hflows.stopped⟩
    · have horder := hflows.order
      rw [hitems] at horder
      exact horder
    · show queue.unfinished = queue.items.length + 1
      have := hflows.unfinished
      rw [hitems, List.length_cons] at this
      rw [hunfinished, this]
      rfl
    · dsimp only at h'
      rw [hempty] at h'
      cases h'
    · dsimp only at h'
      rw [hempty] at h'
      cases h'
  exact hone.taskDone.leave h.reads false (fun _ => ⟨hempty, (hflows.open_ hmem).imp_right .inr⟩)
    hdrained (.inl hnone)

section
variable [EdgeCache C] {S : EngineSettings}

theorem Flows.handle (h : e.Flows) {item : StreamItem} (hhandling : e.consumer = .handling item)
    (faults : Faults) (bufferedAt now : ℚ) : (e.handle S item faults bufferedAt now).Flows := by
  obtain ⟨hdrained, hnone, hcut, hlast⟩ := h.running (by rw [hhandling]; rfl)
  have hflows := h.flows
  rw [hhandling] at hflows
  unfold Engine.handle
  dsimp only
  generalize isRecorded S.detection faults e.caches item = recorded
  have horder : e.accepted.map Prod.snd
      = (e.handled ++ [HandledItem.mk item faults recorded]).map HandledItem.item ++ [] ++ e.cut
        ++ e.queue.items.filterMap id := by
    rw [hflows.order, hcut, List.map_append]
    simp [ConsumerTask.inHand]
  split
  · exact FlowsAt.next (FlowsAt.taskDone ⟨horder, hflows.unfinished, hflows.open_, hflows.last,
      hflows.stopped⟩) h.reads hdrained hnone hlast
  · split
    · exact FlowsAt.goOn ⟨horder, hflows.unfinished, hflows.open_, hflows.last, hflows.stopped⟩
        h.reads rfl hdrained hnone hlast
    · exact FlowsAt.next (FlowsAt.taskDone ⟨horder, hflows.unfinished, hflows.open_, hflows.last,
        hflows.stopped⟩) h.reads hdrained hnone hlast

end

theorem Flows.raise (h : e.Flows) {reason : FlushReason} (hflushing : e.consumer = .flushing reason) :
    (e.raise reason).Flows := by
  have hflows := h.flows
  rw [hflushing] at hflows
  cases reason with
  | due =>
      obtain ⟨hdrained, hnone, -⟩ := h.running (by rw [hflushing]; rfl)
      exact FlowsAt.leave hflows h.reads true (fun hf => by cases hf) hdrained (.inl hnone)
  | item =>
      obtain ⟨hdrained, hnone, -⟩ := h.running (by rw [hflushing]; rfl)
      exact FlowsAt.leave (FlowsAt.taskDone hflows) h.reads true (fun hf => by cases hf) hdrained
        (.inl hnone)
  | last failed =>
      refine ⟨h.reads, ⟨hflows.order, hflows.unfinished, hflows.open_, hflows.last, hflows.stopped⟩,
        fun hleft => (by cases hleft), fun htask => ?_,
        h.interrupted.imp_right fun hcut => ⟨rfl, hcut.2⟩, fun _ => .inl rfl⟩
      have := h.drained htask
      rw [hflushing] at this
      cases this

theorem Flows.flushed (h : e.Flows) {reason : FlushReason} (hflushing : e.consumer = .flushing reason)
    (outcome : FlushOutcome) : (e.flushed reason outcome).Flows := by
  have hcleared : e.cleared.Flows :=
    ⟨h.reads, ⟨h.flows.order, h.flows.unfinished, h.flows.open_, h.flows.last, h.flows.stopped⟩,
      h.leftCleanly, h.drained, h.interrupted, h.lastPut⟩
  have hflows := h.flows
  rw [hflushing] at hflows
  cases outcome with
  | failed => exact h.raise hflushing
  | unscheduled => exact hcleared.raise hflushing
  | stored =>
      have hnext : FlowsAt { e.cleared with oldestBufferedAt := none }
          (ConsumerTask.flushing reason).inHand (ConsumerTask.flushing reason).owed :=
        ⟨hflows.order, hflows.unfinished, hflows.open_, hflows.last, hflows.stopped⟩
      cases reason with
      | due =>
          obtain ⟨hdrained, hnone, -, hlast⟩ := h.running (by rw [hflushing]; rfl)
          exact FlowsAt.next hnext h.reads hdrained hnone hlast
      | item =>
          obtain ⟨hdrained, hnone, -, hlast⟩ := h.running (by rw [hflushing]; rfl)
          exact FlowsAt.next (FlowsAt.taskDone hnext) h.reads hdrained hnone hlast
      | last failed =>
          refine ⟨h.reads, ⟨hflows.order, hflows.unfinished, hflows.open_, hflows.last,
            hflows.stopped⟩, fun hleft => h.leftCleanly ?_, fun htask => ?_,
            h.interrupted.imp_right fun hcut => ⟨rfl, hcut.2⟩, fun _ => .inl rfl⟩
          · rw [hflushing]
            cases failed <;> first | rfl | cases hleft
          · have := h.drained htask
            rw [hflushing] at this
            cases this

theorem Flows.interrupt (h : e.Flows) (hcancelled : e.cancelled = true) {recorded : Bool}
    (hinterrupt : e.interrupt recorded = some e') : e'.Flows := by
  have htask : e.task = .timedOut ∨ e.task = .aborted := of_decide_eq_true hcancelled
  have hflows := h.flows
  unfold Engine.interrupt at hinterrupt
  split at hinterrupt
  · rename_i hwaiting
    cases hinterrupt
    rw [hwaiting] at hflows
    obtain ⟨hdrained, -⟩ := h.running (by rw [hwaiting]; rfl)
    exact FlowsAt.leave hflows h.reads true (fun hf => by cases hf) hdrained (.inr htask)
  · rename_i item hhandling
    cases hinterrupt
    generalize (recorded && item.hasRecord) = recorded
    rw [hhandling] at hflows
    obtain ⟨hdrained, -, hcut, -⟩ := h.running (by rw [hhandling]; rfl)
    have hone : FlowsAt { e with
        buffers := e.buffers.keep recorded item
        interrupted := some (item, recorded) } [] (0 + 1) := by
      refine ⟨?_, hflows.unfinished, hflows.open_, hflows.last, hflows.stopped⟩
      have horder := hflows.order
      rw [hcut] at horder
      rw [horder]
      simp [ConsumerTask.inHand, Engine.cut]
    exact hone.taskDone.leave h.reads true (fun hf => by cases hf) hdrained (.inr htask)
  · cases hinterrupt

/-! ### The engine's own task -/

/-- The engine's task goes on before the queue was drained. -/
theorem Flows.earlyTask (h : e.Flows) (hearly : e.task.early = true) {task : EngineTask}
    (hstopped : task ≠ .stoppingProducers → e.allStopped = true)
    (hnext : task ≠ .drained ∧ task ≠ .awaitingConsumer) :
    ({ e with task := task }).Flows := by
  obtain ⟨hmem, hleft, hnone⟩ := h.early hearly
  refine ⟨h.reads, ⟨h.flows.order, h.flows.unfinished, fun h' => absurd h' hmem, h.flows.last,
    fun _ hne _ => hstopped hne⟩, fun hcleanly => ?_, fun htask => absurd htask hnext.1,
    .inl hnone, fun htask => absurd htask hnext.2⟩
  rw [show e.consumer.leftCleanly = false from hleft] at hcleanly
  cases hcleanly

/-- The queue was drained, and the last item follows. -/
theorem Flows.joined (h : e.Flows) (hjoining : e.task = .joining) (hempty : e.queue.unfinished = 0)
    {queue : BoundedQueue (Option StreamItem)} (hput : e.queue.put? none = some queue) :
    ({ e with queue := queue, task := .awaitingConsumer }).Flows := by
  obtain ⟨-, hleft, hnone⟩ := h.early (by rw [hjoining]; rfl)
  obtain ⟨-, hitems, hunfinished⟩ := BoundedQueue.put?_eq_some hput
  have hnil : e.queue.items = [] := by
    have := h.flows.unfinished
    exact List.length_eq_zero_iff.mp (by omega)
  rw [hnil, List.nil_append] at hitems
  refine ⟨h.reads, ⟨?_, ?_, fun _ => .inl rfl, fun _ => hitems,
    fun _ _ _ => h.flows.stopped (by rw [hjoining]; decide) (by rw [hjoining]; decide)
      (by rw [hjoining]; decide)⟩, fun hcleanly => ?_, fun htask => (by cases htask), .inl hnone,
    fun _ => .inr hitems⟩
  · have horder := h.flows.order
    rw [hnil] at horder
    show _ = _ ++ queue.items.filterMap id
    rw [hitems]
    exact horder
  · show queue.unfinished = queue.items.length + e.consumer.owed
    have := h.flows.unfinished
    rw [hunfinished, hitems, this, hnil]
    simp only [List.length_nil, List.length_singleton]
    omega
  · rw [show e.consumer.leftCleanly = false from hleft] at hcleanly
    cases hcleanly

theorem Flows.consumerDone (h : e.Flows) (hended : e.consumer = .ended false)
    (hawaiting : e.task = .awaitingConsumer) : ({ e with task := .drained }).Flows := by
  obtain ⟨hitems, -⟩ := h.leftCleanly (by rw [hended]; rfl)
  refine ⟨h.reads, ⟨h.flows.order, h.flows.unfinished, fun hmem => ?_, h.flows.last,
    fun _ _ _ => h.flows.stopped (by rw [hawaiting]; decide) (by rw [hawaiting]; decide)
      (by rw [hawaiting]; decide)⟩, fun _ => ⟨hitems, .inr (.inl rfl)⟩, fun _ => hended, .inl ?_,
    fun htask => (by cases htask)⟩
  · dsimp only at hmem
    rw [hitems] at hmem
    cases hmem
  · rcases h.interrupted with hnone | ⟨-, htask | htask⟩
    · exact hnone
    · rw [hawaiting] at htask
      cases htask
    · rw [hawaiting] at htask
      cases htask

theorem Flows.abort (h : e.Flows) : ({ e with task := .aborted }).Flows where
  reads := h.reads
  flows := ⟨h.flows.order, h.flows.unfinished, fun _ => .inr rfl, h.flows.last,
    fun _ _ hne => absurd rfl hne⟩
  leftCleanly hcleanly := ⟨(h.leftCleanly hcleanly).1, .inr (.inr rfl)⟩
  drained htask := by cases htask
  interrupted := h.interrupted.imp_right fun hcut => ⟨hcut.1, .inr rfl⟩
  lastPut htask := by cases htask

/-! ### Runs -/

section
variable [EdgeCache C] {S : EngineSettings} {event : EngineEvent C}

theorem Flows.step (h : e.Flows) (hstep : e.step S event = some e') : e'.Flows := by
  have hflows := h.flows
  cases step_cases hstep with
  | yields hi hrunning => exact h.yields hi hrunning
  | puts hi hrunning hput => exact h.puts hi hrunning hput
  | stopsReading hi => exact h.stops hi rfl
  | stopsPutting hi _ => exact h.stops hi rfl
  | take hwaiting hget => exact h.take hwaiting hget
  | takeLast hwaiting hget => exact h.takeLast hwaiting hget
  | due hwaiting _ =>
      obtain ⟨hdrained, hnone, -, hlast⟩ := h.running (by rw [hwaiting]; rfl)
      rw [hwaiting] at hflows
      exact FlowsAt.goOn ⟨hflows.order, hflows.unfinished, hflows.open_, hflows.last,
        hflows.stopped⟩ h.reads rfl hdrained hnone hlast
  | handle hhandling => exact h.handle hhandling _ _ _
  | flushed hflushing => exact h.flushed hflushing _
  | interrupt hcancelled hinterrupt => exact h.interrupt hcancelled hinterrupt
  | reload =>
      exact ⟨h.reads, ⟨hflows.order, hflows.unfinished, hflows.open_, hflows.last, hflows.stopped⟩,
        h.leftCleanly, h.drained, h.interrupted, h.lastPut⟩
  | signal hrunning =>
      exact h.earlyTask (by rw [hrunning]; rfl) (fun hne => absurd rfl hne) (by decide)
  | producersDone hstopping hall =>
      exact h.earlyTask (by rw [hstopping]; rfl) (fun _ => hall) (by decide)
  | joined hjoining hempty hput => exact h.joined hjoining hempty hput
  | timeout hjoining =>
      have hstopped : e.allStopped = true := hflows.stopped (by rw [hjoining]; decide)
        (by rw [hjoining]; decide) (by rw [hjoining]; decide)
      exact h.earlyTask (by rw [hjoining]; rfl) (fun _ => hstopped) (by decide)
  | consumerDone hended hawaiting => exact h.consumerDone hended hawaiting
  | consumerFailed _ _ => exact h.abort
  | abort _ _ => exact h.abort

end

end

end Engine

end BrandSniper
