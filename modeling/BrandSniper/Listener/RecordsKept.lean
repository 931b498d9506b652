import BrandSniper.Listener.DeliverySafety

/-!
# Every record is in one batch

What becomes of the records a consumer buffers: in order, they are those of
batches with an ID each, which are stored and so kept, and then those that are
still in the buffers. A flush that fails keeps its ID for the last one, so its
records are in no second batch.
-/

namespace BrandSniper.BatchPath

open Kit Json Batch Bulk Delivery StreamAdoption

variable {F : Type}

/-! ## What is promised -/

/-- The ticks that a task has buffered. -/
def bufferedTicks (task : Nat) (es : List (BatchEvent F)) : List (Dict F) :=
  es.filterMap fun
    | .act other (.buffer record) _ => if other = task then some record else none
    | _ => none

/-- The feed events that a task has buffered. -/
def bufferedEvents (task : Nat) (es : List (BatchEvent F)) : List (Dict F) :=
  es.filterMap fun
    | .act other (.bufferEvent record) _ => if other = task then some record else none
    | _ => none

/-- The records of the batches, and then those of the buffers. -/
structure Contents (batches : List (StoredBatch F)) (ticks feedEvents : List (Dict F))
    (buffers : Consumer F) : Prop where
  ticks : ticks.map Subtype.val
    = batches.flatMap StoredBatch.ticks ++ buffers.ticks.map Subtype.val
  feedEvents : feedEvents.map Subtype.val
    = batches.flatMap StoredBatch.feedEvents ++ buffers.feedEvents.map Subtype.val

/-- The batch that a failed flush has given its ID to. -/
def Consumer.held (buffers : Consumer F) (venue : String) : List (StoredBatch F) :=
  (buffers.batchId.map (buffers.batch venue)).toList

def FlushOutcome.adds : FlushOutcome → Bool
  | .stored | .unscheduled => true
  | .unanswered | .failed => false

def Task.isConsumer : Task F → Bool
  | .consumer _ => true
  | _ => false

/-- Neither the state nor what is scheduled is a consumer's. -/
def Outcome.consumerFree (o : Outcome F) : Bool :=
  !o.task.any Task.isConsumer && !o.scheduled.any Task.isConsumer

/-- The task that makes the step. -/
def BatchEvent.actor : BatchEvent F → Option Nat
  | .act task _ _ => some task
  | _ => none

/-- Each record is in one batch, which is kept, or in the buffers. -/
def Handed [PyFloat F] (S : Setting F) (d : Durable F) (ticks feedEvents : List (Dict F))
    (buffers : Consumer F) : Prop :=
  ∃ batches, (batches ++ buffers.held S.venue).Sublist d.issued ∧
    (∀ b ∈ batches, Kept S d (batchText b)) ∧ Contents batches ticks feedEvents buffers

/-! ## Steps of the consumer -/

section
variable [PyFloat F] {S : Setting F} {d d' : Durable F} {o : Outcome F}
  {ticks feedEvents : List (Dict F)} {buffers : Consumer F}

theorem Handed.keeps (h : Handed S d ticks feedEvents buffers) (hkeeps : Keeps S d d') :
    Handed S d' ticks feedEvents buffers := by
  obtain ⟨batches, hissued, hkept, hcontents⟩ := h
  exact ⟨batches, hissued.trans hkeeps.grows.issued.sublist,
    fun b hb => hkeeps.kept _ (hkept b hb), hcontents⟩

omit [PyFloat F] in
theorem held_of_none (h : buffers.batchId = none) (venue : String) : buffers.held venue = [] := by
  rw [Consumer.held, h]
  rfl

omit [PyFloat F] in
theorem held_of_some {batchId : String} (h : buffers.batchId = some batchId) (venue : String) :
    buffers.held venue = [buffers.batch venue batchId] := by
  rw [Consumer.held, h]
  rfl

/-- The batch that is drawn comes after those that were stored. -/
theorem Handed.draw (hsound : Sound S d) (hok : TaskOk S d (.consumer buffers))
    (h : Handed S d ticks feedEvents buffers) :
    ∃ batches, (batches ++ [(S.draw d buffers).2]).Sublist (S.draw d buffers).1.issued ∧
      (∀ b ∈ batches, Kept S (S.draw d buffers).1 (batchText b)) ∧
      Contents batches ticks feedEvents buffers := by
  obtain ⟨hkeeps, -, -⟩ := draw_ok hsound hok
  obtain ⟨batches, hissued, hkept, hcontents⟩ := h
  refine ⟨batches, ?_, fun b hb => hkeeps.kept _ (hkept b hb), hcontents⟩
  rw [Setting.draw]
  cases hid : buffers.batchId with
  | some batchId =>
      rw [held_of_some hid] at hissued
      exact hissued
  | none =>
      rw [held_of_none hid, List.append_nil] at hissued
      exact hissued.append (List.Sublist.refl _)

theorem kept_added (now : Nat) {text : String} : Kept S (S.add d now text) text := by
  refine Or.inl ⟨S.store.pendingKey, List.mem_cons_self,
    (d.streams.nextIdAt S.store.pendingKey now, [(.text "payload", .text text)]), ?_, ?_⟩
  · rw [Setting.add, StreamStore.entriesAt_xadd]
    exact List.mem_append_right _ (List.mem_singleton_self _)
  · simp [HasText, valueOf]

theorem flush_handed {now : Nat} {outcome : FlushOutcome} (hsound : Sound S d)
    (hok : TaskOk S d (.consumer buffers)) (h : Handed S d ticks feedEvents buffers)
    (hstep : S.flush d buffers now outcome = some o) :
    (∀ buffers', o.task = some (.consumer buffers') →
      Handed S o.durable ticks feedEvents buffers') ∧
      (outcome.adds = true → Handed S o.durable ticks feedEvents ⟨[], [], none, false⟩) := by
  obtain ⟨hkeeps, hmem, hbatch⟩ := draw_ok hsound hok
  obtain ⟨batches, hissued, hkept, hcontents⟩ := h.draw hsound hok
  rw [Setting.flush] at hstep
  generalize S.draw d buffers = drawn at hkeeps hmem hbatch hissued hkept hstep
  obtain ⟨d1, batch⟩ := drawn
  dsimp only at hkeeps hmem hbatch hissued hkept hstep
  -- after an error the buffers are the batch that has the ID
  have herror : ∀ d' : Durable F, Keeps S d1 d' → ∀ buffers',
      buffers.afterError batch.batchId = some (.consumer buffers') →
      Handed S d' ticks feedEvents buffers' := by
    intro d' hd' buffers' htask
    rw [Consumer.afterError] at htask
    split at htask
    · cases htask
    · cases htask
      refine Handed.keeps ⟨batches, ?_, hkept, ⟨hcontents.ticks, hcontents.feedEvents⟩⟩ hd'
      rw [held_of_some rfl]
      exact hbatch ▸ hissued
  have hadded : ∀ {text : String}, serialize batch = some text →
      Handed S (S.add d1 now text) ticks feedEvents ⟨[], [], none, false⟩ := by
    intro text htext
    obtain ⟨hadded, -⟩ := add_ok hkeeps.sound now hmem htext
    refine ⟨batches ++ [batch], ?_, ?_, ?_, ?_⟩
    · rw [held_of_none rfl, List.append_nil]
      exact hissued.trans hadded.grows.issued.sublist
    · intro b hb
      rcases List.mem_append.mp hb with hold | hnew
      · exact hadded.kept _ (hkept b hold)
      · rw [List.mem_singleton.mp hnew, ← serialize_eq_some htext]
        exact kept_added now
    · rw [hcontents.ticks, List.flatMap_append, List.flatMap_singleton, hbatch]
      exact (List.append_nil _).symm
    · rw [hcontents.feedEvents, List.flatMap_append, List.flatMap_singleton, hbatch]
      exact (List.append_nil _).symm
  cases outcome with
  | failed =>
      cases hstep
      exact ⟨herror d1 (.refl hkeeps.sound), fun hadds => absurd hadds Bool.false_ne_true⟩
  | unanswered =>
      obtain ⟨text, htext, rfl⟩ := Option.map_eq_some_iff.mp hstep
      exact ⟨herror _ (add_ok hkeeps.sound now hmem htext).1,
        fun hadds => absurd hadds Bool.false_ne_true⟩
  | unscheduled =>
      obtain ⟨text, htext, rfl⟩ := Option.map_eq_some_iff.mp hstep
      refine ⟨?_, fun _ => hadded htext⟩
      rintro _ ⟨⟩
  | stored =>
      obtain ⟨text, htext, rfl⟩ := Option.map_eq_some_iff.mp hstep
      refine ⟨?_, fun _ => hadded htext⟩
      intro buffers' htask
      rw [Consumer.afterFlush] at htask
      split at htask
      · cases htask
      · cases htask
        exact hadded htext

/-- A record is buffered while no batch is held. -/
theorem consumerStep_handed {task scheduled : Nat} {a : Action F} {buffers' : Consumer F}
    (hsound : Sound S d) (hok : TaskOk S d (.consumer buffers))
    (h : Handed S d ticks feedEvents buffers) (hstep : S.consumerStep d buffers a = some o)
    (htask : o.task = some (.consumer buffers')) :
    Handed S o.durable (ticks ++ bufferedTicks task [.act task a scheduled])
      (feedEvents ++ bufferedEvents task [.act task a scheduled]) buffers' := by
  -- while the loop runs no batch is held, so the buffers may change
  have hheld : ∀ buffers' : Consumer F, ¬ buffers.closing = true →
      buffers'.batchId = buffers.batchId → buffers'.held S.venue = buffers.held S.venue := by
    intro buffers' hopen hsame
    cases hid : buffers.batchId with
    | none => rw [held_of_none hid, held_of_none (hsame.trans hid)]
    | some batchId => exact absurd (hok batchId hid).2 hopen
  obtain ⟨batches, hissued, hkept, hcontents⟩ := h
  cases a with
  | buffer record =>
      rw [Setting.consumerStep] at hstep
      split at hstep
      · cases hstep
      · rename_i hopen
        cases hstep
        cases htask
        rw [← hheld { buffers with ticks := buffers.ticks ++ [record] } hopen rfl] at hissued
        refine ⟨batches, hissued, hkept, ?_, ?_⟩
        · simp [bufferedTicks, hcontents.ticks]
        · simp [bufferedEvents, hcontents.feedEvents]
  | bufferEvent record =>
      rw [Setting.consumerStep] at hstep
      split at hstep
      · cases hstep
      · rename_i hopen
        cases hstep
        cases htask
        rw [← hheld { buffers with feedEvents := buffers.feedEvents ++ [record] } hopen rfl] at hissued
        refine ⟨batches, hissued, hkept, ?_, ?_⟩
        · simp [bufferedTicks, hcontents.ticks]
        · simp [bufferedEvents, hcontents.feedEvents]
  | close =>
      cases hstep
      cases htask
      exact ⟨batches, hissued, hkept, ⟨by simp [bufferedTicks, hcontents.ticks],
        by simp [bufferedEvents, hcontents.feedEvents]⟩⟩
  | flush now outcome =>
      rw [Setting.consumerStep] at hstep
      split at hstep
      · cases hstep
      · have hflushed := (flush_handed hsound hok ⟨batches, hissued, hkept, hcontents⟩ hstep).1
          buffers' htask
        simpa [bufferedTicks, bufferedEvents] using hflushed
  | _ => cases hstep

/-! ## Runs -/

omit [PyFloat F] in
theorem not_consumer {t : Option (Task F)} (h : t.any Task.isConsumer = false) :
    ∀ other, t ≠ some (.consumer other) := by
  rintro other rfl
  cases h

theorem recoveryStep_noConsumer {reader : Reader} {given : Option (StoredBatch F)} {a : Action F}
    (hstep : S.recoveryStep d reader given a = some o) : o.consumerFree = true := by
  cases given with
  | none =>
      obtain ⟨read, -, rfl⟩ := Option.map_eq_some_iff.mp hstep
      exact rfl
  | some batch =>
      cases reader with
      | suspended id page rest =>
          cases a with
          | schedule =>
              cases hstep
              exact rfl
          | _ => cases hstep
      | _ => cases hstep

theorem deliveryStep_noConsumer {recordId : Nat} {batch : StoredBatch F} {sending : Sending}
    {a : Action F} (hstep : S.deliveryStep d recordId batch sending a = some o) :
    o.consumerFree = true := by
  cases a with
  | acknowledge =>
      cases sending with
      | sent =>
          cases hstep
          exact rfl
      | _ => cases hstep
  | deadLetter now =>
      cases sending with
      | failed error =>
          obtain ⟨text, -, rfl⟩ := Option.map_eq_some_iff.mp hstep
          exact rfl
      | _ => cases hstep
  | _ =>
      dsimp only [Setting.deliveryStep] at hstep
      obtain ⟨sent, -, rfl⟩ := Option.map_eq_some_iff.mp hstep
      exact rfl

omit [PyFloat F] in
theorem consumerFree_mk {t : Option (Task F)} (h : t.any Task.isConsumer = false) :
    (Outcome.mk d t none).consumerFree = true := by
  rw [Outcome.consumerFree, h]
  rfl

theorem replayStep_noConsumer {left : Nat} {reader : Reader}
    {given : Option (StoredBatch F × Sending)} {a : Action F}
    (hstep : S.replayStep d left reader given a = some o) : o.consumerFree = true := by
  have hafter : ∀ page rest,
      (afterReplayed left page rest : Option (Task F)).any Task.isConsumer = false := by
    intro page rest
    rw [afterReplayed]
    split <;> rfl
  cases given with
  | none =>
      obtain ⟨read, -, rfl⟩ := Option.map_eq_some_iff.mp hstep
      exact rfl
  | some given =>
      cases a with
      | next deleted =>
          dsimp only [Setting.replayStep] at hstep
          split at hstep
          · cases hstep
            exact consumerFree_mk (hafter _ _)
          · cases hstep
            exact consumerFree_mk (hafter _ _)
          · cases hstep
            exact consumerFree_mk (hafter _ _)
          · cases hstep
      | _ =>
          dsimp only [Setting.replayStep] at hstep
          obtain ⟨sent, -, rfl⟩ := Option.map_eq_some_iff.mp hstep
          exact rfl

/-- A consumer schedules deliveries only. -/
theorem consumerStep_schedules {a : Action F} (hstep : S.consumerStep d buffers a = some o) :
    o.scheduled.any Task.isConsumer = false := by
  cases a with
  | buffer record =>
      rw [Setting.consumerStep] at hstep
      split at hstep
      · cases hstep
      · cases hstep
        rfl
  | bufferEvent record =>
      rw [Setting.consumerStep] at hstep
      split at hstep
      · cases hstep
      · cases hstep
        rfl
  | close =>
      cases hstep
      rfl
  | flush now outcome =>
      rw [Setting.consumerStep] at hstep
      split at hstep
      · cases hstep
      · rw [Setting.flush] at hstep
        cases outcome with
        | failed =>
            cases hstep
            rfl
        | _ =>
            dsimp only at hstep
            obtain ⟨text, -, rfl⟩ := Option.map_eq_some_iff.mp hstep
            rfl
  | _ => cases hstep

/-- A consumer comes from a consumer, and what is scheduled is none. -/
theorem consumer_of_taskStep {t : Task F} {a : Action F} (hstep : S.taskStep d t a = some o) :
    (∀ buffers, o.task = some (.consumer buffers) → ∃ before, t = .consumer before) ∧
      o.scheduled.any Task.isConsumer = false := by
  have hother : o.consumerFree = true → (∀ buffers, o.task = some (.consumer buffers) →
      ∃ before, t = .consumer before) ∧ o.scheduled.any Task.isConsumer = false := by
    intro hfree
    rw [Outcome.consumerFree, Bool.and_eq_true, Bool.not_eq_true', Bool.not_eq_true'] at hfree
    exact ⟨fun buffers htask => absurd htask (not_consumer hfree.1 buffers), hfree.2⟩
  cases t with
  | consumer before => exact ⟨fun _ _ => ⟨before, rfl⟩, consumerStep_schedules hstep⟩
  | recovery reader given => exact hother (recoveryStep_noConsumer hstep)
  | delivery recordId batch sending => exact hother (deliveryStep_noConsumer hstep)
  | replay left reader given => exact hother (replayStep_noConsumer hstep)

/-- Only a consumer flushes. -/
theorem flush_of_taskStep {t : Task F} {now : Nat} {outcome : FlushOutcome}
    (hstep : S.taskStep d t (.flush now outcome) = some o) :
    ∃ buffers, t = .consumer buffers ∧ S.flush d buffers now outcome = some o := by
  cases t with
  | consumer buffers =>
      dsimp only [Setting.taskStep, Setting.consumerStep] at hstep
      split at hstep
      · cases hstep
      · exact ⟨buffers, rfl, hstep⟩
  | recovery reader given =>
      cases given with
      | none => cases hstep
      | some batch => cases reader <;> cases hstep
  | delivery recordId batch sending => cases hstep
  | replay left reader given =>
      cases given with
      | none => cases hstep
      | some given => cases hstep

variable {s s' : BatchSystem F} {k : Nat}

omit [PyFloat F] in
theorem consumer_of_start {task : Nat} {t : Task F} (hstart : s.start task t = some s')
    (ht : k = task → t.isConsumer = false) (hk : s'.tasks k = some (.consumer buffers)) :
    s.tasks k = some (.consumer buffers) := by
  rw [BatchSystem.start] at hstart
  split at hstart
  · cases hstart
    rw [tasks_put] at hk
    split at hk
    · exact absurd hk (not_consumer (t := some t) (ht ‹_›) buffers)
    · exact hk
  · cases hstart

omit [PyFloat F] in
theorem consumer_of_schedule {task : Nat} {t : Option (Task F)}
    (hschedule : s.schedule task t = some s') (ht : t.any Task.isConsumer = false)
    (hk : s'.tasks k = some (.consumer buffers)) : s.tasks k = some (.consumer buffers) := by
  cases t with
  | none =>
      cases hschedule
      exact hk
  | some t => exact consumer_of_start hschedule (fun _ => ht) hk

omit [PyFloat F] in
theorem durable_of_schedule {task : Nat} {t : Option (Task F)}
    (hschedule : s.schedule task t = some s') : s'.durable = s.durable := by
  cases t with
  | none =>
      cases hschedule
      rfl
  | some t =>
      dsimp only [BatchSystem.schedule] at hschedule
      rw [BatchSystem.start] at hschedule
      split at hschedule
      · cases hschedule
        rfl
      · cases hschedule

/-- A consumer that was not started now has made a step of its own, or none. -/
theorem consumer_of_step {e : BatchEvent F} {buffers' : Consumer F}
    (hstep : S.step s e = some s') (hno : e ≠ .startConsumer k)
    (hk : s'.tasks k = some (.consumer buffers')) :
    (s.tasks k = some (.consumer buffers') ∧ e.actor ≠ some k) ∨
      ∃ buffers a scheduled o, s.tasks k = some (.consumer buffers) ∧ e = .act k a scheduled ∧
        S.consumerStep s.durable buffers a = some o ∧ o.task = some (.consumer buffers') ∧
        s'.durable = o.durable := by
  cases e with
  | startRecovery task =>
      exact Or.inl ⟨consumer_of_start hstep (fun _ => rfl) hk, (Option.some_ne_none k).symm⟩
  | startConsumer task =>
      refine Or.inl ⟨consumer_of_start hstep ?_ hk, (Option.some_ne_none k).symm⟩
      intro hsame
      exact absurd (hsame ▸ rfl) hno
  | startReplay task limit =>
      rw [Setting.step] at hstep
      split at hstep
      · cases hstep
      · exact Or.inl ⟨consumer_of_start hstep (fun _ => rfl) hk, (Option.some_ne_none k).symm⟩
  | act task a scheduled =>
      obtain ⟨t, ht, hstep⟩ := Option.bind_eq_some_iff.mp hstep
      obtain ⟨o, ho, hschedule⟩ := Option.bind_eq_some_iff.mp hstep
      obtain ⟨hconsumer, hscheduled⟩ := consumer_of_taskStep ho
      have hmid := consumer_of_schedule hschedule hscheduled hk
      rw [tasks_put] at hmid
      split at hmid
      · rename_i hsame
        obtain ⟨buffers, rfl⟩ := hconsumer buffers' hmid
        refine Or.inr ⟨buffers, a, scheduled, o, hsame ▸ ht, hsame ▸ rfl, ho, hmid,
          durable_of_schedule hschedule⟩
      · rename_i hother
        exact Or.inl ⟨hmid, fun hactor => hother (Option.some.inj hactor).symm⟩
  | stop task =>
      cases hstep
      rw [tasks_put] at hk
      split at hk
      · cases hk
      · exact Or.inl ⟨hk, (Option.some_ne_none k).symm⟩
  | backend e =>
      rw [Setting.step] at hstep
      split at hstep
      · cases hstep
      · obtain ⟨backend, -, rfl⟩ := Option.map_eq_some_iff.mp hstep
        exact Or.inl ⟨hk, (Option.some_ne_none k).symm⟩

omit [PyFloat F] in
theorem buffered_of_ne {e : BatchEvent F} (h : e.actor ≠ some k) :
    bufferedTicks k [e] = [] ∧ bufferedEvents k [e] = [] := by
  cases e with
  | act task a scheduled =>
      have hne : task ≠ k := fun heq => h (congrArg some heq)
      cases a <;> simp [bufferedTicks, bufferedEvents, hne]
  | _ => exact ⟨rfl, rfl⟩

theorem handed_of_run [LawfulPyFloat F] {es : List (BatchEvent F)} (hI : Inv S s)
    (hstart : s.tasks k = some (.consumer ⟨[], [], none, false⟩))
    (hrun : runFrom S.step s es = some s') (hno : .startConsumer k ∉ es) {buffers : Consumer F}
    (hk : s'.tasks k = some (.consumer buffers)) :
    Handed S s'.durable (bufferedTicks k es) (bufferedEvents k es) buffers := by
  induction es using List.reverseRecOn generalizing s' buffers with
  | nil =>
      cases hrun
      cases hstart.symm.trans hk
      exact ⟨[], List.nil_sublist _, List.forall_mem_nil _, rfl, rfl⟩
  | append_singleton before e ih =>
      rw [runFrom_concat] at hrun
      obtain ⟨mid, hmid, hlast⟩ := Option.bind_eq_some_iff.mp hrun
      rw [List.mem_append, not_or] at hno
      obtain ⟨hImid, -⟩ := hI.run hmid
      obtain ⟨-, hkeeps⟩ := hImid.step hlast
      rw [bufferedTicks, bufferedEvents, List.filterMap_append, List.filterMap_append,
        ← bufferedTicks, ← bufferedTicks, ← bufferedEvents, ← bufferedEvents]
      have hne : e ≠ .startConsumer k := by
        rintro rfl
        exact hno.2 List.mem_cons_self
      rcases consumer_of_step hlast hne hk with
        ⟨hsame, hother⟩ | ⟨old, a, n, o, hold, rfl, ho, htask, hdurable⟩
      · rw [(buffered_of_ne hother).1, (buffered_of_ne hother).2, List.append_nil, List.append_nil]
        exact (ih hmid hno.1 hsame).keeps hkeeps
      · rw [hdurable]
        exact consumerStep_handed hImid.sound (hImid.tasks k _ hold) (ih hmid hno.1 hold) ho htask

/-- What becomes of the records. -/
def RecordsKept (S : Setting F) (d : Durable F) (ticks feedEvents : List (Dict F))
    (buffers : Consumer F) : Prop :=
  ∃ batches : List (StoredBatch F), (batches.map StoredBatch.batchId).Nodup ∧
    (∀ b ∈ batches, Kept S d (batchText b)) ∧ Contents batches ticks feedEvents buffers

theorem Handed.recordsKept (h : Handed S d ticks feedEvents buffers) (hsound : Sound S d) :
    RecordsKept S d ticks feedEvents buffers := by
  obtain ⟨batches, hissued, hkept, hcontents⟩ := h
  refine ⟨batches, ?_, hkept, hcontents⟩
  have hnodup : (d.issued.map StoredBatch.batchId).Nodup := by
    rw [hsound.ids]
    exact List.nodup_range.map S.uuid_injective
  have hbatches := (List.sublist_append_left batches _).trans hissued
  exact hnodup.sublist (hbatches.map StoredBatch.batchId)

/-- The records that a consumer has buffered are, in order, those of batches with different IDs,
each kept, and then those in its buffers; nothing is left out, and nothing comes twice, whatever
flushes have failed and whatever else goes on. After a flush that stores its batch the buffers have
nothing. -/
theorem records_kept [LawfulPyFloat F] {before after : List (BatchEvent F)}
    (hrun : runFrom S.step .initial (before ++ .startConsumer k :: after) = some s)
    (hno : .startConsumer k ∉ after) :
    (∀ buffers, s.tasks k = some (.consumer buffers) →
      RecordsKept S s.durable (bufferedTicks k after) (bufferedEvents k after) buffers) ∧
    ∀ now scheduled outcome s', outcome.adds = true →
      S.step s (.act k (.flush now outcome) scheduled) = some s' →
      RecordsKept S s'.durable (bufferedTicks k after) (bufferedEvents k after)
        ⟨[], [], none, false⟩ := by
  rw [runFrom_append] at hrun
  obtain ⟨first, hfirst, hrun⟩ := Option.bind_eq_some_iff.mp hrun
  obtain ⟨started, hstart, hrun⟩ := Option.bind_eq_some_iff.mp hrun
  obtain ⟨hfirstI, -⟩ := (inv_initial S).run hfirst
  obtain ⟨hI, -⟩ := hfirstI.step hstart
  obtain ⟨hsI, -⟩ := hI.run hrun
  have hbegin : started.tasks k = some (.consumer ⟨[], [], none, false⟩) := by
    dsimp only [Setting.step] at hstart
    rw [BatchSystem.start] at hstart
    split at hstart
    · cases hstart
      rw [tasks_put, if_pos rfl]
    · cases hstart
  refine ⟨fun buffers hk => (handed_of_run hI hbegin hrun hno hk).recordsKept hsI.sound, ?_⟩
  intro now scheduled outcome s' houtcome hstep
  obtain ⟨hsI', -⟩ := hsI.step hstep
  obtain ⟨t, ht, hstep⟩ := Option.bind_eq_some_iff.mp hstep
  obtain ⟨o, ho, hschedule⟩ := Option.bind_eq_some_iff.mp hstep
  obtain ⟨buffers, rfl, hflush⟩ := flush_of_taskStep ho
  have hhanded := handed_of_run hI hbegin hrun hno ht
  have hdone := (flush_handed hsI.sound (hsI.tasks k _ ht) hhanded hflush).2 houtcome
  have hsound := hsI'.sound
  rw [durable_of_schedule hschedule] at hsound ⊢
  exact hdone.recordsKept hsound

end

/-- The answer to a flush is lost. -/
def lostAnswer : List (BatchEvent FloatText) :=
  [.act 0 (.buffer bufferedTick) 0, .act 0 (.flush 5 .unanswered) 0]

theorem records_kept_lostAnswer : ∃ s s',
    runFrom countingSetting.step .initial (.startConsumer 0 :: lostAnswer) = some s ∧
      countingSetting.step s (.act 0 (.flush 6 .stored) 1) = some s' ∧
      RecordsKept countingSetting s'.durable [bufferedTick] [] ⟨[], [], none, false⟩ := by
  have hrun : (runFrom countingSetting.step .initial
      ((.startConsumer 0 :: lostAnswer) ++ [.act 0 (.flush 6 .stored) 1])).isSome = true := by
    decide +kernel
  obtain ⟨s', hs'⟩ := Option.isSome_iff_exists.mp hrun
  rw [runFrom_concat] at hs'
  obtain ⟨s, hs, hend⟩ := Option.bind_eq_some_iff.mp hs'
  have hno : (.startConsumer 0 : BatchEvent FloatText) ∉ lostAnswer := by simp [lostAnswer]
  have hs0 : runFrom countingSetting.step .initial ([] ++ .startConsumer 0 :: lostAnswer) = some s :=
    hs
  have hkept := (records_kept hs0 hno).2 6 1 .stored s' rfl hend
  exact ⟨s, s', hs, hend, hkept⟩

end BrandSniper.BatchPath
