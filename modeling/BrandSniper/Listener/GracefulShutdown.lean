import BrandSniper.Listener.StreamFlow

/-!
# Graceful shutdown

The records of what the consumer has handled are in stored batches and then in
its buffers (`Kept`), and the buffers are bounded and have a time they are
written at (`Buffered`). An engine that has drained its queue has lost nothing
of what its producers had put.
-/

namespace BrandSniper

open Kit

namespace Engine

variable {C : Type}

/-! ## Records -/

/-- The items that were recorded, in order. -/
def recorded (e : Engine C) : List StreamItem :=
  (e.handled.filter HandledItem.recorded).map HandledItem.item ++
    (e.interrupted.toList.filter Prod.snd).map Prod.fst

end Engine

/-- A tick without a price in cents, a listing without an ID, or a snapshot that Redis failed on. -/
def HandledItem.Omittable (handled : HandledItem) : Prop :=
  match handled.item with
  | .feedEvent _ => False
  | .tick tick => tick.feedsPriceWindow = true ∧
      (tick.isRestSnapshot = false ∧ tick.listingId = none ∨
        tick.isRestSnapshot = true ∧ handled.faults.zcardUnchanged = true)
  | .unpriced _ => True

theorem omittable_of_isRecorded {C : Type} [EdgeCache C] {S : DetectionSettings} {faults : Faults}
    {st : Consumer C} {item : StreamItem} (h : isRecorded S faults st item = false) :
    (HandledItem.mk item faults false).Omittable := by
  cases item with
  | feedEvent event => cases h
  | unpriced tick => exact trivial
  | tick tick =>
      unfold isRecorded at h
      dsimp only at h
      split at h
      · cases h
      · rename_i hfeeds
        refine ⟨not_not.mp hfeeds, ?_⟩
        split at h
        · rw [Bool.or_eq_false_iff] at h
          exact .inl ⟨h.2, Option.isNone_iff_eq_none.mp (by rw [← Option.not_isSome, h.1]; rfl)⟩
        · split at h
          · rename_i hunchanged
            have hrest : tick.isRestSnapshot = true := by
              unfold isUnchangedSnapshot at hunchanged
              split at hunchanged
              · cases hunchanged
              · exact (Bool.and_eq_true_iff.mp hunchanged).1
            refine .inr ⟨hrest, ?_⟩
            unfold unchangedSnapshotEntersPriceWindow at h
            dsimp only at h
            by_contra hzcard
            rw [if_neg hzcard] at h
            split_ifs at h
          · cases h

namespace RecordBuffers

/-- The longest a buffer gets. -/
def limit (S : EngineSettings) : Nat := max 1 S.chunkLimit.toNat

def Fits (limit : Nat) (buffers : RecordBuffers) : Prop :=
  buffers.ticks.length ≤ limit ∧ buffers.feedEvents.length ≤ limit

def HasRoom (limit : Nat) (buffers : RecordBuffers) : Prop :=
  buffers.ticks.length < limit ∧ buffers.feedEvents.length < limit

theorem limit_pos (S : EngineSettings) : 0 < limit S := lt_of_lt_of_le Nat.one_pos (le_max_left _ _)

variable {buffers : RecordBuffers} {L : Nat}

theorem hasRoom_of_isEmpty (h : buffers.isEmpty = true) (hL : 0 < L) : buffers.HasRoom L := by
  rw [isEmpty, Bool.and_eq_true, List.isEmpty_iff, List.isEmpty_iff] at h
  rw [HasRoom, h.1, h.2]
  exact ⟨hL, hL⟩

theorem HasRoom.fits (h : buffers.HasRoom L) : buffers.Fits L := ⟨h.1.le, h.2.le⟩

theorem HasRoom.keep (h : buffers.HasRoom L) (recorded : Bool) (item : StreamItem) :
    (buffers.keep recorded item).Fits L := by
  cases recorded with
  | false => exact h.fits
  | true =>
      cases item with
      | unpriced tick => exact h.fits
      | feedEvent event =>
          refine ⟨h.1.le, ?_⟩
          show (buffers.feedEvents ++ [event]).length ≤ L
          rw [List.length_append]
          exact h.2
      | tick tick =>
          refine ⟨?_, h.2.le⟩
          show (buffers.ticks ++ [tick]).length ≤ L
          rw [List.length_append]
          exact h.1

theorem isEmpty_of_keep {recorded : Bool} {item : StreamItem}
    (h : (buffers.keep recorded item).isEmpty = true) : buffers.isEmpty = true := by
  cases recorded with
  | false => exact h
  | true =>
      cases item with
      | unpriced tick => exact h
      | _ => simp [keep, add, isEmpty] at h

theorem hasRoom_of_not_full {S : EngineSettings} (h : buffers.full S.chunkLimit = false) :
    buffers.HasRoom (limit S) := by
  rw [full, Bool.or_eq_false_iff, decide_eq_false_iff_not, decide_eq_false_iff_not] at h
  constructor <;> unfold limit <;> omega

theorem ticks_keep (buffers : RecordBuffers) (recorded : Bool) (item : StreamItem) :
    (buffers.keep recorded item).ticks
      = buffers.ticks ++ ([item].filter fun _ => recorded).filterMap StreamItem.tick? := by
  cases recorded <;> cases item <;> simp [keep, add, StreamItem.tick?]

theorem feedEvents_keep (buffers : RecordBuffers) (recorded : Bool) (item : StreamItem) :
    (buffers.keep recorded item).feedEvents
      = buffers.feedEvents ++ ([item].filter fun _ => recorded).filterMap StreamItem.feedEvent? := by
  cases recorded <;> cases item <;> simp [keep, add, StreamItem.feedEvent?]

end RecordBuffers

namespace Engine

variable {C : Type}

/-- The records of what was handled are in the stored batches and then in the buffers. -/
structure Kept (S : EngineSettings) (e : Engine C) : Prop where
  ticks : e.batches.flatMap RecordBuffers.ticks ++ e.buffers.ticks
    = e.recorded.filterMap StreamItem.tick?
  feedEvents : e.batches.flatMap RecordBuffers.feedEvents ++ e.buffers.feedEvents
    = e.recorded.filterMap StreamItem.feedEvent?
  omitted : ∀ handled ∈ e.handled, handled.recorded = false → handled.Omittable
  batches : ∀ batch ∈ e.batches, batch.Fits (RecordBuffers.limit S) ∧ batch.isEmpty = false

/-- The buffers, where the consumer is. -/
def Buffered (S : EngineSettings) (e : Engine C) : Prop :=
  match e.consumer with
  | .waiting | .handling _ => e.buffers.HasRoom (RecordBuffers.limit S) ∧
      e.oldestBufferedAt.isSome = !e.buffers.isEmpty
  | .flushing _ => e.buffers.Fits (RecordBuffers.limit S) ∧ e.buffers.isEmpty = false
  | .ended failed => e.buffers.Fits (RecordBuffers.limit S) ∧
      (failed = false → e.buffers.isEmpty = true)

section
variable {S : EngineSettings} {e e' : Engine C}

theorem Kept.of_same (h : e.Kept S) (hbatches : e'.batches = e.batches)
    (hbuffers : e'.buffers = e.buffers) (hhandled : e'.handled = e.handled)
    (hinterrupted : e'.interrupted = e.interrupted) : e'.Kept S where
  ticks := by
    rw [hbatches, hbuffers, recorded, hhandled, hinterrupted]
    exact h.ticks
  feedEvents := by
    rw [hbatches, hbuffers, recorded, hhandled, hinterrupted]
    exact h.feedEvents
  omitted := hhandled ▸ h.omitted
  batches := hbatches ▸ h.batches

/-- An item is recorded or not. -/
theorem Kept.keep (h : e.Kept S) {recorded : Bool} {item : StreamItem}
    (hrecorded : e'.recorded = e.recorded ++ [item].filter fun _ => recorded)
    (hbuffers : e'.buffers = e.buffers.keep recorded item) (hbatches : e'.batches = e.batches)
    (homitted : ∀ handled ∈ e'.handled, handled.recorded = false → handled.Omittable) :
    e'.Kept S where
  ticks := by
    rw [hbatches, hbuffers, RecordBuffers.ticks_keep, ← List.append_assoc, h.ticks, hrecorded,
      List.filterMap_append]
  feedEvents := by
    rw [hbatches, hbuffers, RecordBuffers.feedEvents_keep, ← List.append_assoc, h.feedEvents,
      hrecorded, List.filterMap_append]
  omitted := homitted
  batches := hbatches ▸ h.batches

theorem buffered_leave (h : e.buffers.Fits (RecordBuffers.limit S)) (failed : Bool) :
    (e.leave failed).Buffered S := by
  unfold Buffered leave
  cases hempty : e.buffers.isEmpty with
  | true => exact ⟨h, fun _ => rfl⟩
  | false => exact ⟨h, rfl⟩

/-- A batch is stored, and the buffers are empty. -/
theorem Kept.cleared (h : e.Kept S) (hflushing : e.buffers.Fits (RecordBuffers.limit S))
    (hsome : e.buffers.isEmpty = false) : e.cleared.Kept S where
  ticks := by
    show (e.batches ++ [e.buffers]).flatMap RecordBuffers.ticks ++ [] = _
    rw [List.append_nil, List.flatMap_append, List.flatMap_singleton]
    exact h.ticks
  feedEvents := by
    show (e.batches ++ [e.buffers]).flatMap RecordBuffers.feedEvents ++ [] = _
    rw [List.append_nil, List.flatMap_append, List.flatMap_singleton]
    exact h.feedEvents
  omitted := h.omitted
  batches := by
    intro batch hbatch
    rcases List.mem_append.mp hbatch with hbatch | hbatch
    · exact h.batches batch hbatch
    · rw [List.mem_singleton.mp hbatch]
      exact ⟨hflushing, hsome⟩

theorem fits_empty : RecordBuffers.empty.Fits (RecordBuffers.limit S) :=
  (RecordBuffers.hasRoom_of_isEmpty rfl (RecordBuffers.limit_pos S)).fits

theorem buffered_raise (hfits : e.buffers.Fits (RecordBuffers.limit S)) (reason : FlushReason) :
    (e.raise reason).Buffered S := by
  cases reason with
  | due => exact buffered_leave hfits true
  | item => exact @buffered_leave C S e.taskDone hfits true
  | last failed => exact ⟨hfits, fun h => by cases h⟩

theorem raise_same (e : Engine C) (reason : FlushReason) : (e.raise reason).batches = e.batches ∧
    (e.raise reason).buffers = e.buffers ∧ (e.raise reason).handled = e.handled ∧
    (e.raise reason).interrupted = e.interrupted := by
  cases reason <;> exact ⟨rfl, rfl, rfl, rfl⟩

theorem Kept.raise (h : e.Kept S) (reason : FlushReason) : (e.raise reason).Kept S := by
  obtain ⟨hbatches, hbuffers, hhandled, hinterrupted⟩ := raise_same e reason
  exact h.of_same hbatches hbuffers hhandled hinterrupted

theorem kept_flushed (h : e.Kept S) {reason : FlushReason}
    (hfits : e.buffers.Fits (RecordBuffers.limit S))
    (hsome : e.buffers.isEmpty = false) (outcome : FlushOutcome) :
    (e.flushed reason outcome).Kept S ∧ (e.flushed reason outcome).Buffered S := by
  have hcleared := h.cleared hfits hsome
  have hroom : RecordBuffers.empty.HasRoom (RecordBuffers.limit S) :=
    RecordBuffers.hasRoom_of_isEmpty rfl (RecordBuffers.limit_pos S)
  cases outcome with
  | failed => exact ⟨h.raise reason, buffered_raise hfits reason⟩
  | unscheduled => exact ⟨hcleared.raise reason, buffered_raise fits_empty reason⟩
  | stored =>
      cases reason with
      | due => exact ⟨hcleared.of_same rfl rfl rfl rfl, hroom, rfl⟩
      | item => exact ⟨hcleared.of_same rfl rfl rfl rfl, hroom, rfl⟩
      | last failed => exact ⟨hcleared.of_same rfl rfl rfl rfl, fits_empty, fun _ => rfl⟩

/-- While the consumer waits, there is an oldest record only if there are records. -/
theorem Buffered.nonempty_of_oldest (h : e.Buffered S) (hwaiting : e.consumer = .waiting)
    {oldest : ℚ} (holdest : e.oldestBufferedAt = some oldest) : e.buffers.isEmpty = false := by
  unfold Buffered at h
  rw [hwaiting] at h
  have hsome := h.2
  rw [holdest, Option.isSome_some] at hsome
  simpa using hsome.symm

/-- What holds in every state of a run. -/
structure Inv (S : EngineSettings) (e : Engine C) : Prop where
  flows : e.Flows
  kept : e.Kept S
  buffered : e.Buffered S

/-- The producers and the engine's own task leave the records alone. -/
theorem Inv.of_same (h : e.Inv S) (hflows : e'.Flows) (hbatches : e'.batches = e.batches)
    (hbuffers : e'.buffers = e.buffers) (hhandled : e'.handled = e.handled)
    (hinterrupted : e'.interrupted = e.interrupted) (hconsumer : e'.consumer = e.consumer)
    (holdest : e'.oldestBufferedAt = e.oldestBufferedAt) : e'.Inv S := by
  refine ⟨hflows, h.kept.of_same hbatches hbuffers hhandled hinterrupted, ?_⟩
  unfold Buffered
  rw [hconsumer, hbuffers, holdest]
  exact h.buffered

theorem Inv.interrupt (h : e.Inv S) {recorded : Bool} (hflows : e'.Flows)
    (hinterrupt : e.interrupt recorded = some e') : e'.Inv S := by
  have hbuffered := h.buffered
  unfold Buffered at hbuffered
  unfold Engine.interrupt at hinterrupt
  split at hinterrupt
  · rename_i hwaiting
    rw [hwaiting] at hbuffered
    cases hinterrupt
    exact ⟨hflows, h.kept.of_same rfl rfl rfl rfl, buffered_leave hbuffered.1.fits true⟩
  · rename_i item hhandling
    rw [hhandling] at hbuffered
    obtain ⟨-, hnone, -⟩ := h.flows.running (by rw [hhandling]; rfl)
    cases hinterrupt
    generalize (recorded && item.hasRecord) = recorded at hflows ⊢
    refine ⟨hflows, h.kept.keep ?_ rfl rfl h.kept.omitted, ?_⟩
    · rw [Engine.recorded, Engine.recorded, hnone]
      cases recorded <;> simp [Engine.leave, Engine.taskDone]
    · exact @buffered_leave C S ({ e with
        buffers := e.buffers.keep recorded item
        interrupted := some (item, recorded) }.taskDone) (hbuffered.1.keep recorded item) true
  · cases hinterrupt

section
variable [EdgeCache C]

theorem Kept.handle (h : e.Kept S) (hnone : e.interrupted = none) (item : StreamItem)
    (faults : Faults) (bufferedAt now : ℚ) : (e.handle S item faults bufferedAt now).Kept S := by
  have hkept : Kept S { e with
      caches := (consumeItem S.arith S.detection faults e.caches item).1
      buffers := e.buffers.keep (isRecorded S.detection faults e.caches item) item
      handled := e.handled ++ [HandledItem.mk item faults
        (isRecorded S.detection faults e.caches item)] } := by
    refine h.keep ?_ rfl rfl ?_
    · rw [recorded, recorded, hnone, List.filter_append, List.map_append]
      cases isRecorded S.detection faults e.caches item <;> simp
    · intro handled hhandled
      rcases List.mem_append.mp hhandled with hhandled | hhandled
      · exact h.omitted handled hhandled
      · intro hnot
        rw [List.mem_singleton.mp hhandled] at hnot ⊢
        rw [show isRecorded S.detection faults e.caches item = false from hnot]
        exact omittable_of_isRecorded hnot
  unfold Engine.handle
  dsimp only
  split
  · exact hkept.of_same rfl rfl rfl rfl
  · split <;> exact hkept.of_same rfl rfl rfl rfl

theorem buffered_handle (h : e.buffers.HasRoom (RecordBuffers.limit S))
    (holdest : e.oldestBufferedAt.isSome = !e.buffers.isEmpty) (item : StreamItem)
    (faults : Faults) (bufferedAt now : ℚ) : (e.handle S item faults bufferedAt now).Buffered S := by
  have hfits := h.keep (isRecorded S.detection faults e.caches item) item
  unfold Engine.handle
  dsimp only
  split
  · rename_i hempty
    refine ⟨RecordBuffers.hasRoom_of_isEmpty hempty (RecordBuffers.limit_pos S), ?_⟩
    show e.oldestBufferedAt.isSome = !(e.buffers.keep _ item).isEmpty
    rw [hempty, holdest, RecordBuffers.isEmpty_of_keep hempty]
  · rename_i hne
    split
    · exact ⟨hfits, Bool.eq_false_iff.mpr hne⟩
    · rename_i hnot
      rw [Bool.or_eq_true, not_or] at hnot
      refine ⟨RecordBuffers.hasRoom_of_not_full (Bool.eq_false_iff.mpr hnot.1), ?_⟩
      show true = !(e.buffers.keep _ item).isEmpty
      rw [Bool.eq_false_iff.mpr hne]
      rfl

theorem Inv.step {event : EngineEvent C} (h : e.Inv S) (hstep : e.step S event = some e') :
    e'.Inv S := by
  have hflows : e'.Flows := h.flows.step hstep
  have hbuffered := h.buffered
  unfold Buffered at hbuffered
  cases step_cases hstep with
  | yields _ _ =>
      refine h.of_same hflows ?_ ?_ ?_ ?_ ?_ ?_ <;> unfold Engine.yields Engine.put? <;>
        dsimp only <;> cases e.queue.put? (some _) <;> rfl
  | puts _ _ hput =>
      obtain ⟨queue, -, rfl⟩ := Option.map_eq_some_iff.mp hput
      exact h.of_same hflows rfl rfl rfl rfl rfl rfl
  | take hwaiting _ =>
      rw [hwaiting] at hbuffered
      exact ⟨hflows, h.kept.of_same rfl rfl rfl rfl, hbuffered⟩
  | @takeLast queue hwaiting _ =>
      rw [hwaiting] at hbuffered
      exact ⟨hflows, h.kept.of_same rfl rfl rfl rfl,
        @buffered_leave C S ({ e with queue := queue }.taskDone) hbuffered.1.fits false⟩
  | due hwaiting holdest =>
      rw [hwaiting] at hbuffered
      refine ⟨hflows, h.kept.of_same rfl rfl rfl rfl, hbuffered.1.fits, ?_⟩
      exact h.buffered.nonempty_of_oldest hwaiting holdest
  | handle hhandling =>
      rw [hhandling] at hbuffered
      obtain ⟨-, hnone, -⟩ := h.flows.running (by rw [hhandling]; rfl)
      exact ⟨hflows, h.kept.handle hnone _ _ _ _, buffered_handle hbuffered.1 hbuffered.2 _ _ _ _⟩
  | flushed hflushing =>
      rw [hflushing] at hbuffered
      obtain ⟨hkept, hafter⟩ := kept_flushed h.kept hbuffered.1 hbuffered.2 _
      exact ⟨hflows, hkept, hafter⟩
  | interrupt _ hinterrupt => exact h.interrupt hflows hinterrupt
  | _ => exact h.of_same hflows rfl rfl rfl rfl rfl rfl

end

theorem inv_start (S : EngineSettings) (maxsize producers : Nat) (cache : C) :
    (start maxsize producers cache).Inv S where
  flows := by
    refine ⟨fun i producer hi => ?_, ⟨rfl, rfl, fun h => (by cases h), fun h => (by cases h),
      fun h => absurd rfl h⟩, fun h => (by cases h), fun h => (by cases h), .inl rfl,
      fun h => (by cases h)⟩
    obtain rfl : producer = .reading :=
      List.eq_of_mem_replicate (List.mem_of_getElem? hi)
    rfl
  kept := ⟨rfl, rfl, fun handled h => absurd h List.not_mem_nil,
    fun batch h => absurd h List.not_mem_nil⟩
  buffered := ⟨RecordBuffers.hasRoom_of_isEmpty rfl (RecordBuffers.limit_pos S), rfl⟩

/-- What the consumer has not handled yet, or was cancelled at. -/
def left (e : Engine C) : List StreamItem :=
  e.consumer.inHand ++ e.cut ++ e.queue.items.filterMap id

/-- Every item is handled, and every record is in a stored batch. -/
structure Drained (e : Engine C) : Prop where
  handled : e.accepted.map Prod.snd = e.handled.map HandledItem.item
  stopped : e.allStopped = true
  ticks : e.batches.flatMap RecordBuffers.ticks
    = ((e.handled.filter HandledItem.recorded).map HandledItem.item).filterMap StreamItem.tick?
  feedEvents : e.batches.flatMap RecordBuffers.feedEvents
    = ((e.handled.filter HandledItem.recorded).map HandledItem.item).filterMap StreamItem.feedEvent?

theorem Inv.drained (h : e.Inv S) (hdrained : e.task = .drained) : e.Drained := by
  have hended := h.flows.drained hdrained
  have hbuffered := h.buffered
  unfold Buffered at hbuffered
  rw [hended] at hbuffered
  have hempty := hbuffered.2 rfl
  rw [RecordBuffers.isEmpty, Bool.and_eq_true, List.isEmpty_iff, List.isEmpty_iff] at hempty
  obtain ⟨hitems, -⟩ := h.flows.leftCleanly (by rw [hended]; rfl)
  have hnone : e.interrupted = none := by
    rcases h.flows.interrupted with hnone | ⟨-, htask | htask⟩
    · exact hnone
    · rw [hdrained] at htask
      cases htask
    · rw [hdrained] at htask
      cases htask
  have hrecorded : e.recorded = (e.handled.filter HandledItem.recorded).map HandledItem.item := by
    rw [recorded, hnone]
    exact List.append_nil _
  refine ⟨?_, h.flows.flows.stopped (by rw [hdrained]; decide) (by rw [hdrained]; decide)
    (by rw [hdrained]; decide), ?_, ?_⟩
  · have horder := h.flows.flows.order
    rw [hended, hitems, cut, hnone] at horder
    simpa [ConsumerTask.inHand] using horder
  · have hticks := h.kept.ticks
    rwa [hempty.1, List.append_nil, hrecorded] at hticks
  · have hevents := h.kept.feedEvents
    rwa [hempty.2, List.append_nil, hrecorded] at hevents

section
variable [EdgeCache C]

/-- The buffered records have a time they are written at. -/
structure Writes (S : EngineSettings) (e : Engine C) : Prop where
  fits : e.buffers.Fits (RecordBuffers.limit S)
  due : e.consumer = .waiting → e.buffers.isEmpty = false → ∃ oldest,
    e.oldestBufferedAt = some oldest ∧
      ∀ now, oldest + S.flushInterval ≤ now → (e.step S (.due now)).isSome = true

theorem Inv.writes (h : e.Inv S) : e.Writes S := by
  have hbuffered := h.buffered
  unfold Buffered at hbuffered
  constructor
  · cases hconsumer : e.consumer with
    | waiting => rw [hconsumer] at hbuffered; exact hbuffered.1.fits
    | handling item => rw [hconsumer] at hbuffered; exact hbuffered.1.fits
    | flushing reason => rw [hconsumer] at hbuffered; exact hbuffered.1
    | ended failed => rw [hconsumer] at hbuffered; exact hbuffered.1
  · intro hwaiting hne
    rw [hwaiting] at hbuffered
    have hsome := hbuffered.2
    rw [hne, Bool.not_false] at hsome
    obtain ⟨oldest, holdest⟩ := Option.isSome_iff_exists.mp hsome
    refine ⟨oldest, holdest, fun now hnow => ?_⟩
    unfold Engine.step
    dsimp only
    rw [hwaiting, holdest]
    dsimp only
    rw [if_pos hnow]
    rfl

variable {maxsize producers : Nat} {cache : C} {events : List (EngineEvent C)}

theorem inv_of_run (h : runFrom (step S) (start maxsize producers cache) events = some e) :
    e.Inv S :=
  runFrom_inv (Inv S) (fun _ _ _ hinv hstep => hinv.step hstep) (inv_start S maxsize producers cache) h

end

end

def settings : EngineSettings := ⟨2, 30, .exact, .default⟩

/-- The signal comes during a flush, while the second producer still waits for a slot. -/
def drainedRun : List (EngineEvent EdgeRedis) :=
  [.yields 0 (.feedEvent ⟨"listed", 10000⟩),
    .yields 0 (.tick (.listing "skinport" "AK-47" 900 10 "a" isVenueName_skinport)), .take,
    .handle .none 1 1, .puts 0,
    .yields 1 (.tick (.snapshot "skinport" "AK-47" 950 11 isVenueName_skinport)),
    .take, .handle .none 31 31, .signal, .flushed .stored, .stops 1, .stops 0, .producersDone,
    .joined, .take, .consumerDone]

end Engine

end BrandSniper
