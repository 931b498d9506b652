import BrandSniper.Kit.Runs
import BrandSniper.Listener.Consumer

/-!
# What the consumer records

The loop of `tick_consumer` with its buffers: what an item adds to
`batch_buffer` and `feed_event_buffer`, and when they are handed over to the
batch store. An exception while an item is handled ends that item only. An
exception of a flush ends the loop, after one more flush.

Recording is to be independent of the decision path. It is, but for one
command and one conversion: the size of an unchanged snapshot's window is read
before the snapshot is recorded, and a record needs the `price_cents` that may
raise (`recordsEveryItem_iff`).

A record is kept as the tick or the event it is made of.
-/

namespace BrandSniper.Recording

open Kit

/-- `CHUNK_LIMIT` and `FLUSH_INTERVAL_SECONDS` -/
structure RecordingSettings where
  chunkLimit : Nat
  flushIntervalSeconds : ℚ

/-- What raises while one item is handled. -/
structure TurnFaults where
  redis : Faults
  /-- `anomaly_pool.submit` -/
  submit : Bool

/-- An exception that the loop catches. -/
inductive ItemError
  | python (e : PyError)
  | poolNotRunning

/-- How `flush_batch_buffer` ends. It clears the buffers once the batch is stored. -/
inductive FlushOutcome
  | done
  | storeRaised
  | scheduleRaised
  deriving DecidableEq

/-- The state of the loop. `handedOver` are the batches that left the buffers. -/
structure Loop (C : Type) where
  consumer : Consumer C
  batchBuffer : List PricedTick
  feedEventBuffer : List FeedEvent
  oldestBufferedAt : Option ℚ
  handedOver : List (List PricedTick × List FeedEvent)
  running : Bool

section

variable {C : Type} [EdgeCache C]

def Loop.start (cache : C) : Loop C where
  consumer := .start cache
  batchBuffer := []
  feedEventBuffer := []
  oldestBufferedAt := none
  handedOver := []
  running := true

/-- Some record waits in the buffers. -/
def Loop.buffers (s : Loop C) : Bool := !s.batchBuffer.isEmpty || !s.feedEventBuffer.isEmpty

def Loop.append (s : Loop C) (tick : PricedTick) : Loop C :=
  { s with batchBuffer := s.batchBuffer ++ [tick] }

/-! ## One item -/

/-- A tick that is an offer and no duplicate. -/
def handleOffer (F : FloatArith) (S : DetectionSettings) (faults : TurnFaults) (s : Loop C)
    (tick : PricedTick) : Loop C × Except ItemError Unit :=
  let dedup := s.consumer.dedup
  let cache := s.consumer.cache
  let unchangedSnapshot := isUnchangedSnapshot tick dedup
  match
    if unchangedSnapshot then unchangedSnapshotEntersPriceWindow S faults.redis tick dedup cache
    else .ok true with
  | .error e => (s, .error (.python e))
  | .ok entersWindow =>
      let dedup := updateDedupCache S tick dedup entersWindow
      let s := s.append tick
      if unchangedSnapshot then
        if entersWindow then
          let pushed := pushToWindow S faults.redis tick cache
          ({ s with consumer := ⟨dedup, pushed.1⟩ }, pushed.2.mapError .python)
        else ({ s with consumer := ⟨dedup, cache⟩ }, .ok ())
      else
        let detected := updateWindowAndDetect F S faults.redis tick cache
        ({ s with consumer := ⟨dedup, detected.1⟩ },
          match detected.2 with
          | .error e => .error (.python e)
          | .ok none => .ok ()
          | .ok (some _) => if faults.submit then .error .poolNotRunning else .ok ())

/-- The body of the inner `try`. -/
def handleItem (F : FloatArith) (S : DetectionSettings) (faults : TurnFaults) (s : Loop C)
    (item : StreamItem) : Loop C × Except ItemError Unit :=
  match item with
  | .feedEvent event => ({ s with feedEventBuffer := s.feedEventBuffer ++ [event] }, .ok ())
  | .tick tick =>
      if ¬ tick.feedsPriceWindow then (s.append tick, .ok ())
      else if isDuplicate tick s.consumer.dedup then
        if tick.listingId.isSome || tick.isRestSnapshot then (s.append tick, .ok ())
        else (s, .ok ())
      else handleOffer F S faults s tick
  -- the price is read before anything changes
  | .unpriced _ => (s, .error (.python .overflowError))

/-! ## Flushing -/

/-- `flush`, and whether it raises. -/
def flush (s : Loop C) : FlushOutcome → Loop C × Bool
  | .done =>
      ({ s with
        handedOver := s.handedOver ++ [(s.batchBuffer, s.feedEventBuffer)]
        batchBuffer := []
        feedEventBuffer := []
        oldestBufferedAt := none }, false)
  | .storeRaised => (s, true)
  | .scheduleRaised =>
      ({ s with
        handedOver := s.handedOver ++ [(s.batchBuffer, s.feedEventBuffer)]
        batchBuffer := []
        feedEventBuffer := [] }, true)

/-- The outer `finally`. -/
def finish (s : Loop C) (last : FlushOutcome) : Loop C :=
  { (if s.buffers then (flush s last).1 else s) with running := false }

/-- A flush inside the loop: an exception of it ends the loop. -/
def flushInLoop (s : Loop C) (outcome last : FlushOutcome) : Loop C :=
  let flushed := flush s outcome
  if flushed.2 then finish flushed.1 last else flushed.1

/-- Persist full or old buffers. The clock is read at `arrivedAt` and again at `checkedAt`. -/
def flushIfDue (R : RecordingSettings) (s : Loop C) (arrivedAt checkedAt : ℚ)
    (outcome last : FlushOutcome) : Loop C :=
  if s.buffers then
    let oldest := s.oldestBufferedAt.getD arrivedAt
    let s := { s with oldestBufferedAt := some oldest }
    if R.chunkLimit ≤ s.batchBuffer.length ∨ R.chunkLimit ≤ s.feedEventBuffer.length ∨
        R.flushIntervalSeconds ≤ checkedAt - oldest then
      flushInLoop s outcome last
    else s
  else s

/-! ## Turns -/

/-- What the loop waits for: an item, records that are due while the feed is quiet, or the
end of the stream. -/
inductive Event
  | item (faults : TurnFaults) (item : StreamItem) (arrivedAt checkedAt : ℚ)
      (outcome last : FlushOutcome)
  | quiet (outcome last : FlushOutcome)
  | endOfStream (last : FlushOutcome)

/-- One turn of the loop. -/
def step (F : FloatArith) (S : DetectionSettings) (R : RecordingSettings) (s : Loop C) :
    Event → Option (Loop C)
  | .item faults item arrivedAt checkedAt outcome last =>
      if s.running then
        some (flushIfDue R (handleItem F S faults s item).1 arrivedAt checkedAt outcome last)
      else none
  | .quiet outcome last =>
      if s.running ∧ s.oldestBufferedAt.isSome then some (flushInLoop s outcome last) else none
  | .endOfStream last => if s.running then some (finish s last) else none

/-- The caches move as the consumer's model says. -/
theorem handleItem_consumer (F : FloatArith) (S : DetectionSettings) (faults : TurnFaults)
    (s : Loop C) (item : StreamItem) :
    (handleItem F S faults s item).1.consumer =
      (consumeItem F S faults.redis s.consumer item).1 := by
  cases item with
  | feedEvent event => rfl
  | unpriced tick => rfl
  | tick tick =>
      rw [handleItem, consumeItem]
      split
      · rfl
      · split
        · split <;> rfl
        · rw [handleOffer, consumeOffer]
          cases isUnchangedSnapshot tick s.consumer.dedup with
          | false => rfl
          | true =>
              simp only [if_true]
              cases unchangedSnapshotEntersPriceWindow S faults.redis tick s.consumer.dedup
                s.consumer.cache with
              | error e => rfl
              | ok entersWindow => cases entersWindow <;> rfl

/-! ## What is recorded -/

/-- Every tick appended to `batch_buffer` so far, in order. -/
def Loop.recordedTicks (s : Loop C) : List MarketTick :=
  (s.handedOver.flatMap Prod.fst ++ s.batchBuffer).map PricedTick.toMarketTick

/-- Every event appended to `feed_event_buffer` so far, in order. -/
def Loop.recordedEvents (s : Loop C) : List FeedEvent :=
  s.handedOver.flatMap Prod.snd ++ s.feedEventBuffer

/-- A tick that is to be recorded: an outcome, a listing, a snapshot, or no duplicate. One
without a price in cents is at the price of no other. -/
def isDue (tick : PricedTick) (d : DedupCache) : Bool :=
  !tick.feedsPriceWindow || tick.listingId.isSome || tick.isRestSnapshot || !isDuplicate tick d

/-- The ticks of an event that are to be recorded. -/
def dueTicks (s : Loop C) : Event → List MarketTick
  | .item _ (.tick tick) _ _ _ _ => if isDue tick s.consumer.dedup then [tick.toMarketTick] else []
  | .item _ (.unpriced tick) _ _ _ _ => [tick.toMarketTick]
  | _ => []

/-- The feed events of an event. -/
def dueEvents : Event → List FeedEvent
  | .item _ (.feedEvent event) _ _ _ _ => [event]
  | _ => []

/-- The ticks of a run that are to be recorded, in the order of the queue. -/
def runDueTicks (F : FloatArith) (S : DetectionSettings) (R : RecordingSettings) :
    Loop C → List Event → List MarketTick
  | _, [] => []
  | s, e :: rest =>
      match step F S R s e with
      | none => []
      | some s' => dueTicks s e ++ runDueTicks F S R s' rest

/-- The tick has no price in cents, or is an unchanged snapshot whose window size has to be read,
and the read raises. -/
def RecordLost (s : Loop C) : Event → Prop
  | .item faults (.tick tick) _ _ _ _ =>
      tick.feedsPriceWindow = true ∧ isDuplicate tick s.consumer.dedup = false ∧
        isUnchangedSnapshot tick s.consumer.dedup = true ∧
        hourlySnapshotDue tick.timestamp
          ((s.consumer.dedup.get tick).bind (·.snapshotWindowedAt)) = false ∧
        faults.redis.zcardUnchanged = true
  | .item _ (.unpriced _) _ _ _ _ => True
  | _ => False

/-! ### Flushing loses nothing -/

omit [EdgeCache C] in
theorem recordedTicks_flush (s : Loop C) (outcome : FlushOutcome) :
    (flush s outcome).1.recordedTicks = s.recordedTicks := by
  cases outcome <;> simp [flush, Loop.recordedTicks]

omit [EdgeCache C] in
theorem recordedEvents_flush (s : Loop C) (outcome : FlushOutcome) :
    (flush s outcome).1.recordedEvents = s.recordedEvents := by
  cases outcome <;> simp [flush, Loop.recordedEvents]

omit [EdgeCache C] in
theorem recorded_finish (s : Loop C) (last : FlushOutcome) :
    (finish s last).recordedTicks = s.recordedTicks ∧
      (finish s last).recordedEvents = s.recordedEvents := by
  rw [finish]
  split
  · exact ⟨recordedTicks_flush s last, recordedEvents_flush s last⟩
  · exact ⟨rfl, rfl⟩

omit [EdgeCache C] in
theorem recorded_flushInLoop (s : Loop C) (outcome last : FlushOutcome) :
    (flushInLoop s outcome last).recordedTicks = s.recordedTicks ∧
      (flushInLoop s outcome last).recordedEvents = s.recordedEvents := by
  have hticks := recordedTicks_flush s outcome
  have hevents := recordedEvents_flush s outcome
  simp only [flushInLoop]
  split
  · obtain ⟨h1, h2⟩ := recorded_finish (flush s outcome).1 last
    exact ⟨h1.trans hticks, h2.trans hevents⟩
  · exact ⟨hticks, hevents⟩

omit [EdgeCache C] in
theorem recorded_flushIfDue (R : RecordingSettings) (s : Loop C) (arrivedAt checkedAt : ℚ)
    (outcome last : FlushOutcome) :
    (flushIfDue R s arrivedAt checkedAt outcome last).recordedTicks = s.recordedTicks ∧
      (flushIfDue R s arrivedAt checkedAt outcome last).recordedEvents = s.recordedEvents := by
  simp only [flushIfDue]
  split
  · split
    · apply recorded_flushInLoop
    · exact ⟨rfl, rfl⟩
  · exact ⟨rfl, rfl⟩

/-! ### One item -/

omit [EdgeCache C] in
theorem recordedTicks_append (s : Loop C) (tick : PricedTick) :
    (s.append tick).recordedTicks = s.recordedTicks ++ [tick.toMarketTick] := by
  simp [Loop.append, Loop.recordedTicks]

/-- An offer is recorded unless the window size is not known. -/
theorem recordedTicks_handleOffer (F : FloatArith) (S : DetectionSettings) (faults : TurnFaults)
    (s : Loop C) (tick : PricedTick) :
    (handleOffer F S faults s tick).1.recordedTicks =
      if isUnchangedSnapshot tick s.consumer.dedup ∧
          hourlySnapshotDue tick.timestamp
            ((s.consumer.dedup.get tick).bind (·.snapshotWindowedAt)) = false ∧
          faults.redis.zcardUnchanged
      then s.recordedTicks else s.recordedTicks ++ [tick.toMarketTick] := by
  rw [handleOffer]
  cases hunchanged : isUnchangedSnapshot tick s.consumer.dedup with
  | false =>
      simp only [Bool.false_eq_true, if_false, false_and]
      exact recordedTicks_append s tick
  | true =>
      simp only [if_true, unchangedSnapshotEntersPriceWindow, true_and]
      cases hourlySnapshotDue tick.timestamp
        ((s.consumer.dedup.get tick).bind (·.snapshotWindowedAt)) with
      | true =>
          simp only [if_true, Bool.true_eq_false, false_and, if_false]
          exact recordedTicks_append s tick
      | false =>
          cases faults.redis.zcardUnchanged with
          | true => rfl
          | false =>
              simp only [Bool.false_eq_true, if_false, and_false]
              split <;> exact recordedTicks_append s tick

theorem recordedEvents_handleOffer (F : FloatArith) (S : DetectionSettings) (faults : TurnFaults)
    (s : Loop C) (tick : PricedTick) :
    (handleOffer F S faults s tick).1.recordedEvents = s.recordedEvents := by
  simp only [handleOffer]
  split
  · rfl
  · split
    · split <;> rfl
    · rfl

theorem isDue_of_offer {tick : PricedTick} {d : DedupCache} (h : isDuplicate tick d = false) :
    isDue tick d = true := by
  simp [isDue, h]

/-- An item that meets the condition adds what is to be recorded of it, and any other adds
nothing. -/
theorem recordedTicks_handleItem (F : FloatArith) (S : DetectionSettings) (faults : TurnFaults)
    (s : Loop C) (item : StreamItem) (arrivedAt checkedAt : ℚ) (outcome last : FlushOutcome) :
    (¬ RecordLost s (.item faults item arrivedAt checkedAt outcome last) →
      (handleItem F S faults s item).1.recordedTicks = s.recordedTicks ++
        dueTicks s (.item faults item arrivedAt checkedAt outcome last)) ∧
    (RecordLost s (.item faults item arrivedAt checkedAt outcome last) →
      (handleItem F S faults s item).1.recordedTicks = s.recordedTicks ∧
        (dueTicks s (.item faults item arrivedAt checkedAt outcome last)).length = 1) := by
  cases item with
  | feedEvent event =>
      refine ⟨fun _ => ?_, False.elim⟩
      simp [handleItem, dueTicks, Loop.recordedTicks]
  | unpriced tick => exact ⟨fun h => absurd trivial h, fun _ => ⟨rfl, rfl⟩⟩
  | tick tick =>
      simp only [dueTicks, RecordLost, handleItem]
      cases hfeeds : tick.feedsPriceWindow with
      | false => simp [isDue, hfeeds, recordedTicks_append]
      | true =>
          cases hdup : isDuplicate tick s.consumer.dedup with
          | true =>
              cases hkept : tick.listingId.isSome || tick.isRestSnapshot <;>
                simp [isDue, hfeeds, hdup, hkept, recordedTicks_append]
          | false =>
              simp only [not_true_eq_false, if_false, Bool.false_eq_true, true_and,
                recordedTicks_handleOffer, isDue_of_offer hdup, if_true, List.length_singleton,
                and_true]
              exact ⟨fun h => if_neg h, fun h => if_pos h⟩

theorem recordedEvents_handleItem (F : FloatArith) (S : DetectionSettings) (faults : TurnFaults)
    (s : Loop C) (item : StreamItem) (arrivedAt checkedAt : ℚ) (outcome last : FlushOutcome) :
    (handleItem F S faults s item).1.recordedEvents = s.recordedEvents ++
      dueEvents (.item faults item arrivedAt checkedAt outcome last) := by
  cases item with
  | feedEvent event => simp [handleItem, dueEvents, Loop.recordedEvents]
  | unpriced tick => exact (List.append_nil _).symm
  | tick tick =>
      show _ = s.recordedEvents ++ []
      rw [List.append_nil, handleItem]
      split
      · rfl
      · split
        · split <;> rfl
        · exact recordedEvents_handleOffer F S faults s tick

/-! ### One turn -/

theorem recordedTicks_step {F : FloatArith} {S : DetectionSettings} {R : RecordingSettings}
    {s s' : Loop C} {e : Event} (h : step F S R s e = some s') :
    (¬ RecordLost s e → s'.recordedTicks = s.recordedTicks ++ dueTicks s e) ∧
    (RecordLost s e →
      s'.recordedTicks = s.recordedTicks ∧ (dueTicks s e).length = 1) := by
  cases e with
  | item faults item arrivedAt checkedAt outcome last =>
      obtain ⟨-, hs'⟩ := Option.ite_none_right_eq_some.mp h
      obtain rfl := Option.some_inj.mp hs'
      rw [(recorded_flushIfDue R _ arrivedAt checkedAt outcome last).1]
      exact recordedTicks_handleItem F S faults s item arrivedAt checkedAt outcome last
  | quiet outcome last =>
      obtain ⟨-, hs'⟩ := Option.ite_none_right_eq_some.mp h
      obtain rfl := Option.some_inj.mp hs'
      rw [(recorded_flushInLoop s outcome last).1]
      exact ⟨fun _ => (List.append_nil _).symm, False.elim⟩
  | endOfStream last =>
      obtain ⟨-, hs'⟩ := Option.ite_none_right_eq_some.mp h
      obtain rfl := Option.some_inj.mp hs'
      rw [(recorded_finish s last).1]
      exact ⟨fun _ => (List.append_nil _).symm, False.elim⟩

theorem recordedEvents_step {F : FloatArith} {S : DetectionSettings} {R : RecordingSettings}
    {s s' : Loop C} {e : Event} (h : step F S R s e = some s') :
    s'.recordedEvents = s.recordedEvents ++ dueEvents e := by
  cases e with
  | item faults item arrivedAt checkedAt outcome last =>
      obtain ⟨-, hs'⟩ := Option.ite_none_right_eq_some.mp h
      obtain rfl := Option.some_inj.mp hs'
      rw [(recorded_flushIfDue R _ arrivedAt checkedAt outcome last).2]
      exact recordedEvents_handleItem F S faults s item arrivedAt checkedAt outcome last
  | quiet outcome last =>
      obtain ⟨-, hs'⟩ := Option.ite_none_right_eq_some.mp h
      obtain rfl := Option.some_inj.mp hs'
      rw [(recorded_flushInLoop s outcome last).2]
      exact (List.append_nil _).symm
  | endOfStream last =>
      obtain ⟨-, hs'⟩ := Option.ite_none_right_eq_some.mp h
      obtain rfl := Option.some_inj.mp hs'
      rw [(recorded_finish s last).2]
      exact (List.append_nil _).symm

/-! ### Runs -/

theorem recordedEvents_run {F : FloatArith} {S : DetectionSettings} {R : RecordingSettings}
    {s s' : Loop C} {events : List Event} (h : runFrom (step F S R) s events = some s') :
    s'.recordedEvents = s.recordedEvents ++ events.flatMap dueEvents := by
  induction events generalizing s with
  | nil =>
      obtain rfl := Option.some_inj.mp h
      simp
  | cons e rest ih =>
      obtain ⟨mid, hmid, hrest⟩ := Option.bind_eq_some_iff.mp h
      rw [ih hrest, recordedEvents_step hmid, List.flatMap_cons, List.append_assoc]

/-- No more is recorded than is to be. -/
theorem length_recordedTicks_run_le {F : FloatArith} {S : DetectionSettings}
    {R : RecordingSettings} {s s' : Loop C} {events : List Event}
    (h : runFrom (step F S R) s events = some s') :
    s'.recordedTicks.length ≤ s.recordedTicks.length + (runDueTicks F S R s events).length := by
  induction events generalizing s with
  | nil =>
      obtain rfl := Option.some_inj.mp h
      simp
  | cons e rest ih =>
      obtain ⟨mid, hmid, hrest⟩ := Option.bind_eq_some_iff.mp h
      have hle := ih hrest
      obtain ⟨hkept, hlost⟩ := recordedTicks_step hmid
      simp only [runDueTicks, hmid, List.length_append]
      by_cases hloss : RecordLost s e
      · rw [(hlost hloss).1] at hle
        omega
      · rw [hkept hloss, List.length_append] at hle
        omega

/-- A lost tick stays lost: the run is short of it to the end. -/
theorem recordedTicks_run_iff {F : FloatArith} {S : DetectionSettings} {R : RecordingSettings}
    {s s' : Loop C} {events : List Event} (h : runFrom (step F S R) s events = some s') :
    s'.recordedTicks = s.recordedTicks ++ runDueTicks F S R s events ↔
      AllSteps (step F S R) (fun s e => ¬ RecordLost s e) s events := by
  induction events generalizing s with
  | nil =>
      obtain rfl := Option.some_inj.mp h
      exact iff_of_true (List.append_nil _).symm .nil
  | cons e rest ih =>
      obtain ⟨mid, hmid, hrest⟩ := Option.bind_eq_some_iff.mp h
      obtain ⟨hkept, hlost⟩ := recordedTicks_step hmid
      have hone : runFrom (step F S R) s [e] = some mid := by
        rw [runFrom, hmid, Option.bind_some, runFrom_nil]
      simp only [runDueTicks, hmid]
      by_cases hloss : RecordLost s e
      · refine iff_of_false ?_ ?_
        · intro hall
          have hle := length_recordedTicks_run_le hrest
          rw [hall, (hlost hloss).1, List.length_append, List.length_append, (hlost hloss).2] at hle
          omega
        · intro hsteps
          exact hsteps [] e s (List.prefix_append [e] rest) rfl hloss
      · rw [← List.append_assoc, ← hkept hloss, ih hrest]
        constructor
        · intro hsteps
          refine .cons hloss fun s' hs' => ?_
          rw [hmid] at hs'
          rwa [← Option.some_inj.mp hs']
        · intro hsteps
          exact AllSteps.of_append (p := [e]) hsteps hone

/-- After a run from the start, the events and the ticks that are to be recorded have been
appended to their buffers, each once and in the order of the queue, if and only if no record was
lost on the way. -/
theorem recordsEveryItem_iff {F : FloatArith} {S : DetectionSettings} {R : RecordingSettings}
    {cache : C} {events : List Event} {s : Loop C}
    (h : runFrom (step F S R) (.start cache) events = some s) :
    (s.recordedEvents = events.flatMap dueEvents ∧
        s.recordedTicks = runDueTicks F S R (.start cache) events) ↔
      AllSteps (step F S R) (fun s e => ¬ RecordLost s e) (.start cache) events := by
  have hevents := recordedEvents_run h
  have hticks := recordedTicks_run_iff h
  rw [← hticks]
  exact and_iff_right hevents

end

/-! ### An unchanged snapshot within the hour -/

def noFaults : TurnFaults := ⟨.none, false⟩

/-- A snapshot, and the same price again seven minutes later, while the window cannot be
read. -/
def unreadableWindow : List Event :=
  [.item noFaults (.tick (.snapshot "skinport" "AK-47" 1000 0 isVenueName_skinport)) 0 0
      .done .done,
    .item ⟨{ Faults.none with zcardUnchanged := true }, false⟩
      (.tick (.snapshot "skinport" "AK-47" 1000 420 isVenueName_skinport)) 420 420 .done .done]

/-- 2500 records or ten seconds. -/
def RecordingSettings.default : RecordingSettings := ⟨2500, 10⟩

theorem recordsEveryItem_iff_unreadableWindow :
    ∃ s : Loop EdgeRedis,
      runFrom (step .exact .default .default) (.start EdgeRedis.empty) unreadableWindow = some s ∧
      ((s.recordedEvents = unreadableWindow.flatMap dueEvents ∧
          s.recordedTicks =
            runDueTicks .exact .default .default (.start EdgeRedis.empty) unreadableWindow) ↔
        AllSteps (step .exact .default .default) (fun s e => ¬ RecordLost s e)
          (.start EdgeRedis.empty) unreadableWindow) := by
  obtain ⟨s, hs⟩ := Option.isSome_iff_exists.mp (by decide +kernel :
    (runFrom (step .exact .default .default) (.start EdgeRedis.empty) unreadableWindow).isSome)
  exact ⟨s, hs, recordsEveryItem_iff hs⟩

/-- The second snapshot is to be recorded and is not. -/
theorem not_recordsEveryItem_unreadableWindow :
    ¬ ∀ (events : List Event) (s : Loop EdgeRedis),
      runFrom (step .exact .default .default) (.start EdgeRedis.empty) events = some s →
        s.recordedEvents = events.flatMap dueEvents ∧
          s.recordedTicks =
            runDueTicks .exact .default .default (.start EdgeRedis.empty) events := by
  intro hall
  obtain ⟨s, hs⟩ := Option.isSome_iff_exists.mp (by decide +kernel :
    (runFrom (step .exact .default .default) (.start EdgeRedis.empty) unreadableWindow).isSome)
  have hrecorded : ((runFrom (step .exact .default .default) (.start EdgeRedis.empty)
      unreadableWindow).map fun s => s.recordedTicks.length) = some 1 := by decide +kernel
  have hdue : (runDueTicks .exact .default .default (.start EdgeRedis.empty)
      unreadableWindow).length = 2 := by decide +kernel
  rw [hs, Option.map_some, (hall unreadableWindow s hs).2, hdue] at hrecorded
  cases hrecorded

end BrandSniper.Recording
