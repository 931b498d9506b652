import BrandSniper.Kit.BoundedQueue
import BrandSniper.Kit.Runs
import BrandSniper.Listener.Consumer

/-!
# The stream engine

`process_live_telemetry_stream` of `apps/listener/main.py` with its producers
and the loop of `tick_consumer`: tasks that share a bounded queue and take
turns. Any task that can go on may be the next one to do so, and an await may
take any time.

On a signal the producers are cancelled, the queue is drained, and the
consumer is told to stop by a last item. Draining may take too long; then the
consumer is cancelled. A failed flush ends the consumer, and the engine with
it. Before it ends, the consumer tries to write what it still has.
-/

namespace BrandSniper

open Kit

/-! ## What the consumer keeps of an item -/

/-- The two buffers of records. -/
structure RecordBuffers where
  ticks : List PricedTick
  feedEvents : List FeedEvent

namespace RecordBuffers

def empty : RecordBuffers := ⟨[], []⟩

def isEmpty (buffers : RecordBuffers) : Bool :=
  buffers.ticks.isEmpty && buffers.feedEvents.isEmpty

def add (buffers : RecordBuffers) : StreamItem → RecordBuffers
  | .feedEvent event => { buffers with feedEvents := buffers.feedEvents ++ [event] }
  | .tick tick => { buffers with ticks := buffers.ticks ++ [tick] }
  -- it has no record
  | .unpriced _ => buffers

/-- The buffers after an item, if its record is added. -/
def keep (buffers : RecordBuffers) (recorded : Bool) (item : StreamItem) : RecordBuffers :=
  if recorded then buffers.add item else buffers

/-- One of the buffers is full. -/
def full (buffers : RecordBuffers) (chunkLimit : Int) : Bool :=
  decide (chunkLimit ≤ buffers.ticks.length) || decide (chunkLimit ≤ buffers.feedEvents.length)

end RecordBuffers

/-- The tick of an item that has a record. -/
def StreamItem.tick? : StreamItem → Option PricedTick
  | .tick t => some t
  | _ => none

def StreamItem.feedEvent? : StreamItem → Option FeedEvent
  | .feedEvent e => some e
  | _ => none

/-- The item can be recorded: it is a feed event, or a tick whose `price_cents` does not raise. -/
def StreamItem.hasRecord : StreamItem → Bool
  | .unpriced _ => false
  | _ => true

section
variable {C : Type} [EdgeCache C]

/-- Whether an item's record is added to a buffer. -/
def isRecorded (S : DetectionSettings) (faults : Faults) (st : Consumer C) : StreamItem → Bool
  | .feedEvent _ => true
  | .tick tick =>
      if ¬ tick.feedsPriceWindow then true
      else if isDuplicate tick st.dedup then tick.listingId.isSome || tick.isRestSnapshot
      else if isUnchangedSnapshot tick st.dedup then
        match unchangedSnapshotEntersPriceWindow S faults tick st.dedup st.cache with
        | .error _ => false
        | .ok _ => true
      else true
  | .unpriced _ => false

end

/-! ## Tasks -/

structure EngineSettings where
  /-- `CHUNK_LIMIT` -/
  chunkLimit : Int
  /-- `FLUSH_INTERVAL_SECONDS` -/
  flushInterval : ℚ
  arith : FloatArith
  detection : DetectionSettings

inductive Producer where
  /-- Reads its feed, or waits to read it again. -/
  | reading
  /-- Waits for a slot of the queue. -/
  | putting (item : StreamItem)
  /-- Its task has ended, with an item that it did not put. -/
  | ended (dropped : Option StreamItem)

/-- What a flush is made for, and so what comes after it. -/
inductive FlushReason where
  /-- No item came until the records were due. -/
  | due
  /-- An item filled a buffer, or the records were due when it was handled. -/
  | item
  /-- The loop has ended, with an exception or after the last item. -/
  | last (failed : Bool)

inductive ConsumerTask where
  /-- Awaits an item, or the time the records are due. -/
  | waiting
  | handling (item : StreamItem)
  /-- Awaits `flush_batch_buffer`. -/
  | flushing (reason : FlushReason)
  | ended (failed : Bool)

inductive FlushOutcome where
  | stored
  /-- The batch is stored, and scheduling its delivery raised or was cancelled. -/
  | unscheduled
  /-- `store.add` raised or was cancelled. -/
  | failed

/-- How far the engine's own task is. -/
inductive EngineTask where
  /-- Awaits the signal. -/
  | running
  /-- Awaits the producers it has cancelled. -/
  | stoppingProducers
  /-- Awaits `queue.join()`. -/
  | joining
  /-- Has put the last item, and awaits the consumer. -/
  | awaitingConsumer
  | drained
  /-- The queue was not drained in time, and the consumer was cancelled. -/
  | timedOut
  /-- An exception, which cancels every task. -/
  | aborted
  deriving DecidableEq

/-- An item the consumer is done with. -/
structure HandledItem where
  item : StreamItem
  faults : Faults
  recorded : Bool

structure Engine (C : Type) where
  /-- `none` is the last item. -/
  queue : BoundedQueue (Option StreamItem)
  producers : List Producer
  task : EngineTask
  consumer : ConsumerTask
  caches : Consumer C
  buffers : RecordBuffers
  oldestBufferedAt : Option ℚ
  /-- What the producers have read, by producer. -/
  yielded : List (Nat × StreamItem)
  /-- What the queue has taken. -/
  accepted : List (Nat × StreamItem)
  handled : List HandledItem
  /-- The item in the consumer's hands when it was cancelled, and whether it was recorded. -/
  interrupted : Option (StreamItem × Bool)
  /-- What `store.add` has returned from. -/
  batches : List RecordBuffers

inductive EngineEvent (C : Type) where
  /-- A producer reads an item of its feed. -/
  | yields (i : Nat) (item : StreamItem)
  /-- A producer that waits for a slot gets one. -/
  | puts (i : Nat)
  | stops (i : Nat)
  | take
  /-- No item has come until the records are due. -/
  | due (now : ℚ)
  /-- An item is handled, with two readings of the clock. -/
  | handle (faults : Faults) (bufferedAt now : ℚ)
  | flushed (outcome : FlushOutcome)
  /-- The cancellation reaches the consumer while it waits or handles an item. -/
  | interrupt (recorded : Bool)
  /-- Another task writes to the edge Redis. -/
  | reload (cache : C)
  | signal
  | producersDone
  | joined
  | timeout
  | consumerDone
  /-- The consumer's task has ended with an exception, for which the others are cancelled. -/
  | consumerFailed
  /-- Another exception cancels every task. -/
  | abort

namespace Engine

variable {C : Type}

def start (maxsize : Nat) (producers : Nat) (cache : C) : Engine C where
  queue := .empty maxsize
  producers := List.replicate producers .reading
  task := .running
  consumer := .waiting
  caches := .start cache
  buffers := .empty
  oldestBufferedAt := none
  yielded := []
  accepted := []
  handled := []
  interrupted := none
  batches := []

/-- `queue.put` of a producer, if the queue has a slot. -/
def put? (e : Engine C) (i : Nat) (item : StreamItem) : Option (Engine C) :=
  (e.queue.put? (some item)).map fun queue =>
    { e with
      queue := queue
      producers := e.producers.set i .reading
      accepted := e.accepted ++ [(i, item)] }

def yields (e : Engine C) (i : Nat) (item : StreamItem) : Engine C :=
  let e := { e with yielded := e.yielded ++ [(i, item)] }
  (e.put? i item).getD { e with producers := e.producers.set i (.putting item) }

def taskDone (e : Engine C) : Engine C := { e with queue := e.queue.taskDone }

/-- The loop ends; what is still buffered is written. -/
def leave (e : Engine C) (failed : Bool) : Engine C :=
  { e with
    consumer := if e.buffers.isEmpty then .ended failed else .flushing (.last failed) }

/-- The consumer goes back to the queue. -/
def next (e : Engine C) : Engine C := { e with consumer := .waiting }

section
variable [EdgeCache C] (S : EngineSettings)

/-- One item, up to its flush or the next wait. -/
def handle (e : Engine C) (item : StreamItem) (faults : Faults) (bufferedAt now : ℚ) : Engine C :=
  let recorded := isRecorded S.detection faults e.caches item
  let buffers := e.buffers.keep recorded item
  let e := { e with
    caches := (consumeItem S.arith S.detection faults e.caches item).1
    buffers := buffers
    handled := e.handled ++ [HandledItem.mk item faults recorded] }
  if buffers.isEmpty then e.taskDone.next
  else
    let oldest := e.oldestBufferedAt.getD bufferedAt
    let e := { e with oldestBufferedAt := some oldest }
    if buffers.full S.chunkLimit || decide (S.flushInterval ≤ now - oldest) then
      { e with consumer := .flushing .item }
    else e.taskDone.next

end

/-- What follows a flush that has raised. -/
def raise (e : Engine C) : FlushReason → Engine C
  | .due => e.leave true
  | .item => e.taskDone.leave true
  | .last _ => { e with consumer := .ended true }

/-- The batch is in the store and the buffers are empty. -/
def cleared (e : Engine C) : Engine C :=
  { e with buffers := .empty, batches := e.batches ++ [e.buffers] }

def flushed (e : Engine C) (reason : FlushReason) : FlushOutcome → Engine C
  | .failed => e.raise reason
  | .unscheduled => e.cleared.raise reason
  | .stored =>
      let e := { e.cleared with oldestBufferedAt := none }
      match reason with
      | .due => e.next
      | .item => e.taskDone.next
      | .last failed => { e with consumer := .ended failed }

/-- `CancelledError` where the consumer waits or handles an item. -/
def interrupt (e : Engine C) (recorded : Bool) : Option (Engine C) :=
  match e.consumer with
  | .waiting => some (e.leave true)
  | .handling item =>
      let recorded := recorded && item.hasRecord
      some ({ e with
        buffers := e.buffers.keep recorded item
        interrupted := some (item, recorded) }.taskDone.leave true)
  | _ => none

/-- The consumer's task was cancelled. -/
def cancelled (e : Engine C) : Bool := e.task = .timedOut ∨ e.task = .aborted

def allStopped (e : Engine C) : Bool :=
  e.producers.all fun producer => match producer with
    | .ended _ => true
    | _ => false

section
variable [EdgeCache C] (S : EngineSettings)

def step (e : Engine C) : EngineEvent C → Option (Engine C)
  | .yields i item =>
      match e.producers[i]? with
      | some .reading => if e.task = .running then some (e.yields i item) else none
      | _ => none
  | .puts i =>
      match e.producers[i]? with
      | some (.putting item) => if e.task = .running then e.put? i item else none
      | _ => none
  | .stops i =>
      match e.producers[i]? with
      | some .reading => some { e with producers := e.producers.set i (.ended none) }
      | some (.putting item) =>
          if e.task = .running then none
          else some { e with producers := e.producers.set i (.ended (some item)) }
      | _ => none
  | .take =>
      match e.consumer, e.queue.get? with
      | .waiting, some (some item, queue) =>
          some { e with queue := queue, consumer := .handling item }
      | .waiting, some (none, queue) => some ({ e with queue := queue }.taskDone.leave false)
      | _, _ => none
  | .due now =>
      match e.consumer, e.oldestBufferedAt with
      | .waiting, some oldest =>
          if oldest + S.flushInterval ≤ now then some { e with consumer := .flushing .due }
          else none
      | _, _ => none
  | .handle faults bufferedAt now =>
      match e.consumer with
      | .handling item => some (e.handle S item faults bufferedAt now)
      | _ => none
  | .flushed outcome =>
      match e.consumer with
      | .flushing reason => some (e.flushed reason outcome)
      | _ => none
  | .interrupt recorded => if e.cancelled then e.interrupt recorded else none
  | .reload cache => some { e with caches := { e.caches with cache := cache } }
  | .signal => if e.task = .running then some { e with task := .stoppingProducers } else none
  | .producersDone =>
      if e.task = .stoppingProducers ∧ e.allStopped then some { e with task := .joining } else none
  | .joined =>
      if e.task = .joining ∧ e.queue.unfinished = 0 then
        (e.queue.put? none).map fun queue => { e with queue := queue, task := .awaitingConsumer }
      else none
  | .timeout => if e.task = .joining then some { e with task := .timedOut } else none
  | .consumerDone =>
      match e.consumer with
      | .ended false => if e.task = .awaitingConsumer then some { e with task := .drained } else none
      | _ => none
  | .consumerFailed =>
      match e.consumer with
      | .ended true =>
          if e.task = .drained ∨ e.cancelled then none else some { e with task := .aborted }
      | _ => none
  | .abort =>
      if e.task = .drained ∨ e.cancelled then none else some { e with task := .aborted }

/-- What a step can do. -/
inductive Stepped (e : Engine C) : EngineEvent C → Engine C → Prop where
  | yields {i item} : e.producers[i]? = some .reading → e.task = .running →
      Stepped e (.yields i item) (e.yields i item)
  | puts {i item e'} : e.producers[i]? = some (.putting item) → e.task = .running →
      e.put? i item = some e' → Stepped e (.puts i) e'
  | stopsReading {i} : e.producers[i]? = some .reading →
      Stepped e (.stops i) { e with producers := e.producers.set i (.ended none) }
  | stopsPutting {i item} : e.producers[i]? = some (.putting item) → e.task ≠ .running →
      Stepped e (.stops i) { e with producers := e.producers.set i (.ended (some item)) }
  | take {item queue} : e.consumer = .waiting → e.queue.get? = some (some item, queue) →
      Stepped e .take { e with queue := queue, consumer := .handling item }
  | takeLast {queue} : e.consumer = .waiting → e.queue.get? = some (none, queue) →
      Stepped e .take ({ e with queue := queue }.taskDone.leave false)
  | due {now oldest} : e.consumer = .waiting → e.oldestBufferedAt = some oldest →
      Stepped e (.due now) { e with consumer := .flushing .due }
  | handle {faults bufferedAt now item} : e.consumer = .handling item →
      Stepped e (.handle faults bufferedAt now) (e.handle S item faults bufferedAt now)
  | flushed {outcome reason} : e.consumer = .flushing reason →
      Stepped e (.flushed outcome) (e.flushed reason outcome)
  | interrupt {recorded e'} : e.cancelled = true → e.interrupt recorded = some e' →
      Stepped e (.interrupt recorded) e'
  | reload {cache} : Stepped e (.reload cache) { e with caches := { e.caches with cache := cache } }
  | signal : e.task = .running → Stepped e .signal { e with task := .stoppingProducers }
  | producersDone : e.task = .stoppingProducers → e.allStopped = true →
      Stepped e .producersDone { e with task := .joining }
  | joined {queue} : e.task = .joining → e.queue.unfinished = 0 → e.queue.put? none = some queue →
      Stepped e .joined { e with queue := queue, task := .awaitingConsumer }
  | timeout : e.task = .joining → Stepped e .timeout { e with task := .timedOut }
  | consumerDone : e.consumer = .ended false → e.task = .awaitingConsumer →
      Stepped e .consumerDone { e with task := .drained }
  | consumerFailed : e.task ≠ .drained → e.cancelled = false →
      Stepped e .consumerFailed { e with task := .aborted }
  | abort : e.task ≠ .drained → e.cancelled = false → Stepped e .abort { e with task := .aborted }

variable {S} {e e' : Engine C} {event : EngineEvent C}

theorem step_cases (h : e.step S event = some e') : Stepped S e event e' := by
  unfold step at h
  cases event with
  | yields i item =>
      dsimp only at h
      split at h
      · rename_i hi
        split at h <;> cases h
        exact .yields hi ‹_›
      · cases h
  | puts i =>
      dsimp only at h
      split at h
      · rename_i item hi
        split at h
        · exact .puts hi ‹_› h
        · cases h
      · cases h
  | stops i =>
      dsimp only at h
      split at h
      · rename_i hi
        cases h
        exact .stopsReading hi
      · rename_i item hi
        split at h <;> cases h
        exact .stopsPutting hi ‹_›
      · cases h
  | take =>
      dsimp only at h
      split at h
      · rename_i hwaiting hget
        cases h
        exact .take hwaiting hget
      · rename_i hwaiting hget
        cases h
        exact .takeLast hwaiting hget
      · cases h
  | due now =>
      dsimp only at h
      split at h
      · rename_i hwaiting holdest
        split at h <;> cases h
        exact .due hwaiting holdest
      · cases h
  | handle faults bufferedAt now =>
      dsimp only at h
      split at h <;> cases h
      exact .handle ‹_›
  | flushed outcome =>
      dsimp only at h
      split at h <;> cases h
      exact .flushed ‹_›
  | interrupt recorded =>
      dsimp only at h
      split at h
      · exact .interrupt ‹_› h
      · cases h
  | reload cache =>
      cases h
      exact .reload
  | signal =>
      dsimp only at h
      split at h <;> cases h
      exact .signal ‹_›
  | producersDone =>
      dsimp only at h
      split at h <;> cases h
      rename_i hdone
      exact .producersDone hdone.1 hdone.2
  | joined =>
      dsimp only at h
      split at h
      · rename_i hjoined
        obtain ⟨queue, hput, rfl⟩ := Option.map_eq_some_iff.mp h
        exact .joined hjoined.1 hjoined.2 hput
      · cases h
  | timeout =>
      dsimp only at h
      split at h <;> cases h
      exact .timeout ‹_›
  | consumerDone =>
      dsimp only at h
      split at h
      · rename_i hended
        split at h <;> cases h
        exact .consumerDone hended ‹_›
      · cases h
  | consumerFailed =>
      dsimp only at h
      split at h
      · split at h <;> cases h
        rename_i hnot
        rw [not_or] at hnot
        exact .consumerFailed hnot.1 (Bool.eq_false_iff.mpr hnot.2)
      · cases h
  | abort =>
      dsimp only at h
      split at h <;> cases h
      rename_i hnot
      rw [not_or] at hnot
      exact .abort hnot.1 (Bool.eq_false_iff.mpr hnot.2)

end

end Engine

end BrandSniper
