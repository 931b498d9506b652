import BrandSniper.Backend.BulkIngest
import BrandSniper.Listener.StreamIteration

/-!
# Batch delivery

The way of a batch from the buffers of `apps/listener/main.py` through the
venue's streams of `batch_delivery.py` to the backend, and the replay of dead
letters of `replay_batches.py`. The parties are asyncio tasks of any number of
listener and replay processes: a consumer that flushes its buffers, the recovery
of pending batches, the deliveries of the batch pool, and replays. A step is one
Redis command, one transaction of commands, or one event of a request; steps of
other tasks and of the backend come in between in any order.

A task can be stopped before any of its steps. A process that crashes stops all
its tasks, one after the other. A command whose answer is lost has two cases: it
was executed, or it was not.

`Durable.issued` is a history variable: the source keeps only that every ID it
draws is a new one.
-/

namespace BrandSniper.BatchPath

open Kit Json Batch Bulk Delivery StreamAdoption

variable {F : Type}

/-! ## Parties -/

/-- A dictionary. -/
abbrev Dict (F : Type) := { fields : List (String × Json F) // UniqueKeys (.obj fields) }

/-- What a deployment fixes. -/
structure Setting (F : Type) where
  client : Client
  venue : String
  /-- `LISTENER_BATCH_MAX_ATTEMPTS` -/
  maxAttempts : Nat
  types : ScalarTypes F
  sha256 : String → String
  /-- The texts of the UUIDs that `uuid4()` draws. -/
  uuid : Nat → String
  uuid_injective : Function.Injective uuid
  /-- A UUID is read as the UUID. -/
  reads_uuid : ∀ n, types.uuid (.str (uuid n)) = some (uuid n)

/-- `RedisBatchStore.for_venue` -/
def Setting.store (S : Setting F) : RedisBatchStore := .forVenue S.venue

/-- What outlives a process. -/
structure Durable (F : Type) where
  streams : StreamStore Fields
  backend : BulkBackend F
  /-- The batches for which a UUID was drawn, in order. -/
  issued : List (StoredBatch F)

/-- Where `send_batch_with_retry` is. -/
inductive Sending where
  /-- Before the attempt. -/
  | attempt (n : Nat)
  /-- In the attempt, with the backend's request. -/
  | awaiting (n request : Nat)
  | sent
  | failed (error : String)

/-- The buffers of `tick_consumer`. After its loop only one flush is left. -/
structure Consumer (F : Type) where
  ticks : List (Dict F)
  feedEvents : List (Dict F)
  batchId : Option String
  closing : Bool

inductive Task (F : Type) where
  /-- `recover_pending_batches`, with the batch it has been given. -/
  | recovery (reader : Reader) (given : Option (StoredBatch F))
  | consumer (buffers : Consumer F)
  /-- `deliver_stored_batch`, queued or running -/
  | delivery (recordId : Nat) (batch : StoredBatch F) (sending : Sending)
  /-- `replay`, with the number of batches it may still attempt. -/
  | replay (left : Nat) (reader : Reader) (given : Option (StoredBatch F × Sending))

inductive FlushOutcome where
  /-- The entry is added, and its delivery is scheduled. -/
  | stored
  /-- Scheduling raises. -/
  | unscheduled
  /-- The entry is added, but the call raises. -/
  | unanswered
  | failed

inductive Action (F : Type) where
  /-- `XRANGE` -/
  | fetch
  /-- The next entry of the page. -/
  | handle (now : Nat)
  | schedule
  | buffer (record : Dict F)
  | bufferEvent (record : Dict F)
  /-- The loop of the consumer ends. -/
  | close
  | flush (now : Nat) (outcome : FlushOutcome)
  /-- The backend receives the request. -/
  | post (request : Nat)
  | answered (detail : String)
  /-- A status that is neither success nor the backend's conflict. -/
  | refused (status : Nat) (detail : String)
  /-- `TimeoutError` or `ClientError` -/
  | disconnected (error : String)
  /-- Another exception. -/
  | raised (error : String)
  | acknowledge
  | deadLetter (now : Nat)
  /-- The replay goes on, and has deleted the batch it was given or not. -/
  | next (deleted : Bool)

/-- The state of a task after a step, if it has not ended, and the delivery it has scheduled. -/
structure Outcome (F : Type) where
  durable : Durable F
  task : Option (Task F)
  scheduled : Option (Task F)

/-! ## Sending -/

section
variable (S : Setting F)

/-- Before the first attempt; `max_attempts` below one raises. -/
def Setting.startSending : Sending :=
  if S.maxAttempts < 1 then .failed "max_attempts must be at least 1" else .attempt 1

/-- After an exception in attempt `n`. -/
def Setting.afterError (n : Nat) (error : String) (retryable : Bool) : Sending :=
  if !retryable || n = S.maxAttempts then .failed error else .attempt (n + 1)

/-- `response.status in {408, 425, 429} or response.status >= 500` -/
def isRetryable (status : Nat) : Bool := status ∈ [408, 425, 429] || 500 ≤ status

def isSuccess (status : Nat) : Bool := 200 ≤ status && status < 300

def Setting.afterStatus (n status : Nat) (detail : String) : Sending :=
  if isSuccess status then .sent
  else S.afterError n
    ("Backend returned HTTP " ++ toString status ++ ": " ++ String.ofList (detail.toList.take 500))
    (isRetryable status)

/-- The attempt that is made or awaited. -/
def Sending.attempt? : Sending → Option Nat
  | .attempt n => some n
  | .awaiting n _ => some n
  | _ => none

/-- A step of `send_batch_with_retry`. The backend refuses a body that is no payload with a status
of its own, so no request comes of it. -/
def Setting.send [PyFloat F] (d : Durable F) (batch : StoredBatch F) (sending : Sending) :
    Action F → Option (Durable F × Sending)
  | .post r =>
      match sending with
      | .attempt n =>
          (validate S.types batch.payload).bind fun payload =>
            (d.backend.step S.sha256 (.receive r payload)).map fun backend =>
              ({ d with backend }, .awaiting n r)
      | _ => none
  | .answered detail =>
      match sending with
      | .awaiting n r =>
          match d.backend.requests r with
          | some ⟨_, .answered answer⟩ => some (d, S.afterStatus n answer.statusCode detail)
          | _ => none
      | _ => none
  | .refused status detail =>
      if isSuccess status || status = 409 then none
      else sending.attempt?.map fun n => (d, S.afterStatus n status detail)
  | .disconnected error =>
      sending.attempt?.map fun n => (d, S.afterError n ("Backend connection failed: " ++ error) true)
  | .raised error => sending.attempt?.map fun _ => (d, .failed error)
  | _ => none

/-! ## Reading -/

/-- `page_size` of `iter_pending` and `iter_dead_letters` -/
def pageSize : Nat := 100

/-- A step of `_iter_stream`, and the batch it yields. -/
def Setting.read [PyFloat F] (d : Durable F) (key : String) (reader : Reader) (e : Delivery.Event) :
    Option (Durable F × Reader × Option (StoredBatch F)) :=
  (Delivery.step S.client S.store key pageSize ⟨d.streams, reader, [], [], [], [], []⟩ e).map
    fun s => ({ d with streams := s.store }, s.reader, s.yielded.head?)

def Setting.iterate [PyFloat F] (d : Durable F) (key : String) (reader : Reader) :
    Action F → Option (Durable F × Reader × Option (StoredBatch F))
  | .fetch => S.read d key reader .fetch
  | .handle now => S.read d key reader (.handle now)
  | _ => none

/-! ## Tasks -/

def Setting.recoveryStep [PyFloat F] (d : Durable F) (reader : Reader)
    (given : Option (StoredBatch F)) (a : Action F) : Option (Outcome F) :=
  match given with
  | none =>
      (S.iterate d S.store.pendingKey reader a).map fun (d, reader, given) =>
        ⟨d, some (.recovery reader given), none⟩
  | some batch =>
      match reader, a with
      | .suspended id page rest, .schedule =>
          some ⟨d, some (.recovery (afterEntry pageSize page rest) none),
            some (.delivery id batch S.startSending)⟩
      | _, _ => none

def Consumer.batch (buffers : Consumer F) (venue batchId : String) : StoredBatch F :=
  ⟨"", batchId, venue, buffers.ticks.map Subtype.val, buffers.feedEvents.map Subtype.val⟩

/-- `store.add` -/
def Setting.add (d : Durable F) (now : Nat) (text : String) : Durable F :=
  { d with streams := d.streams.xadd now S.store.pendingKey [(.text "payload", .text text)] }

/-- `batch_buffer_id or str(uuid4())`, and the batch of the buffers. -/
def Setting.draw (d : Durable F) (buffers : Consumer F) : Durable F × StoredBatch F :=
  match buffers.batchId with
  | some batchId => (d, buffers.batch S.venue batchId)
  | none =>
      let batch := buffers.batch S.venue (S.uuid d.issued.length)
      ({ d with issued := d.issued ++ [batch] }, batch)

/-- After an exception the loop has ended. Its ID stays for the one flush that is left. -/
def Consumer.afterError (buffers : Consumer F) (batchId : String) : Option (Task F) :=
  if buffers.closing then none
  else some (.consumer { buffers with batchId := some batchId, closing := true })

/-- After a flush the buffers are empty; the last flush ends the task. -/
def Consumer.afterFlush (buffers : Consumer F) : Option (Task F) :=
  if buffers.closing then none else some (.consumer ⟨[], [], none, false⟩)

/-- `flush` -/
def Setting.flush [PyFloat F] (d : Durable F) (buffers : Consumer F) (now : Nat) :
    FlushOutcome → Option (Outcome F) :=
  let (d, batch) := S.draw d buffers
  fun
  | .failed => some ⟨d, buffers.afterError batch.batchId, none⟩
  | .unanswered => (serialize batch).map fun text =>
      ⟨S.add d now text, buffers.afterError batch.batchId, none⟩
  | .unscheduled => (serialize batch).map fun text => ⟨S.add d now text, none, none⟩
  | .stored => (serialize batch).map fun text =>
      let id := d.streams.nextIdAt S.store.pendingKey now
      ⟨S.add d now text, buffers.afterFlush,
        some (.delivery id { batch with recordId := idText id } S.startSending)⟩

def Setting.consumerStep [PyFloat F] (d : Durable F) (buffers : Consumer F) :
    Action F → Option (Outcome F)
  | .buffer record =>
      if buffers.closing then none
      else some ⟨d, some (.consumer { buffers with ticks := buffers.ticks ++ [record] }), none⟩
  | .bufferEvent record =>
      if buffers.closing then none
      else some
        ⟨d, some (.consumer { buffers with feedEvents := buffers.feedEvents ++ [record] }), none⟩
  | .close => some ⟨d, some (.consumer { buffers with closing := true }), none⟩
  | .flush now outcome =>
      if buffers.ticks.isEmpty && buffers.feedEvents.isEmpty then none
      else S.flush d buffers now outcome
  | _ => none

/-- The entry that `dead_letter` adds. -/
def deadLetterFields (text error : String) : Fields :=
  [(.text "payload", .text text),
    (.text "last_error", .text (String.ofList (error.toList.take 500)))]

def Setting.deliveryStep [PyFloat F] (d : Durable F) (recordId : Nat) (batch : StoredBatch F)
    (sending : Sending) : Action F → Option (Outcome F)
  | .acknowledge =>
      match sending with
      | .sent => some ⟨{ d with streams := d.streams.xdel S.store.pendingKey recordId }, none, none⟩
      | _ => none
  | .deadLetter now =>
      match sending with
      | .failed error => (serialize batch).map fun text =>
          ⟨{ d with streams := (d.streams.xadd now S.store.deadLetterKey
              (deadLetterFields text error)).xdel S.store.pendingKey recordId }, none, none⟩
      | _ => none
  | a => (S.send d batch sending a).map fun (d, sending) =>
      ⟨d, some (.delivery recordId batch sending), none⟩

/-- The next dead letter, unless the limit is reached. -/
def afterReplayed (left : Nat) (page rest : List Entry) : Option (Task F) :=
  if left ≤ 1 then none else some (.replay (left - 1) (afterEntry pageSize page rest) none)

def Setting.replayStep [PyFloat F] (d : Durable F) (left : Nat) (reader : Reader)
    (given : Option (StoredBatch F × Sending)) (a : Action F) : Option (Outcome F) :=
  match given with
  | none =>
      (S.iterate d S.store.deadLetterKey reader a).map fun (d, reader, given) =>
        ⟨d, some (.replay left reader (given.map fun batch => (batch, S.startSending))), none⟩
  | some (batch, sending) =>
      match a with
      | .next deleted =>
          match reader, sending, deleted with
          | .suspended id page rest, .sent, true =>
              some ⟨{ d with streams := d.streams.xdel S.store.deadLetterKey id },
                afterReplayed left page rest, none⟩
          | .suspended _ page rest, .sent, false => some ⟨d, afterReplayed left page rest, none⟩
          | .suspended _ page rest, .failed _, false => some ⟨d, afterReplayed left page rest, none⟩
          | _, _, _ => none
      | a => (S.send d batch sending a).map fun (d, sending) =>
          ⟨d, some (.replay left reader (some (batch, sending))), none⟩

def Setting.taskStep [PyFloat F] (d : Durable F) : Task F → Action F → Option (Outcome F)
  | .recovery reader given, a => S.recoveryStep d reader given a
  | .consumer buffers, a => S.consumerStep d buffers a
  | .delivery recordId batch sending, a => S.deliveryStep d recordId batch sending a
  | .replay left reader given, a => S.replayStep d left reader given a

/-! ## Runs -/

structure BatchSystem (F : Type) where
  durable : Durable F
  tasks : Nat → Option (Task F)

inductive BatchEvent (F : Type) where
  | startRecovery (task : Nat)
  | startConsumer (task : Nat)
  | startReplay (task limit : Nat)
  /-- A task's step; a delivery that it schedules is the task `scheduled`. -/
  | act (task : Nat) (a : Action F) (scheduled : Nat)
  | stop (task : Nat)
  /-- A step of the backend; it receives requests by `post` only. -/
  | backend (e : BulkEvent F)

def BatchSystem.initial : BatchSystem F := ⟨⟨fun _ => none, .empty, []⟩, fun _ => none⟩

def BatchSystem.put (s : BatchSystem F) (task : Nat) (t : Option (Task F)) : BatchSystem F :=
  { s with tasks := Function.update s.tasks task t }

def BatchSystem.start (s : BatchSystem F) (task : Nat) (t : Task F) : Option (BatchSystem F) :=
  match s.tasks task with
  | none => some (s.put task (some t))
  | some _ => none

/-- A scheduled delivery becomes a task of its own. -/
def BatchSystem.schedule (s : BatchSystem F) (task : Nat) : Option (Task F) → Option (BatchSystem F)
  | none => some s
  | some t => s.start task t

def isReceive : BulkEvent F → Bool
  | .receive _ _ => true
  | _ => false

def Setting.step [PyFloat F] (s : BatchSystem F) : BatchEvent F → Option (BatchSystem F)
  | .startRecovery task => s.start task (.recovery (.fetching none) none)
  | .startConsumer task => s.start task (.consumer ⟨[], [], none, false⟩)
  | .startReplay task limit =>
      if limit < 1 then none else s.start task (.replay limit (.fetching none) none)
  | .act task a scheduled =>
      (s.tasks task).bind fun t =>
        (S.taskStep s.durable t a).bind fun outcome =>
          (BatchSystem.mk outcome.durable s.tasks |>.put task outcome.task).schedule scheduled
            outcome.scheduled
  | .stop task => some (s.put task none)
  | .backend e =>
      if isReceive e then none
      else (s.durable.backend.step S.sha256 e).map fun backend =>
        { s with durable := { s.durable with backend } }

end

end BrandSniper.BatchPath
