import BrandSniper.Backend.BulkPayload
import BrandSniper.Kit.Calendar
import BrandSniper.Kit.ReadCommitted
import BrandSniper.Kit.Runs
import Mathlib.Logic.Function.Basic

/-!
# Bulk ingestion

Concurrent `process_bulk_ingestion` requests of `apps/backend/main.py`. A
request registers its batch id in the ledger, resolves an item id for every
tick, inserts the tick rows and the event rows, commits, and answers. A batch
id that is in the ledger makes it a replay: it is answered as a duplicate when
the digests agree and refused otherwise, and writes nothing.

Statements of other requests come in between in any order, and a request may
fail at any of them. An item id is whatever `get_or_create_item_id` returns.
-/

namespace BrandSniper.Bulk

open Kit Json

variable {F : Type}

/-! ## Rows -/

structure IngestionBatch where
  batchId : String
  venue : String
  recordCount : Nat
  payloadSha256 : String
  receivedAt : Moment

structure LiveMarketTick (F : Type) where
  itemId : Nat
  priceCents : Int
  venue : String
  insertedAt : Moment
  observedAt : Option Moment
  eventType : Option String
  listingId : Option String
  floatValue : Option F
  pattern : Option Int
  paintIndex : Option Int
  stickers : Option (List (List (String × Json F)))
  listingUrl : Option String

structure FeedEventRow (F : Type) where
  venue : String
  eventType : String
  receivedAt : Moment
  payload : List (String × Json F)

/-- A row of one of the three tables a request writes. -/
inductive BulkRow (F : Type) where
  | batch (row : IngestionBatch)
  | tick (row : LiveMarketTick F)
  | event (row : FeedEventRow F)

/-- The batch id is the only unique key. -/
def BulkRow.conflicts : BulkRow F → BulkRow F → Bool
  | .batch a, .batch b => a.batchId = b.batchId
  | _, _ => false

theorem BulkRow.conflicts_comm (a b : BulkRow F) : a.conflicts b = b.conflicts a := by
  cases a <;> cases b <;> simp [BulkRow.conflicts, eq_comm]

/-- The ledger row of a payload with a batch id. -/
def ledgerRow [PyFloat F] (sha256 : String → String) (payload : BulkIngestionPayload F)
    (batchId : String) (now : Moment) : IngestionBatch where
  batchId := batchId
  venue := payload.venue
  recordCount := payload.ticks.length + payload.feedEvents.length
  payloadSha256 := bulkPayloadDigest sha256 payload
  receivedAt := now

def tickRow (venue : String) (itemId : Nat) (tick : BulkPriceTick F) : LiveMarketTick F where
  itemId := itemId
  priceCents := tick.priceCents
  venue := venue
  insertedAt := Moment.ofEpochSeconds tick.timestamp
  observedAt := tick.observedAtMs.bind fun ms => if ms = 0 then none else some (.ofEpochMillis ms)
  eventType := tick.eventType
  listingId := tick.listingId
  floatValue := tick.floatValue
  pattern := tick.pattern
  paintIndex := tick.paintIndex
  stickers := tick.stickers
  listingUrl := tick.listingUrl

def eventRow (venue : String) (event : BulkFeedEvent F) : FeedEventRow F where
  venue := venue
  eventType := event.eventType
  receivedAt := Moment.ofEpochMillis event.receivedAtMs
  payload := event.payload

def ledgerRows [PyFloat F] (sha256 : String → String) (payload : BulkIngestionPayload F)
    (now : Moment) : List (BulkRow F) :=
  match payload.batchId with
  | some batchId => [.batch (ledgerRow sha256 payload batchId now)]
  | none => []

def tickRows (payload : BulkIngestionPayload F) (itemIds : List Nat) : List (BulkRow F) :=
  (itemIds.zip payload.ticks).map fun (itemId, tick) => .tick (tickRow payload.venue itemId tick)

def eventRows (payload : BulkIngestionPayload F) : List (BulkRow F) :=
  payload.feedEvents.map fun event => .event (eventRow payload.venue event)

/-- Every row of a request, each once. -/
def FullRows [PyFloat F] (sha256 : String → String) (payload : BulkIngestionPayload F)
    (rows : List (BulkRow F)) : Prop :=
  ∃ now itemIds, itemIds.length = payload.ticks.length ∧
    rows = ledgerRows sha256 payload now ++ tickRows payload itemIds ++ eventRows payload

/-! ## Requests -/

inductive BulkAnswer where
  | success (recordsProcessed feedEventsProcessed : Nat)
  /-- Nothing to store. -/
  | skipped
  /-- A replay of the batch. -/
  | duplicate
  /-- The batch id was used for another content. -/
  | conflict
  deriving DecidableEq

def BulkAnswer.statusCode : BulkAnswer → Nat
  | success _ _ => 201
  | skipped => 201
  | duplicate => 201
  | conflict => 409

inductive BulkPhase where
  | received
  /-- The ledger has the batch id already. -/
  | conflicting
  /-- The batch is new; the item ids resolved so far. -/
  | resolving (itemIds : List Nat)
  | ticksStored
  /-- All statements ran. -/
  | executed (answer : BulkAnswer)
  | committed (answer : BulkAnswer)
  | answered (answer : BulkAnswer)
  | failed
  deriving DecidableEq

structure BulkRequest (F : Type) where
  payload : BulkIngestionPayload F
  phase : BulkPhase

structure BulkBackend (F : Type) where
  rows : TxTable (BulkRow F)
  requests : Nat → Option (BulkRequest F)

inductive BulkEvent (F : Type) where
  | receive (request : Nat) (payload : BulkIngestionPayload F)
  | register (request : Nat) (now : Moment)
  /-- A request without a batch id goes on without the ledger. -/
  | begin (request : Nat)
  | readBatch (request : Nat)
  | resolveItem (request itemId : Nat)
  | storeTicks (request : Nat)
  | storeEvents (request : Nat)
  | commit (request : Nat)
  | answer (request : Nat)
  | fail (request : Nat)

/-- Neither ticks nor events. -/
def BulkIngestionPayload.isEmpty (payload : BulkIngestionPayload F) : Bool :=
  payload.ticks.isEmpty && payload.feedEvents.isEmpty

/-- The phase of a request whose batch is new. -/
def begunPhase (payload : BulkIngestionPayload F) : BulkPhase :=
  if payload.isEmpty then .executed .skipped else .resolving []

/-- `session.get(IngestionBatch, batch_id)` -/
def getBatch (rows : List (BulkRow F)) (batchId : String) : Option IngestionBatch :=
  rows.findSome? fun row => match row with
    | .batch batch => if batch.batchId = batchId then some batch else none
    | _ => none

namespace BulkBackend

def empty : BulkBackend F := ⟨.empty, fun _ => none⟩

def setPhase (st : BulkBackend F) (request : Nat) (payload : BulkIngestionPayload F)
    (phase : BulkPhase) : BulkBackend F :=
  { st with requests := Function.update st.requests request (some ⟨payload, phase⟩) }

/-- One statement of one request. -/
def step [PyFloat F] (sha256 : String → String) (st : BulkBackend F) :
    BulkEvent F → Option (BulkBackend F)
  | .receive r payload =>
      match st.requests r with
      | none => some (st.setPhase r payload .received)
      | some _ => none
  | .register r now =>
      match st.requests r with
      | some ⟨payload, .received⟩ =>
          payload.batchId.bind fun batchId =>
            (st.rows.insert? BulkRow.conflicts r (.batch (ledgerRow sha256 payload batchId now))).map
              fun (rows, inserted) =>
                { st with rows := rows }.setPhase r payload
                  (if inserted then begunPhase payload else .conflicting)
      | _ => none
  | .begin r =>
      match st.requests r with
      | some ⟨payload, .received⟩ =>
          if payload.batchId.isSome then none
          -- nothing to store opens no session
          else if payload.isEmpty then some (st.setPhase r payload (.answered .skipped))
          else some (st.setPhase r payload (.resolving []))
      | _ => none
  | .readBatch r =>
      match st.requests r with
      | some ⟨payload, .conflicting⟩ =>
          payload.batchId.map fun batchId =>
            match getBatch (st.rows.visible r) batchId with
            | none => { st with rows := st.rows.rollback r }.setPhase r payload .failed
            | some existing =>
                if existing.payloadSha256 ≠ bulkPayloadDigest sha256 payload then
                  { st with rows := st.rows.rollback r }.setPhase r payload (.answered .conflict)
                else st.setPhase r payload (.executed .duplicate)
      | _ => none
  | .resolveItem r itemId =>
      match st.requests r with
      | some ⟨payload, .resolving itemIds⟩ =>
          if itemIds.length < payload.ticks.length then
            some (st.setPhase r payload (.resolving (itemIds ++ [itemId])))
          else none
      | _ => none
  | .storeTicks r =>
      match st.requests r with
      | some ⟨payload, .resolving itemIds⟩ =>
          if itemIds.length = payload.ticks.length then
            some ({ st with rows := st.rows.append r (tickRows payload itemIds) }.setPhase r payload
              .ticksStored)
          else none
      | _ => none
  | .storeEvents r =>
      match st.requests r with
      | some ⟨payload, .ticksStored⟩ =>
          some ({ st with rows := st.rows.append r (eventRows payload) }.setPhase r payload
            (.executed (.success payload.ticks.length payload.feedEvents.length)))
      | _ => none
  | .commit r =>
      match st.requests r with
      | some ⟨payload, .executed answer⟩ =>
          some ({ st with rows := st.rows.commit r }.setPhase r payload (.committed answer))
      | _ => none
  | .answer r =>
      match st.requests r with
      | some ⟨payload, .committed answer⟩ => some (st.setPhase r payload (.answered answer))
      | _ => none
  | .fail r =>
      match st.requests r with
      | some ⟨_, .answered _⟩ => none
      | some ⟨payload, _⟩ =>
          some ({ st with rows := st.rows.rollback r }.setPhase r payload .failed)
      | none => none

theorem requests_setPhase (st : BulkBackend F) (r : Nat) (payload : BulkIngestionPayload F)
    (phase : BulkPhase) (r' : Nat) : (st.setPhase r payload phase).requests r'
      = if r' = r then some ⟨payload, phase⟩ else st.requests r' :=
  Function.update_apply _ _ _ _

theorem requests_setPhase_self (st : BulkBackend F) (r : Nat) (payload : BulkIngestionPayload F)
    (phase : BulkPhase) : (st.setPhase r payload phase).requests r = some ⟨payload, phase⟩ :=
  Function.update_self _ _ _

/-- What each event does, by the phase of its request. -/
inductive Stepped [PyFloat F] (sha256 : String → String) (st : BulkBackend F) :
    BulkEvent F → BulkBackend F → Prop where
  | receive {r payload} : st.requests r = none →
      Stepped sha256 st (.receive r payload) (st.setPhase r payload .received)
  | register {r payload now batchId rows inserted} :
      st.requests r = some ⟨payload, .received⟩ → payload.batchId = some batchId →
      st.rows.insert? BulkRow.conflicts r (.batch (ledgerRow sha256 payload batchId now))
        = some (rows, inserted) →
      Stepped sha256 st (.register r now) ({ st with rows := rows }.setPhase r payload
        (if inserted then begunPhase payload else .conflicting))
  | beginEmpty {r payload} : st.requests r = some ⟨payload, .received⟩ → payload.batchId = none →
      payload.isEmpty = true →
      Stepped sha256 st (.begin r) (st.setPhase r payload (.answered .skipped))
  | begin {r payload} : st.requests r = some ⟨payload, .received⟩ → payload.batchId = none →
      Stepped sha256 st (.begin r) (st.setPhase r payload (.resolving []))
  | readMissing {r payload} : st.requests r = some ⟨payload, .conflicting⟩ →
      Stepped sha256 st (.readBatch r)
        ({ st with rows := st.rows.rollback r }.setPhase r payload .failed)
  | readOther {r payload batchId existing} : st.requests r = some ⟨payload, .conflicting⟩ →
      payload.batchId = some batchId → getBatch (st.rows.visible r) batchId = some existing →
      existing.payloadSha256 ≠ bulkPayloadDigest sha256 payload →
      Stepped sha256 st (.readBatch r)
        ({ st with rows := st.rows.rollback r }.setPhase r payload (.answered .conflict))
  | readSame {r payload batchId existing} : st.requests r = some ⟨payload, .conflicting⟩ →
      payload.batchId = some batchId → getBatch (st.rows.visible r) batchId = some existing →
      existing.payloadSha256 = bulkPayloadDigest sha256 payload →
      Stepped sha256 st (.readBatch r) (st.setPhase r payload (.executed .duplicate))
  | resolveItem {r payload itemIds itemId} : st.requests r = some ⟨payload, .resolving itemIds⟩ →
      Stepped sha256 st (.resolveItem r itemId)
        (st.setPhase r payload (.resolving (itemIds ++ [itemId])))
  | storeTicks {r payload itemIds} : st.requests r = some ⟨payload, .resolving itemIds⟩ →
      itemIds.length = payload.ticks.length →
      Stepped sha256 st (.storeTicks r)
        ({ st with rows := st.rows.append r (tickRows payload itemIds) }.setPhase r payload
          .ticksStored)
  | storeEvents {r payload} : st.requests r = some ⟨payload, .ticksStored⟩ →
      Stepped sha256 st (.storeEvents r)
        ({ st with rows := st.rows.append r (eventRows payload) }.setPhase r payload
          (.executed (.success payload.ticks.length payload.feedEvents.length)))
  | commit {r payload answer} : st.requests r = some ⟨payload, .executed answer⟩ →
      Stepped sha256 st (.commit r)
        ({ st with rows := st.rows.commit r }.setPhase r payload (.committed answer))
  | answer {r payload answer} : st.requests r = some ⟨payload, .committed answer⟩ →
      Stepped sha256 st (.answer r) (st.setPhase r payload (.answered answer))
  | fail {r payload phase} : st.requests r = some ⟨payload, phase⟩ →
      (∀ answer, phase ≠ .answered answer) →
      Stepped sha256 st (.fail r)
        ({ st with rows := st.rows.rollback r }.setPhase r payload .failed)

theorem step_cases [PyFloat F] {sha256 : String → String} {st st' : BulkBackend F}
    {e : BulkEvent F} (h : st.step sha256 e = some st') : Stepped sha256 st e st' := by
  cases e with
  | receive r payload =>
      simp only [step] at h
      split at h
      · rename_i hr
        cases h
        exact .receive hr
      · cases h
  | register r now =>
      simp only [step] at h
      split at h
      · rename_i payload hr
        obtain ⟨batchId, hbatch, h⟩ := Option.bind_eq_some_iff.mp h
        obtain ⟨⟨rows, inserted⟩, hinsert, rfl⟩ := Option.map_eq_some_iff.mp h
        exact .register hr hbatch hinsert
      · cases h
  | begin r =>
      simp only [step] at h
      split at h
      · rename_i payload hr
        split at h
        · cases h
        · rename_i hbatch
          have hbatch : payload.batchId = none := by simpa using hbatch
          split at h
          · rename_i hempty
            cases h
            exact .beginEmpty hr hbatch hempty
          · cases h
            exact .begin hr hbatch
      · cases h
  | readBatch r =>
      simp only [step] at h
      split at h
      · rename_i payload hr
        obtain ⟨batchId, hbatch, rfl⟩ := Option.map_eq_some_iff.mp h
        cases hexisting : getBatch (st.rows.visible r) batchId with
        | none => exact .readMissing hr
        | some existing =>
            by_cases hdigest : existing.payloadSha256 = bulkPayloadDigest sha256 payload
            · simp only [hdigest, ne_eq, not_true_eq_false, if_false]
              exact .readSame hr hbatch hexisting hdigest
            · simp only [ne_eq, hdigest, not_false_eq_true, if_true]
              exact .readOther hr hbatch hexisting hdigest
      · cases h
  | resolveItem r itemId =>
      simp only [step] at h
      split at h
      · rename_i payload itemIds hr
        split at h
        · cases h
          exact .resolveItem hr
        · cases h
      · cases h
  | storeTicks r =>
      simp only [step] at h
      split at h
      · rename_i payload itemIds hr
        split at h
        · rename_i hlength
          cases h
          exact .storeTicks hr hlength
        · cases h
      · cases h
  | storeEvents r =>
      simp only [step] at h
      split at h
      · rename_i payload hr
        cases h
        exact .storeEvents hr
      · cases h
  | commit r =>
      simp only [step] at h
      split at h
      · rename_i payload answer hr
        cases h
        exact .commit hr
      · cases h
  | answer r =>
      simp only [step] at h
      split at h
      · rename_i payload answer hr
        cases h
        exact .answer hr
      · cases h
  | fail r =>
      simp only [step] at h
      split at h
      · cases h
      · rename_i payload phase hphase hr
        cases h
        exact .fail hr fun answer heq => hphase answer heq
      · cases h

/-! ## The invariant -/

/-- The ledger holds the batch id of the payload, with the same digest or another. -/
def InLedger [PyFloat F] (sha256 : String → String) (rows : TxTable (BulkRow F))
    (payload : BulkIngestionPayload F) (same : Bool) : Prop :=
  ∃ r batch, (r, .batch batch) ∈ rows.committed ∧ payload.batchId = some batch.batchId ∧
    decide (batch.payloadSha256 = bulkPayloadDigest sha256 payload) = same

/-- What an answer says about the rows the request stores. -/
def Stores [PyFloat F] (sha256 : String → String) (rows : TxTable (BulkRow F))
    (payload : BulkIngestionPayload F) (own : List (BulkRow F)) : BulkAnswer → Prop
  | .success _ _ => FullRows sha256 payload own
  | .skipped => FullRows sha256 payload own
  | .duplicate => own = [] ∧ InLedger sha256 rows payload true
  | .conflict => own = [] ∧ InLedger sha256 rows payload false

/-- What the tables hold of a request in a phase. -/
def PhaseHolds [PyFloat F] (sha256 : String → String) (rows : TxTable (BulkRow F)) (r : Nat)
    (payload : BulkIngestionPayload F) : BulkPhase → Prop
  | .received => rows.written r = [] ∧ rows.stored r = []
  | .conflicting => rows.written r = [] ∧ rows.stored r = []
  | .resolving _ =>
      (∃ now, rows.written r = ledgerRows sha256 payload now) ∧ rows.stored r = []
  | .ticksStored =>
      (∃ now itemIds, itemIds.length = payload.ticks.length ∧
        rows.written r = ledgerRows sha256 payload now ++ tickRows payload itemIds) ∧
      rows.stored r = []
  | .executed answer => Stores sha256 rows payload (rows.written r) answer ∧ rows.stored r = []
  | .committed answer => rows.written r = [] ∧ Stores sha256 rows payload (rows.stored r) answer
  | .answered answer => rows.written r = [] ∧ Stores sha256 rows payload (rows.stored r) answer
  | .failed =>
      rows.written r = [] ∧ (rows.stored r = [] ∨ FullRows sha256 payload (rows.stored r))

structure Inv [PyFloat F] (sha256 : String → String) (st : BulkBackend F) : Prop where
  unique : st.rows.Unique BulkRow.conflicts
  unknown : ∀ r, st.requests r = none → st.rows.written r = [] ∧ st.rows.stored r = []
  phases : ∀ r payload phase, st.requests r = some ⟨payload, phase⟩ →
    PhaseHolds sha256 st.rows r payload phase

theorem inv_empty [PyFloat F] (sha256 : String → String) : (empty : BulkBackend F).Inv sha256 where
  unique := TxTable.unique_empty
  unknown := fun _ _ => ⟨rfl, rfl⟩
  phases := by simp [empty]

section
variable [PyFloat F] {sha256 : String → String}

theorem InLedger.mono {rows rows' : TxTable (BulkRow F)} {payload : BulkIngestionPayload F}
    {same : Bool} (h : InLedger sha256 rows payload same)
    (hcommitted : ∀ x ∈ rows.committed, x ∈ rows'.committed) :
    InLedger sha256 rows' payload same := by
  obtain ⟨r, batch, hmem, hrest⟩ := h
  exact ⟨r, batch, hcommitted _ hmem, hrest⟩

theorem Stores.mono {rows rows' : TxTable (BulkRow F)} {payload : BulkIngestionPayload F}
    {own : List (BulkRow F)} {answer : BulkAnswer} (h : Stores sha256 rows payload own answer)
    (hcommitted : ∀ x ∈ rows.committed, x ∈ rows'.committed) :
    Stores sha256 rows' payload own answer := by
  cases answer with
  | success records events => exact h
  | skipped => exact h
  | duplicate => exact ⟨h.1, h.2.mono hcommitted⟩
  | conflict => exact ⟨h.1, h.2.mono hcommitted⟩

/-- What a step of another request leaves true of a request. -/
theorem PhaseHolds.frame {rows rows' : TxTable (BulkRow F)} {r : Nat}
    {payload : BulkIngestionPayload F} {phase : BulkPhase} (h : PhaseHolds sha256 rows r payload phase)
    (hwritten : rows'.written r = rows.written r) (hstored : rows'.stored r = rows.stored r)
    (hcommitted : ∀ x ∈ rows.committed, x ∈ rows'.committed) :
    PhaseHolds sha256 rows' r payload phase := by
  unfold PhaseHolds at h ⊢
  rw [hwritten, hstored]
  cases phase with
  | executed answer => exact ⟨h.1.mono hcommitted, h.2⟩
  | committed answer => exact ⟨h.1, h.2.mono hcommitted⟩
  | answered answer => exact ⟨h.1, h.2.mono hcommitted⟩
  | received => exact h
  | conflicting => exact h
  | resolving itemIds => exact h
  | ticksStored => exact h
  | failed => exact h

/-- One request moves on and leaves the rows of the others alone. -/
theorem Inv.update {st : BulkBackend F} (hI : st.Inv sha256) {r : Nat}
    {payload : BulkIngestionPayload F} {phase : BulkPhase} {rows : TxTable (BulkRow F)}
    (hunique : rows.Unique BulkRow.conflicts)
    (hwritten : ∀ r', r' ≠ r → rows.written r' = st.rows.written r')
    (hstored : ∀ r', r' ≠ r → rows.stored r' = st.rows.stored r')
    (hcommitted : ∀ x ∈ st.rows.committed, x ∈ rows.committed)
    (hself : PhaseHolds sha256 rows r payload phase) :
    ({ st with rows := rows }.setPhase r payload phase).Inv sha256 where
  unique := hunique
  unknown := by
    intro r' hr'
    rw [requests_setPhase] at hr'
    split at hr'
    · cases hr'
    · rename_i hother
      obtain ⟨hw, hs⟩ := hI.unknown r' hr'
      exact ⟨(hwritten r' hother).trans hw, (hstored r' hother).trans hs⟩
  phases := by
    intro r' payload' phase' hr'
    rw [requests_setPhase] at hr'
    split at hr'
    · rename_i heq
      obtain ⟨rfl, rfl⟩ := BulkRequest.mk.inj (Option.some.inj hr')
      exact heq ▸ hself
    · rename_i hother
      exact (hI.phases r' payload' phase' hr').frame (hwritten r' hother) (hstored r' hother)
        hcommitted

/-- One request moves on without touching the tables. -/
theorem Inv.move {st : BulkBackend F} (hI : st.Inv sha256) {r : Nat}
    {payload : BulkIngestionPayload F} {phase : BulkPhase}
    (hself : PhaseHolds sha256 st.rows r payload phase) : (st.setPhase r payload phase).Inv sha256 :=
  hI.update hI.unique (fun _ _ => rfl) (fun _ _ => rfl) (fun _ hx => hx) hself

/-- One request rolls back. -/
theorem Inv.rollback {st : BulkBackend F} (hI : st.Inv sha256) {r : Nat}
    {payload : BulkIngestionPayload F} {phase : BulkPhase}
    (hself : (st.rows.rollback r).written r = [] →
      PhaseHolds sha256 (st.rows.rollback r) r payload phase) :
    ({ st with rows := st.rows.rollback r }.setPhase r payload phase).Inv sha256 :=
  hI.update (hI.unique.rollback r)
    (fun r' hother => by rw [TxTable.written_rollback, if_neg hother]) (fun _ _ => rfl)
    (fun _ hx => hx) (hself (by rw [TxTable.written_rollback, if_pos rfl]))

/-- The rows of a request that has not committed are those of no phase after it. -/
theorem PhaseHolds.stored_of_fail {rows : TxTable (BulkRow F)} {r : Nat}
    {payload : BulkIngestionPayload F} {phase : BulkPhase}
    (h : PhaseHolds sha256 rows r payload phase) :
    rows.stored r = [] ∨ FullRows sha256 payload (rows.stored r) := by
  have hstores : ∀ answer, Stores sha256 rows payload (rows.stored r) answer →
      rows.stored r = [] ∨ FullRows sha256 payload (rows.stored r) := by
    intro answer h
    cases answer with
    | success records events => exact .inr h
    | skipped => exact .inr h
    | duplicate => exact .inl h.1
    | conflict => exact .inl h.1
  cases phase with
  | received => exact .inl h.2
  | conflicting => exact .inl h.2
  | resolving itemIds => exact .inl h.2
  | ticksStored => exact .inl h.2
  | executed answer => exact .inl h.2
  | committed answer => exact hstores answer h.2
  | answered answer => exact hstores answer h.2
  | failed => exact h.2

omit [PyFloat F] in
theorem tickRows_conflict (payload : BulkIngestionPayload F) (itemIds : List Nat) :
    ∀ row ∈ tickRows payload itemIds, ∀ r : BulkRow F, r.conflicts row = false := by
  intro row hrow r
  obtain ⟨pair, -, rfl⟩ := List.mem_map.mp hrow
  cases r <;> rfl

omit [PyFloat F] in
theorem eventRows_conflict (payload : BulkIngestionPayload F) :
    ∀ row ∈ eventRows payload, ∀ r : BulkRow F, r.conflicts row = false := by
  intro row hrow r
  obtain ⟨event, -, rfl⟩ := List.mem_map.mp hrow
  cases r <;> rfl

omit [PyFloat F] in
theorem getBatch_eq_some {rows : List (BulkRow F)} {batchId : String} {batch : IngestionBatch}
    (h : getBatch rows batchId = some batch) : .batch batch ∈ rows ∧ batch.batchId = batchId := by
  obtain ⟨row, hrow, hbatch⟩ := List.exists_of_findSome?_eq_some h
  cases row with
  | batch row =>
      simp only at hbatch
      split at hbatch
      · rename_i hid
        cases hbatch
        exact ⟨hrow, hid⟩
      · cases hbatch
  | tick row => cases hbatch
  | event row => cases hbatch

/-- The batch a replay reads is a committed one. -/
theorem inLedger_of_getBatch {rows : TxTable (BulkRow F)} {r : Nat}
    {payload : BulkIngestionPayload F} {batchId : String} {existing : IngestionBatch}
    (hwritten : rows.written r = []) (hbatch : payload.batchId = some batchId)
    (h : getBatch (rows.visible r) batchId = some existing) :
    InLedger sha256 rows payload
      (decide (existing.payloadSha256 = bulkPayloadDigest sha256 payload)) := by
  obtain ⟨hmem, hid⟩ := getBatch_eq_some h
  rcases TxTable.mem_visible.mp hmem with ⟨x, hx, hrow⟩ | ⟨x, hx, hown, hrow⟩
  · exact ⟨x.1, existing, hrow ▸ hx, by rw [hbatch, hid], rfl⟩
  · have hmem' : x.2 ∈ rows.written r := TxTable.mem_ofTx.mpr (hown ▸ hx)
    rw [hwritten] at hmem'
    cases hmem'

/-- Every statement of every request keeps the invariant. -/
theorem Inv.step {st st' : BulkBackend F} {e : BulkEvent F} (hI : st.Inv sha256)
    (h : st.step sha256 e = some st') : st'.Inv sha256 := by
  cases step_cases h with
  | receive hr => exact hI.move (hI.unknown _ hr)
  | @register r payload now batchId rows inserted hr hbatch hinsert =>
      obtain ⟨hwritten, hstored⟩ := hI.phases _ _ _ hr
      obtain ⟨rfl, rfl, -⟩ | ⟨rfl, rfl, -⟩ := TxTable.insert?_cases hinsert
      · exact hI.move ⟨hwritten, hstored⟩
      · have hown : ∀ r', (st.rows.append r [BulkRow.batch (ledgerRow sha256 payload batchId now)]
            |>.written r') = if r' = r then ledgerRows sha256 payload now else st.rows.written r' := by
          intro r'
          rw [TxTable.written_append, hwritten, List.nil_append, ledgerRows, hbatch]
        refine hI.update (hI.unique.insert? hinsert)
          (fun r' hother => (hown r').trans (if_neg hother)) (fun _ _ => rfl) (fun _ hx => hx) ?_
        rw [if_pos rfl, begunPhase]
        have hself := (hown r).trans (if_pos rfl)
        split
        · rename_i hempty
          -- the ledger row is all there is to store
          obtain ⟨hticks, hevents⟩ := Bool.and_eq_true_iff.mp hempty
          refine ⟨⟨now, [], ?_, ?_⟩, hstored⟩
          · rw [List.isEmpty_iff.mp hticks]
            rfl
          · rw [tickRows, eventRows, List.isEmpty_iff.mp hevents, List.zip_nil_left, List.map_nil,
              List.map_nil, List.append_nil, List.append_nil]
            exact hself
        · exact ⟨⟨now, hself⟩, hstored⟩
  | @beginEmpty r payload hr hbatch hempty =>
      obtain ⟨hwritten, hstored⟩ := hI.phases _ _ _ hr
      obtain ⟨hticks, hevents⟩ := Bool.and_eq_true_iff.mp hempty
      refine hI.move ⟨hwritten, Moment.ofEpochSeconds 0, [], ?_, ?_⟩
      · rw [List.isEmpty_iff.mp hticks]
        rfl
      · rw [hstored, ledgerRows, hbatch, tickRows, eventRows, List.isEmpty_iff.mp hevents]
        rfl
  | @begin r payload hr hbatch =>
      obtain ⟨hwritten, hstored⟩ := hI.phases _ _ _ hr
      exact hI.move ⟨⟨Moment.ofEpochSeconds 0, by rw [hwritten, ledgerRows, hbatch]⟩, hstored⟩
  | readMissing hr =>
      obtain ⟨-, hstored⟩ := hI.phases _ _ _ hr
      exact hI.rollback fun hwritten => ⟨hwritten, .inl hstored⟩
  | readOther hr hbatch hexisting hdigest =>
      obtain ⟨hwritten, hstored⟩ := hI.phases _ _ _ hr
      have hledger : InLedger sha256 _ _ _ := inLedger_of_getBatch hwritten hbatch hexisting
      rw [decide_eq_false hdigest] at hledger
      exact hI.rollback fun hwritten => ⟨hwritten, hstored, hledger⟩
  | readSame hr hbatch hexisting hdigest =>
      obtain ⟨hwritten, hstored⟩ := hI.phases _ _ _ hr
      have hledger : InLedger sha256 _ _ _ := inLedger_of_getBatch hwritten hbatch hexisting
      rw [decide_eq_true hdigest] at hledger
      exact hI.move ⟨⟨hwritten, hledger⟩, hstored⟩
  | @resolveItem r payload itemIds itemId hr =>
      exact hI.move (hI.phases r payload (.resolving itemIds) hr)
  | @storeTicks r payload itemIds hr hlength =>
      obtain ⟨⟨now, hwritten⟩, hstored⟩ := hI.phases _ _ _ hr
      refine hI.update (hI.unique.append r (tickRows_conflict payload itemIds))
        (fun r' hother => by rw [TxTable.written_append, if_neg hother]) (fun _ _ => rfl)
        (fun _ hx => hx) ⟨⟨now, itemIds, hlength, ?_⟩, hstored⟩
      rw [TxTable.written_append, if_pos rfl, hwritten]
  | @storeEvents r payload hr =>
      obtain ⟨⟨now, itemIds, hlength, hwritten⟩, hstored⟩ := hI.phases _ _ _ hr
      refine hI.update (hI.unique.append r (eventRows_conflict payload))
        (fun r' hother => by rw [TxTable.written_append, if_neg hother]) (fun _ _ => rfl)
        (fun _ hx => hx) ⟨⟨now, itemIds, hlength, ?_⟩, hstored⟩
      rw [TxTable.written_append, if_pos rfl, hwritten]
  | @commit r payload answer hr =>
      obtain ⟨hstores, hstored⟩ := hI.phases _ _ _ hr
      refine hI.update (hI.unique.commit BulkRow.conflicts_comm r)
        (fun r' hother => by rw [TxTable.written_commit, if_neg hother])
        (fun r' hother => by rw [TxTable.stored_commit, if_neg hother])
        (fun x hx => TxTable.mem_committed_commit.mpr (.inl hx)) ⟨?_, ?_⟩
      · rw [TxTable.written_commit, if_pos rfl]
      · rw [TxTable.stored_commit, if_pos rfl, hstored, List.nil_append]
        exact hstores.mono fun x hx => TxTable.mem_committed_commit.mpr (.inl hx)
  | @answer r payload answer hr => exact hI.move (hI.phases r payload (.committed answer) hr)
  | fail hr hphase =>
      exact hI.rollback fun hwritten => ⟨hwritten, (hI.phases _ _ _ hr).stored_of_fail⟩

theorem inv_of_run {es : List (BulkEvent F)} {st : BulkBackend F}
    (h : runFrom (BulkBackend.step sha256) empty es = some st) : st.Inv sha256 :=
  runFrom_inv (Inv sha256) (fun _ _ _ hI hstep => hI.step hstep) (inv_empty sha256) h

theorem mem_ledgerRows {payload : BulkIngestionPayload F} {now : Moment} {batch : IngestionBatch}
    (h : .batch batch ∈ ledgerRows sha256 payload now) :
    ∃ batchId, payload.batchId = some batchId ∧ batch = ledgerRow sha256 payload batchId now := by
  unfold ledgerRows at h
  split at h
  · rename_i batchId hbatch
    exact ⟨batchId, hbatch, BulkRow.batch.inj (List.mem_singleton.mp h)⟩
  · cases h

/-- The one ledger row of a request that stored anything. -/
theorem batch_mem_of_fullRows {payload : BulkIngestionPayload F} {rows : List (BulkRow F)}
    (h : FullRows sha256 payload rows) {batchId : String} (hbatch : payload.batchId = some batchId) :
    ∃ now, .batch (ledgerRow sha256 payload batchId now) ∈ rows := by
  obtain ⟨now, itemIds, -, rfl⟩ := h
  refine ⟨now, List.mem_append_left _ (List.mem_append_left _ ?_)⟩
  rw [ledgerRows, hbatch]
  exact List.mem_singleton_self _

theorem batch_of_mem_fullRows {payload : BulkIngestionPayload F} {rows : List (BulkRow F)}
    (h : FullRows sha256 payload rows) {batch : IngestionBatch} (hmem : .batch batch ∈ rows) :
    payload.batchId = some batch.batchId ∧
      batch.payloadSha256 = bulkPayloadDigest sha256 payload := by
  obtain ⟨now, itemIds, -, rfl⟩ := h
  rcases List.mem_append.mp hmem with hmem | hmem
  · rcases List.mem_append.mp hmem with hmem | hmem
    · obtain ⟨batchId, hbatch, rfl⟩ := mem_ledgerRows hmem
      exact ⟨hbatch, rfl⟩
    · obtain ⟨pair, -, heq⟩ := List.mem_map.mp hmem
      cases heq
  · obtain ⟨event, -, heq⟩ := List.mem_map.mp hmem
    cases heq

/-- The request has the batch id and has stored rows. -/
def Wrote (st : BulkBackend F) (r : Nat) (payload : BulkIngestionPayload F) (batchId : String) :
    Prop :=
  (∃ phase, st.requests r = some ⟨payload, phase⟩) ∧ payload.batchId = some batchId ∧
    st.rows.stored r ≠ []

/-- A request with all its rows has stored some: its ledger row. -/
theorem wrote_of_fullRows {st : BulkBackend F} {r : Nat} {payload : BulkIngestionPayload F}
    {phase : BulkPhase} {batchId : String} (hr : st.requests r = some ⟨payload, phase⟩)
    (hbatch : payload.batchId = some batchId) (hfull : FullRows sha256 payload (st.rows.stored r)) :
    st.Wrote r payload batchId := by
  obtain ⟨now, hmem⟩ := batch_mem_of_fullRows hfull hbatch
  exact ⟨⟨phase, hr⟩, hbatch, List.ne_nil_of_mem hmem⟩

theorem Inv.fullRows {st : BulkBackend F} (hI : st.Inv sha256) {r : Nat}
    {payload : BulkIngestionPayload F} {batchId : String} (h : st.Wrote r payload batchId) :
    FullRows sha256 payload (st.rows.stored r) := by
  obtain ⟨⟨phase, hr⟩, -, hstored⟩ := h
  exact (hI.phases r payload phase hr).stored_of_fail.resolve_left hstored

theorem Inv.committed_of_wrote {st : BulkBackend F} (hI : st.Inv sha256) {r : Nat}
    {payload : BulkIngestionPayload F} {batchId : String} (h : st.Wrote r payload batchId) :
    ∃ now, (r, .batch (ledgerRow sha256 payload batchId now)) ∈ st.rows.committed := by
  obtain ⟨now, hmem⟩ := batch_mem_of_fullRows (hI.fullRows h) h.2.1
  exact ⟨now, TxTable.mem_ofTx.mp hmem⟩

/-- Behind each ledger row is the request that wrote it. -/
theorem Inv.wrote_of_committed {st : BulkBackend F} (hI : st.Inv sha256) {r : Nat}
    {batch : IngestionBatch} (hmem : (r, .batch batch) ∈ st.rows.committed) :
    ∃ payload, st.Wrote r payload batch.batchId ∧
      batch.payloadSha256 = bulkPayloadDigest sha256 payload := by
  have hown : .batch batch ∈ st.rows.stored r := TxTable.mem_ofTx.mpr hmem
  have hstored : st.rows.stored r ≠ [] := List.ne_nil_of_mem hown
  cases hr : st.requests r with
  | none => exact absurd (hI.unknown r hr).2 hstored
  | some request =>
      obtain ⟨payload, phase⟩ := request
      have hfull := (hI.phases r payload phase hr).stored_of_fail.resolve_left hstored
      obtain ⟨hbatch, hdigest⟩ := batch_of_mem_fullRows hfull hown
      exact ⟨payload, ⟨⟨phase, hr⟩, hbatch, hstored⟩, hdigest⟩

/-- Two ledger rows of one batch id are one. -/
theorem Inv.eq_of_committed {st : BulkBackend F} (hI : st.Inv sha256) {r r' : Nat}
    {a b : IngestionBatch} (ha : (r, .batch a) ∈ st.rows.committed)
    (hb : (r', .batch b) ∈ st.rows.committed) (hid : a.batchId = b.batchId) : r = r' :=
  congrArg Prod.fst
    (hI.unique.eq_of_conflicts BulkRow.conflicts_comm ha hb (decide_eq_true hid))

theorem Inv.wrote_unique {st : BulkBackend F} (hI : st.Inv sha256) {r r' : Nat}
    {payload payload' : BulkIngestionPayload F} {batchId : String} (h : st.Wrote r payload batchId)
    (h' : st.Wrote r' payload' batchId) : r = r' := by
  obtain ⟨now, hmem⟩ := hI.committed_of_wrote h
  obtain ⟨now', hmem'⟩ := hI.committed_of_wrote h'
  exact hI.eq_of_committed hmem hmem' rfl

/-- A step moves one request on, or receives it, and no request loses a stored row. -/
theorem Stepped.moves {st st' : BulkBackend F} {e : BulkEvent F} (h : Stepped sha256 st e st') :
    ∃ r payload phase rows, st' = { st with rows := rows }.setPhase r payload phase ∧
      (e = .receive r payload ∧ st.requests r = none ∨
        ∃ old, st.requests r = some ⟨payload, old⟩) ∧
      ∀ r', st.rows.stored r' <+: rows.stored r' := by
  cases h with
  | receive hr => exact ⟨_, _, _, st.rows, rfl, .inl ⟨rfl, hr⟩, fun _ => List.prefix_refl _⟩
  | @register r payload now batchId rows inserted hr hbatch hinsert =>
      refine ⟨r, payload, _, rows, rfl, .inr ⟨_, hr⟩, ?_⟩
      obtain ⟨-, rfl, -⟩ | ⟨-, rfl, -⟩ := TxTable.insert?_cases hinsert
      · exact fun _ => List.prefix_refl _
      · exact fun _ => List.prefix_refl _
  | beginEmpty hr => exact ⟨_, _, _, st.rows, rfl, .inr ⟨_, hr⟩, fun _ => List.prefix_refl _⟩
  | begin hr => exact ⟨_, _, _, st.rows, rfl, .inr ⟨_, hr⟩, fun _ => List.prefix_refl _⟩
  | readMissing hr => exact ⟨_, _, _, _, rfl, .inr ⟨_, hr⟩, fun _ => List.prefix_refl _⟩
  | readOther hr => exact ⟨_, _, _, _, rfl, .inr ⟨_, hr⟩, fun _ => List.prefix_refl _⟩
  | readSame hr => exact ⟨_, _, _, st.rows, rfl, .inr ⟨_, hr⟩, fun _ => List.prefix_refl _⟩
  | resolveItem hr => exact ⟨_, _, _, st.rows, rfl, .inr ⟨_, hr⟩, fun _ => List.prefix_refl _⟩
  | storeTicks hr => exact ⟨_, _, _, _, rfl, .inr ⟨_, hr⟩, fun _ => List.prefix_refl _⟩
  | storeEvents hr => exact ⟨_, _, _, _, rfl, .inr ⟨_, hr⟩, fun _ => List.prefix_refl _⟩
  | @commit r payload answer hr =>
      refine ⟨r, payload, _, st.rows.commit r, rfl, .inr ⟨_, hr⟩, fun r' => ?_⟩
      rw [TxTable.stored_commit]
      split
      · rename_i heq
        rw [heq]
        exact List.prefix_append _ _
      · exact List.prefix_refl _
  | answer hr => exact ⟨_, _, _, st.rows, rfl, .inr ⟨_, hr⟩, fun _ => List.prefix_refl _⟩
  | fail hr => exact ⟨_, _, _, _, rfl, .inr ⟨_, hr⟩, fun _ => List.prefix_refl _⟩

/-- A request keeps its payload. -/
theorem requests_step {st st' : BulkBackend F} {e : BulkEvent F} (h : st.step sha256 e = some st')
    {r : Nat} {payload : BulkIngestionPayload F} {phase : BulkPhase}
    (hr : st.requests r = some ⟨payload, phase⟩) :
    ∃ phase', st'.requests r = some ⟨payload, phase'⟩ := by
  obtain ⟨r', payload', phase', rows, rfl, hold, -⟩ := (step_cases h).moves
  rw [requests_setPhase]
  split
  · rename_i heq
    subst heq
    obtain ⟨-, hnone⟩ | ⟨old, hold⟩ := hold
    · rw [hr] at hnone
      cases hnone
    · rw [hr] at hold
      rw [(BulkRequest.mk.inj (Option.some.inj hold)).1]
      exact ⟨phase', rfl⟩
  · exact ⟨phase, hr⟩

/-- Behind a request of a step is one from before it, or the step received it. -/
theorem requests_of_step {st st' : BulkBackend F} {e : BulkEvent F}
    (h : st.step sha256 e = some st') {r : Nat} {payload : BulkIngestionPayload F}
    {phase : BulkPhase} (hr : st'.requests r = some ⟨payload, phase⟩) :
    e = .receive r payload ∨ ∃ old, st.requests r = some ⟨payload, old⟩ := by
  obtain ⟨r', payload', phase', rows, rfl, hold, -⟩ := (step_cases h).moves
  rw [requests_setPhase] at hr
  split at hr
  · rename_i heq
    subst heq
    obtain ⟨rfl, -⟩ := BulkRequest.mk.inj (Option.some.inj hr)
    exact hold.imp_left And.left
  · exact .inr ⟨phase, hr⟩

theorem requests_receive {st st' : BulkBackend F} {r : Nat} {payload : BulkIngestionPayload F}
    (h : st.step sha256 (.receive r payload) = some st') :
    st'.requests r = some ⟨payload, .received⟩ := by
  cases step_cases h with
  | receive hr => exact requests_setPhase_self st r payload .received

theorem Wrote.step {st st' : BulkBackend F} {e : BulkEvent F} (h : st.step sha256 e = some st')
    {r : Nat} {payload : BulkIngestionPayload F} {batchId : String}
    (hwrote : st.Wrote r payload batchId) : st'.Wrote r payload batchId := by
  obtain ⟨⟨phase, hr⟩, hbatch, hstored⟩ := hwrote
  refine ⟨requests_step h hr, hbatch, ?_⟩
  obtain ⟨r', payload', phase', rows, rfl, -, hrows⟩ := (step_cases h).moves
  intro hnil
  have hprefix := hrows r
  rw [show rows.stored r = [] from hnil] at hprefix
  exact hstored (List.prefix_nil.mp hprefix)

/-! ## One payload for each batch id -/

/-- The requests of a batch id are those of one payload. -/
def OnePayload (st : BulkBackend F) : Prop :=
  ∀ r r' payload payload' phase phase' batchId, st.requests r = some ⟨payload, phase⟩ →
    st.requests r' = some ⟨payload', phase'⟩ → payload.batchId = some batchId →
    payload'.batchId = some batchId → payload = payload'

/-- A batch id in the ledger is there for the payload itself. -/
theorem Inv.wrote_of_inLedger {st : BulkBackend F} (hI : st.Inv sha256) (hone : st.OnePayload)
    {r : Nat} {payload : BulkIngestionPayload F} {phase : BulkPhase} {same : Bool}
    (hr : st.requests r = some ⟨payload, phase⟩) (h : InLedger sha256 st.rows payload same) :
    same = true ∧ ∃ r' batchId, payload.batchId = some batchId ∧ st.Wrote r' payload batchId := by
  obtain ⟨r', batch, hmem, hbatch, hsame⟩ := h
  obtain ⟨payload', hwrote, hdigest⟩ := hI.wrote_of_committed hmem
  obtain ⟨phase', hr'⟩ := hwrote.1
  obtain rfl := hone r r' payload payload' phase phase' batch.batchId hr hr' hbatch hwrote.2.1
  exact ⟨by rw [← hsame, hdigest, decide_eq_true_eq], r', batch.batchId, hbatch, hwrote⟩

theorem Inv.not_conflict {st : BulkBackend F} (hI : st.Inv sha256) (hone : st.OnePayload) {r : Nat}
    {payload : BulkIngestionPayload F} : st.requests r ≠ some ⟨payload, .answered .conflict⟩ := by
  intro hr
  obtain ⟨-, -, hledger⟩ := hI.phases r payload (.answered .conflict) hr
  cases (hI.wrote_of_inLedger hone hr hledger).1

/-- Of an answered batch the payload is stored. -/
theorem Inv.wrote_of_answered {st : BulkBackend F} (hI : st.Inv sha256) (hone : st.OnePayload)
    {r : Nat} {payload : BulkIngestionPayload F} {answer : BulkAnswer} {batchId : String}
    (hr : st.requests r = some ⟨payload, .answered answer⟩) (hbatch : payload.batchId = some batchId) :
    ∃ r', st.Wrote r' payload batchId := by
  obtain ⟨-, hstores⟩ := hI.phases r payload (.answered answer) hr
  cases answer with
  | success records events => exact ⟨r, wrote_of_fullRows hr hbatch hstores⟩
  | skipped => exact ⟨r, wrote_of_fullRows hr hbatch hstores⟩
  | duplicate =>
      obtain ⟨-, r', batchId', hbatch', hwrote⟩ := hI.wrote_of_inLedger hone hr hstores.2
      obtain rfl := Option.some.inj (hbatch'.symm.trans hbatch)
      exact ⟨r', hwrote⟩
  | conflict => exact absurd hr (hI.not_conflict hone)

end

/-! ## Exactly once -/

section
variable [PyFloat F] [LawfulPyFloat F] {sha256 : String → String}

end

end BulkBackend

end BrandSniper.Bulk
