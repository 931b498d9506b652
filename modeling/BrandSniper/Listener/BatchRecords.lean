import BrandSniper.Kit.Binary64
import BrandSniper.Backend.BulkPayload
import BrandSniper.Listener.Models

/-!
# Batch records

The records a listener sends to the backend: `to_batch_record` of
`apps/listener/models.py` and `StoredBatch.payload` of
`apps/listener/batch_delivery.py`, against the schemas of
`apps/backend/schemas.py`.

The ticks and feed events here hold every field a record has. Their checks are
fields of the structures, so a value is one that passes the listener's models.
What the backend refuses of them is `MeetsBackend`: prices at most half a cent,
whole-second times that are not positive, event types of blanks. One such
record makes it refuse the batch (`validate_payload_isSome_iff`).

Prices are finite binary64 floats. A price whose product by 100 is infinite
has no record: `round` raises.
-/

namespace BrandSniper.Batch

open Kit Json Bulk Kit.Text

variable {F : Type}

/-! ## What pydantic reads of a record -/

/-- Validation of values that have the type of their field already. -/
structure ReadsRecords (types : ScalarTypes F) (inUnit : F → Prop) : Prop where
  int : ∀ z, types.int (.int z) = some z
  str : ∀ s, types.str (.str s) = some s
  unitFloat : ∀ x, inUnit x → types.unitFloat (.float x) = some x
  /-- `strip_whitespace` -/
  strip : ∀ s, types.strip s = Text.strip s

namespace ReadsRecords

variable {types : ScalarTypes F} {inUnit : F → Prop}

theorem positive (h : ReadsRecords types inUnit) (z : Int) :
    types.positive (.int z) = if 0 < z then some z else none := by
  rw [ScalarTypes.positive, h.int, Option.filter_some]
  simp only [decide_eq_true_eq]

theorem nonnegative (h : ReadsRecords types inUnit) {z : Int} (hz : 0 ≤ z) :
    types.nonnegative (.int z) = some z := by
  rw [ScalarTypes.nonnegative, h.int]
  simp [hz]

theorem text (h : ReadsRecords types inUnit) {maxLength : Nat} {s : String}
    (hs : s.length ≤ maxLength) : types.text maxLength (.str s) = some s := by
  rw [ScalarTypes.text, h.str]
  simp [hs]

/-- Of a text that is short enough, only one without anything but blanks is refused. -/
theorem nonEmptyText_isSome_iff (h : ReadsRecords types inUnit) {maxLength : Nat} {s : String}
    (hs : s.length ≤ maxLength) : (types.nonEmptyText maxLength (.str s)).isSome = true
      ↔ ∃ c ∈ s.toList, isWhiteSpace c = false := by
  have hlength : (Text.strip s).length ≤ maxLength := (length_strip_le s).trans hs
  have hpos : 1 ≤ (Text.strip s).length ↔ Text.strip s ≠ "" := by
    rw [Nat.one_le_iff_ne_zero, ne_eq, ne_eq, ← String.length_toList, List.length_eq_zero_iff,
      String.toList_eq_nil_iff]
  rw [ScalarTypes.nonEmptyText, h.str, Option.map_some, h.strip, Option.filter_some,
    ← strip_ne_empty_iff, ← hpos]
  simp [hlength]

end ReadsRecords

/-! ## Ticks -/

/-- `MarketTick`, with the fields of its record. `inUnit` is the check `ge=0, le=1` of a float. -/
structure MarketTick (F : Type) (inUnit : F → Prop) where
  venue : String
  kind : TickKind
  marketHashName : String
  priceUsd : Binary64
  timestamp : Int
  observedAtMs : Option Int
  floatValue : Option F
  stickers : List (List (String × Json F))
  eventType : Option String
  listingId : Option String
  pattern : Option Int
  paintIndex : Option Int
  listingUrl : Option String
  venueName : isVenueName venue = true
  pricePositive : 0 < priceUsd.units
  observedPositive : ∀ ms, observedAtMs = some ms → 0 < ms
  floatInUnit : ∀ x, floatValue = some x → inUnit x
  eventTypeLength : ∀ s, eventType = some s → s.length ≤ 32
  listingIdLength : ∀ s, listingId = some s → s.length ≤ 64
  patternNonnegative : ∀ z, pattern = some z → 0 ≤ z
  paintIndexNonnegative : ∀ z, paintIndex = some z → 0 ≤ z
  listingUrlLength : ∀ s, listingUrl = some s → s.length ≤ 512
  kindMatchesEventType : kind = TickKind.expected eventType
  observedAtMatchesTimestamp : observedInside observedAtMs timestamp = true

/-- The float `0.005`. -/
def halfCentUsd : Binary64 :=
  .ofParts 5764607523034235 (oneExponent - 60) (by decide) (by decide)

namespace MarketTick

variable {inUnit : F → Prop}

/-- `int(round(price_usd * 100))`; `none` where it raises. -/
def priceCents (tick : MarketTick F inUnit) : Option Nat :=
  (tick.priceUsd.mulNat 100).map Binary64.round

def observedAtEpochMs (tick : MarketTick F inUnit) : Int :=
  tick.observedAtMs.getD (tick.timestamp * 1000)

def isRestSnapshot (tick : MarketTick F inUnit) : Bool := tick.kind == .restSnapshot

/-- The sticker list of a record. A listing without stickers says so: no list means unknown. -/
def recordStickers (tick : MarketTick F inUnit) : Option (List (List (String × Json F))) :=
  if !tick.stickers.isEmpty || !tick.isRestSnapshot then some tick.stickers else none

/-- The fields of a record, `none` where it has none. -/
def recordColumns (tick : MarketTick F inUnit) (priceCents : Nat) :
    List (String × Option (Json F)) :=
  [("market_hash_name", some (.str tick.marketHashName)),
    ("price_cents", some (.int priceCents)),
    ("timestamp", some (.int tick.timestamp)),
    ("observed_at_ms", some (.int tick.observedAtEpochMs)),
    ("event_type", tick.eventType.map .str),
    ("listing_id", tick.listingId.map .str),
    ("float_value", tick.floatValue.map .float),
    ("pattern", tick.pattern.map .int),
    ("paint_index", tick.paintIndex.map .int),
    ("listing_url", tick.listingUrl.map .str),
    ("stickers", tick.recordStickers.map fun dicts => .arr (dicts.map .obj))]

def toBatchRecord (tick : MarketTick F inUnit) : Option (List (String × Json F)) :=
  tick.priceCents.map fun priceCents => present (tick.recordColumns priceCents)

/-- The tick has a record, and the backend's `BulkPriceTick` accepts it. -/
def Accepted (types : ScalarTypes F) (tick : MarketTick F inUnit) : Prop :=
  ∃ fields, tick.toBatchRecord = some fields ∧ (validateTick types fields).isSome = true

/-- The ticks the backend accepts: the price is above half a cent, its product by 100 is finite,
and a tick without a millisecond time has a second after the epoch's first. -/
structure MeetsBackend (tick : MarketTick F inUnit) : Prop where
  aboveHalfCent : halfCentUsd.units < tick.priceUsd.units
  finiteCents : tick.priceUsd.units * 100 + 2 ^ (infExponent - 53 - 1) < 2 ^ infExponent
  afterEpoch : tick.observedAtMs = none → 0 < tick.timestamp

end MarketTick

/-! ## Feed events -/

/-- `FeedEvent`, with the fields of its record. -/
structure FeedEvent (F : Type) where
  eventType : String
  receivedAtMs : Int
  payload : List (String × Json F)
  eventTypeNonempty : 1 ≤ eventType.length
  eventTypeLength : eventType.length ≤ 32
  receivedPositive : 0 < receivedAtMs

namespace FeedEvent

def toBatchRecord (event : FeedEvent F) : List (String × Json F) :=
  [("event_type", .str event.eventType), ("received_at_ms", .int event.receivedAtMs),
    ("payload", .obj event.payload)]

/-- The backend's `BulkFeedEvent` accepts the record. -/
def Accepted (types : ScalarTypes F) (event : FeedEvent F) : Prop :=
  (validateFeedEvent types event.toBatchRecord).isSome = true

/-- The event's type is more than blanks. -/
def MeetsBackend (event : FeedEvent F) : Prop :=
  ∃ c ∈ event.eventType.toList, isWhiteSpace c = false

end FeedEvent

namespace Skinport

/-- Python's truth value of a JSON value. -/
def truthy (isZero : F → Bool) : Json F → Bool
  | .null => false
  | .bool b => b
  | .int z => z ≠ 0
  | .float x => !isZero x
  | .str s => s ≠ ""
  | .arr items => !items.isEmpty
  | .obj fields => !fields.isEmpty

/-- `str(payload.get("eventType") or "unknown")[:MAX_EVENT_TYPE_LENGTH]` -/
def feedEventType (isZero : F → Bool) (pyStr : Json F → String)
    (payload : List (String × Json F)) : String :=
  let eventType := ((getField payload "eventType").filter (truthy isZero)).getD (.str "unknown")
  String.ofList ((pyStr eventType).toList.take 32)

/-- The raw event of `parse_sale_feed_event`; `none` where it raises. -/
def saleFeedEvent (isZero : F → Bool) (pyStr : Json F → String)
    (payload : List (String × Json F)) (receivedAtMs : Int) : Option (FeedEvent F) :=
  if h : 0 < receivedAtMs ∧ 1 ≤ (feedEventType isZero pyStr payload).length then
    some ⟨feedEventType isZero pyStr payload, receivedAtMs, payload, h.2, by
      rw [feedEventType, String.length_ofList]
      exact List.length_take_le _ _, h.1⟩
  else none

end Skinport

/-! ## Batches -/

structure StoredBatch (F : Type) where
  recordId : String
  batchId : String
  venue : String
  ticks : List (List (String × Json F))
  feedEvents : List (List (String × Json F))

/-- The body of the ingestion request. -/
def StoredBatch.payload (batch : StoredBatch F) : List (String × Json F) :=
  [("batch_id", .str batch.batchId), ("venue", .str batch.venue),
    ("ticks", .arr (batch.ticks.map .obj))] ++
  -- a batch without raw events keeps its older wire format
  if batch.feedEvents.isEmpty then []
  else [("feed_events", .arr (batch.feedEvents.map .obj))]

/-! ## What the backend reads -/

theorem list_dict_map_obj (dicts : List (List (String × Json F))) :
    list dict (.arr (dicts.map .obj)) = some dicts := by
  rw [list]
  induction dicts with
  | nil => rfl
  | cons fields rest ih =>
      rw [List.map_cons, List.mapM_cons, ih]
      rfl

theorem mapM_isSome_iff {α β : Type} {f : α → Option β} {l : List α} :
    (l.mapM f).isSome = true ↔ ∀ a ∈ l, (f a).isSome = true := by
  induction l with
  | nil => exact iff_of_true rfl (List.forall_mem_nil _)
  | cons a rest ih =>
      rw [List.mapM_cons, List.forall_mem_cons, ← ih]
      cases f a <;> cases rest.mapM f <;> simp

theorem list_obj_isSome_iff {α : Type} {item : List (String × Json F) → Option α}
    {dicts : List (List (String × Json F))} :
    (list (fun j => (dict j).bind item) (.arr (dicts.map .obj))).isSome = true
      ↔ ∀ fields ∈ dicts, (item fields).isSome = true := by
  rw [list, mapM_isSome_iff, List.forall_mem_map]
  rfl

namespace MarketTick

variable {inUnit : F → Prop} {types : ScalarTypes F}

theorem getField_record (tick : MarketTick F inUnit) {cents : Nat} (key : String)
    (value : Option (Json F)) (h : (key, value) ∈ tick.recordColumns cents) :
    getField (present (tick.recordColumns cents)) key = value := by
  refine getField_present ?_ h
  show (["market_hash_name", "price_cents", "timestamp", "observed_at_ms", "event_type",
    "listing_id", "float_value", "pattern", "paint_index", "listing_url", "stickers"] :
      List String).Nodup
  decide

theorem required_record (tick : MarketTick F inUnit) (cents : Nat) (key : String) (j : Json F)
    {α : Type} (type : Json F → Option α) (h : (key, some j) ∈ tick.recordColumns cents) :
    required type (present (tick.recordColumns cents)) key = type j := by
  rw [required, tick.getField_record key _ h, Option.bind_some]

theorem optional_record (tick : MarketTick F inUnit) (cents : Nat) (key : String) {α : Type}
    (value : Option α) (toJson : α → Json F) (type : Json F → Option α)
    (h : (key, value.map toJson) ∈ tick.recordColumns cents)
    (hread : ∀ x, value = some x → toJson x ≠ .null ∧ type (toJson x) = some x) :
    Bulk.optional type (present (tick.recordColumns cents)) key = some value := by
  rw [Bulk.optional, tick.getField_record key _ h]
  cases value with
  | none => rfl
  | some x =>
      obtain ⟨hnull, htype⟩ := hread x rfl
      rw [Option.map_some]
      split
      · contradiction
      · exact absurd (Option.some.inj ‹_›) hnull
      · rename_i j _ hj
        cases hj
        rw [htype, Option.map_some]

/-- Of a record the backend checks its price and its millisecond time again; the listener
checked the rest as it does. -/
theorem validateTick_record_isSome_iff (h : ReadsRecords types inUnit)
    (tick : MarketTick F inUnit) (cents : Nat) :
    (validateTick types (present (tick.recordColumns cents))).isSome = true
      ↔ 0 < cents ∧ 0 < tick.observedAtEpochMs := by
  have hname := tick.required_record cents "market_hash_name" (.str tick.marketHashName) types.str
    (by simp [recordColumns])
  have hprice := tick.required_record cents "price_cents" (.int cents) types.positive
    (by simp [recordColumns])
  have htime := tick.required_record cents "timestamp" (.int tick.timestamp) types.int
    (by simp [recordColumns])
  have hobserved : Bulk.optional types.positive (present (tick.recordColumns cents))
      "observed_at_ms" = (types.positive (.int tick.observedAtEpochMs)).map some := by
    rw [Bulk.optional, tick.getField_record _
      (some (.int tick.observedAtEpochMs)) (by simp [recordColumns])]
  have hevent := tick.optional_record cents "event_type" tick.eventType .str (types.text 32)
    (by simp [recordColumns])
    fun s hs => ⟨by simp, h.text (tick.eventTypeLength s hs)⟩
  have hlisting := tick.optional_record cents "listing_id" tick.listingId .str (types.text 64)
    (by simp [recordColumns])
    fun s hs => ⟨by simp, h.text (tick.listingIdLength s hs)⟩
  have hfloat := tick.optional_record cents "float_value" tick.floatValue .float types.unitFloat
    (by simp [recordColumns])
    fun x hx => ⟨by simp, h.unitFloat x (tick.floatInUnit x hx)⟩
  have hpattern := tick.optional_record cents "pattern" tick.pattern .int types.nonnegative
    (by simp [recordColumns])
    fun z hz => ⟨by simp, h.nonnegative (tick.patternNonnegative z hz)⟩
  have hpaint := tick.optional_record cents "paint_index" tick.paintIndex .int types.nonnegative
    (by simp [recordColumns])
    fun z hz => ⟨by simp, h.nonnegative (tick.paintIndexNonnegative z hz)⟩
  have hstickers := tick.optional_record cents "stickers" tick.recordStickers
    (fun dicts => .arr (dicts.map .obj)) (list dict)
    (by simp [recordColumns]) fun dicts _ => ⟨by simp, list_dict_map_obj dicts⟩
  have hurl := tick.optional_record cents "listing_url" tick.listingUrl .str (types.text 512)
    (by simp [recordColumns])
    fun s hs => ⟨by simp, h.text (tick.listingUrlLength s hs)⟩
  unfold validateTick
  rw [hname, h.str, hprice, h.positive, htime, h.int, hobserved, h.positive, hevent, hlisting,
    hfloat, hpattern, hpaint, hstickers, hurl]
  by_cases hcents : 0 < cents
  · by_cases hms : 0 < tick.observedAtEpochMs
    · simp [hcents, hms]
    · simp [hcents, hms]
  · simp [hcents]

/-- Above half a cent, and only there, a price has cents: `0.005 * 100` is rounded to one half,
and one half to zero. -/
theorem halfCent_lt_iff (price : Binary64) :
    2 ^ (oneExponent - 1) < roundTo 53 (price.units * 100) ↔ halfCentUsd.units < price.units := by
  have hpos := Nat.two_pow_pos (oneExponent - 60)
  have hone : 2 ^ (oneExponent - 1) = 2 ^ 59 * 2 ^ (oneExponent - 60) := by
    rw [← Nat.pow_add, show 59 + (oneExponent - 60) = oneExponent - 1 by decide]
  have hstep : 2 ^ (oneExponent - 1 - 53) = 2 ^ 6 * 2 ^ (oneExponent - 60) := by
    rw [← Nat.pow_add, show 6 + (oneExponent - 60) = oneExponent - 1 - 53 by decide]
  have hbinade : 2 ^ (oneExponent - 8) = 2 ^ 52 * 2 ^ (oneExponent - 60) := by
    rw [← Nat.pow_add, show 52 + (oneExponent - 60) = oneExponent - 8 by decide]
  rw [two_pow_lt_roundTo_iff (by omega) (by decide), hone, hstep]
  show _ ↔ 5764607523034235 * 2 ^ (oneExponent - 60) < price.units
  rcases Nat.lt_or_ge price.units (2 ^ (oneExponent - 8)) with hlow | hhigh
  · omega
  · -- the floats from there on are multiples of `2 ^ (oneExponent - 60)` units
    obtain ⟨c, hc⟩ := price.representable.dvd hhigh
    have hc : price.units = c * 2 ^ (oneExponent - 60) := by
      rw [hc, Nat.mul_comm, show oneExponent - 8 + 1 - 53 = oneExponent - 60 by decide]
    have hcents : c * 2 ^ (oneExponent - 60) * 100 = c * 100 * 2 ^ (oneExponent - 60) := by ring
    rw [hc, hcents, ← Nat.add_mul, Nat.mul_lt_mul_right hpos, Nat.mul_lt_mul_right hpos]
    omega

theorem priceCents_pos_iff (tick : MarketTick F inUnit) :
    (∃ cents, tick.priceCents = some cents ∧ 0 < cents)
      ↔ halfCentUsd.units < tick.priceUsd.units ∧
        tick.priceUsd.units * 100 + 2 ^ (infExponent - 53 - 1) < 2 ^ infExponent := by
  rw [← halfCent_lt_iff, ← Binary64.mulNat_isSome_iff, priceCents]
  cases hproduct : tick.priceUsd.mulNat 100 with
  | none => simp
  | some product =>
      rw [← Binary64.units_of_mulNat hproduct, ← Binary64.round_pos_iff]
      simp

theorem observedAtEpochMs_pos_iff (tick : MarketTick F inUnit) :
    0 < tick.observedAtEpochMs ↔ (tick.observedAtMs = none → 0 < tick.timestamp) := by
  rw [observedAtEpochMs]
  cases hms : tick.observedAtMs with
  | none =>
      rw [Option.getD_none]
      exact ⟨fun h _ => by omega, fun h => by
        have := h rfl
        omega⟩
  | some ms =>
      rw [Option.getD_some]
      exact iff_of_true (tick.observedPositive ms hms) nofun

theorem accepted_iff (h : ReadsRecords types inUnit) (tick : MarketTick F inUnit) :
    tick.Accepted types ↔ tick.MeetsBackend := by
  have hrecord : tick.Accepted types
      ↔ (∃ cents, tick.priceCents = some cents ∧ 0 < cents) ∧ 0 < tick.observedAtEpochMs := by
    rw [Accepted, toBatchRecord]
    cases hcents : tick.priceCents with
    | none => simp
    | some cents => simp [tick.validateTick_record_isSome_iff h cents]
  rw [hrecord, priceCents_pos_iff, observedAtEpochMs_pos_iff]
  exact ⟨fun h => ⟨h.1.1, h.1.2, h.2⟩, fun h => ⟨⟨h.aboveHalfCent, h.finiteCents⟩, h.afterEpoch⟩⟩

end MarketTick

section
variable {inUnit : F → Prop} {types : ScalarTypes F}

theorem FeedEvent.accepted_iff (h : ReadsRecords types inUnit) (event : FeedEvent F) :
    event.Accepted types ↔ event.MeetsBackend := by
  have htype : required (types.nonEmptyText 32) event.toBatchRecord "event_type"
      = types.nonEmptyText 32 (.str event.eventType) := rfl
  have htime : required types.positive event.toBatchRecord "received_at_ms"
      = types.positive (.int event.receivedAtMs) := rfl
  have hpayload : required dict event.toBatchRecord "payload" = some event.payload := rfl
  rw [FeedEvent.Accepted, FeedEvent.MeetsBackend, ← h.nonEmptyText_isSome_iff event.eventTypeLength,
    validateFeedEvent, htype, htime, hpayload, h.positive, if_pos event.receivedPositive]
  cases types.nonEmptyText 32 (.str event.eventType) <;> simp

theorem isWhiteSpace_venueChar {c : Char} (h : isVenueChar c = true) : isWhiteSpace c = false := by
  have hrange : c.toNat = 45 ∨ (48 ≤ c.toNat ∧ c.toNat ≤ 57) ∨ c.toNat = 95 ∨
      (97 ≤ c.toNat ∧ c.toNat ≤ 122) := by
    simp only [isVenueChar, Bool.or_eq_true, Bool.and_eq_true, decide_eq_true_eq,
      beq_iff_eq] at h
    obtain ((⟨hlow, hhigh⟩ | ⟨hlow, hhigh⟩) | rfl) | rfl := h
    · exact .inr (.inr (.inr ⟨hlow, hhigh⟩))
    · exact .inr (.inl ⟨hlow, hhigh⟩)
    · exact .inr (.inr (.inl rfl))
    · exact .inl rfl
  simp [isWhiteSpace]
  omega

theorem nonEmptyText_venue (h : ReadsRecords types inUnit) {venue : String}
    (hvenue : isVenueName venue = true) :
    (types.nonEmptyText 32 (.str venue)).isSome = true := by
  simp only [isVenueName, Bool.and_eq_true, decide_eq_true_eq, List.all_eq_true] at hvenue
  obtain ⟨⟨hne, hlength⟩, hchars⟩ := hvenue
  refine (h.nonEmptyText_isSome_iff hlength).mpr ?_
  obtain ⟨c, hc⟩ := List.exists_mem_of_ne_nil _ hne
  exact ⟨c, hc, isWhiteSpace_venueChar (hchars c hc)⟩

/-- The backend accepts a request exactly if it accepts each of its records. -/
theorem validate_payload_isSome_iff (h : ReadsRecords types inUnit) (batch : StoredBatch F)
    (hid : (types.uuid (.str batch.batchId)).isSome = true)
    (hvenue : isVenueName batch.venue = true) :
    (validate types batch.payload).isSome = true
      ↔ (∀ fields ∈ batch.ticks, (validateTick types fields).isSome = true) ∧
        ∀ fields ∈ batch.feedEvents, (validateFeedEvent types fields).isSome = true := by
  obtain ⟨id, hid⟩ := Option.isSome_iff_exists.mp hid
  obtain ⟨venue, hvenue⟩ := Option.isSome_iff_exists.mp (nonEmptyText_venue h hvenue)
  have hbatch : Bulk.optional types.uuid batch.payload "batch_id" = some (some id) := by
    show (types.uuid (.str batch.batchId)).map some = _
    rw [hid, Option.map_some]
  have hsource : (venueField batch.payload).bind (types.nonEmptyText 32) = some venue := hvenue
  have hticks : required (list fun j => (dict j).bind (validateTick types)) batch.payload "ticks"
      = list (fun j => (dict j).bind (validateTick types)) (.arr (batch.ticks.map .obj)) := rfl
  rw [validate, hbatch, hsource, hticks, ← list_obj_isSome_iff,
    ← @list_obj_isSome_iff F _ (validateFeedEvent types)]
  cases hevents : batch.feedEvents with
  | nil =>
      have hnone : getField batch.payload "feed_events" = none := by
        rw [StoredBatch.payload, hevents]
        rfl
      rw [hnone]
      cases list (fun j => (dict j).bind (validateTick types)) (.arr (batch.ticks.map .obj)) <;>
        simp [list]
  | cons event rest =>
      have hsome : getField batch.payload "feed_events"
          = some (.arr ((event :: rest).map .obj)) := by
        rw [StoredBatch.payload, hevents]
        rfl
      rw [hsome]
      simp only [Option.bind_eq_bind, Option.bind_some]
      cases list (fun j => (dict j).bind (validateTick types)) (.arr (batch.ticks.map .obj)) <;>
        cases list (fun j => (dict j).bind (validateFeedEvent types))
          (.arr ((event :: rest).map .obj)) <;> simp

/-- What one flush puts into a batch: values that pass the listener's models. -/
structure EdgeBatch (F : Type) (inUnit : F → Prop) where
  batchId : String
  venue : String
  ticks : List (MarketTick F inUnit)
  feedEvents : List (FeedEvent F)
  venueName : isVenueName venue = true

/-- The batch with the records of its values; `none` where one raises. -/
def EdgeBatch.stored (batch : EdgeBatch F inUnit) : Option (StoredBatch F) :=
  (batch.ticks.mapM MarketTick.toBatchRecord).map fun ticks =>
    ⟨"", batch.batchId, batch.venue, ticks, batch.feedEvents.map FeedEvent.toBatchRecord⟩

/-- Every value has a record, and the backend accepts the request. -/
def EdgeBatch.Accepted (types : ScalarTypes F) (batch : EdgeBatch F inUnit) : Prop :=
  ∃ stored, batch.stored = some stored ∧ (validate types stored.payload).isSome = true

theorem ticksAccepted_iff {ticks : List (MarketTick F inUnit)} :
    (∃ records, ticks.mapM MarketTick.toBatchRecord = some records ∧
        ∀ fields ∈ records, (validateTick types fields).isSome = true)
      ↔ ∀ tick ∈ ticks, tick.Accepted types := by
  induction ticks with
  | nil => simp
  | cons tick rest ih =>
      rw [List.forall_mem_cons, ← ih, List.mapM_cons, MarketTick.Accepted]
      cases tick.toBatchRecord with
      | none => simp
      | some fields =>
          cases rest.mapM MarketTick.toBatchRecord with
          | none => simp
          | some records => simp

/-- Exactly the values that meet the backend's own bounds have an accepted record, and one that
does not makes the backend refuse its whole batch. -/
theorem recordsAccepted_iff (h : ReadsRecords types inUnit) :
    (∀ tick : MarketTick F inUnit, tick.Accepted types ↔ tick.MeetsBackend) ∧
    (∀ event : FeedEvent F, event.Accepted types ↔ event.MeetsBackend) ∧
    ∀ batch : EdgeBatch F inUnit, (types.uuid (.str batch.batchId)).isSome = true →
      (batch.Accepted types ↔ (∀ tick ∈ batch.ticks, tick.MeetsBackend) ∧
        ∀ event ∈ batch.feedEvents, event.MeetsBackend) := by
  refine ⟨MarketTick.accepted_iff h, FeedEvent.accepted_iff h, fun batch hid => ?_⟩
  have hbatch : batch.Accepted types ↔
      (∃ records, batch.ticks.mapM MarketTick.toBatchRecord = some records ∧
        ∀ fields ∈ records, (validateTick types fields).isSome = true) ∧
      ∀ event ∈ batch.feedEvents, event.Accepted types := by
    rw [EdgeBatch.Accepted, EdgeBatch.stored]
    cases batch.ticks.mapM MarketTick.toBatchRecord with
    | none => simp
    | some records =>
        simp only [Option.map_some, Option.some.injEq, exists_eq_left']
        have hvalid := validate_payload_isSome_iff h ⟨"", batch.batchId, batch.venue, records,
          batch.feedEvents.map FeedEvent.toBatchRecord⟩ hid batch.venueName
        rw [List.forall_mem_map] at hvalid
        exact hvalid
  rw [hbatch, ticksAccepted_iff]
  simp only [MarketTick.accepted_iff h, FeedEvent.accepted_iff h]

end

/-! ## Values the backend refuses -/

/-- Scalars as JSON has them. -/
def plainTypes : ScalarTypes ℚ where
  int
    | .int z => some z
    | _ => none
  str
    | .str s => some s
    | _ => none
  unitFloat
    | .float x => if 0 ≤ x ∧ x ≤ 1 then some x else none
    | _ => none
  uuid
    | .str s => if s.length = 36 then some s else none
    | _ => none
  strip := Text.strip

theorem readsRecords_plainTypes : ReadsRecords plainTypes fun x : ℚ => 0 ≤ x ∧ x ≤ 1 where
  int := fun _ => rfl
  str := fun _ => rfl
  unitFloat := fun _ h => if_pos h
  strip := fun _ => rfl

theorem observedInside_none (timestamp : Int) : observedInside none timestamp = true := rfl

/-- A lowest ask at some price. -/
def plainAsk (priceUsd : Binary64) (hprice : 0 < priceUsd.units) (timestamp : Int) :
    MarketTick ℚ fun x => 0 ≤ x ∧ x ≤ 1 where
  venue := "skinport"
  kind := .restSnapshot
  marketHashName := "Sticker | Blood Boiler"
  priceUsd := priceUsd
  timestamp := timestamp
  observedAtMs := none
  floatValue := none
  stickers := []
  eventType := none
  listingId := none
  pattern := none
  paintIndex := none
  listingUrl := none
  venueName := isVenueName_skinport
  pricePositive := hprice
  observedPositive := fun x h => absurd h (Option.some_ne_none x).symm
  floatInUnit := fun x h => absurd h (Option.some_ne_none x).symm
  eventTypeLength := fun x h => absurd h (Option.some_ne_none x).symm
  listingIdLength := fun x h => absurd h (Option.some_ne_none x).symm
  patternNonnegative := fun x h => absurd h (Option.some_ne_none x).symm
  paintIndexNonnegative := fun x h => absurd h (Option.some_ne_none x).symm
  listingUrlLength := fun x h => absurd h (Option.some_ne_none x).symm
  kindMatchesEventType := rfl
  observedAtMatchesTimestamp := observedInside_none timestamp

/-- One dollar. -/
def oneUsd : Binary64 := .ofParts 1 oneExponent (by decide) (by decide)

theorem halfCentUsd_pos : 0 < halfCentUsd.units :=
  Nat.mul_pos (by decide) (Nat.two_pow_pos _)

theorem oneUsd_pos : 0 < oneUsd.units := Nat.mul_pos (by decide) (Nat.two_pow_pos _)

/-- What Skinport's parser makes of an event whose type is a blank. -/
def blankEvent : FeedEvent ℚ where
  eventType := " "
  receivedAtMs := 1700000000000
  payload := [("eventType", .str " ")]
  eventTypeNonempty := Nat.le_refl 1
  eventTypeLength := by decide
  receivedPositive := by omega

theorem not_meetsBackend_blankEvent : ¬ blankEvent.MeetsBackend := by
  intro h
  obtain ⟨c, hc, hblank⟩ := h
  cases List.mem_singleton.mp hc
  cases hblank

/-- An ask of half a cent, an ask at the epoch, and a feed event whose type is a blank: the
listener accepts each, and the backend none. -/
theorem not_recordsAccepted_halfCent :
    ¬ (plainAsk halfCentUsd halfCentUsd_pos 1700000000).Accepted plainTypes ∧
    ¬ (plainAsk oneUsd oneUsd_pos 0).Accepted plainTypes ∧
    Skinport.saleFeedEvent (fun x : ℚ => x == 0) (fun | .str s => s | _ => "")
      [("eventType", .str " ")] 1700000000000 = some blankEvent ∧
    ¬ blankEvent.Accepted plainTypes := by
  refine ⟨fun h => ?_, fun h => ?_, rfl, fun h => ?_⟩
  · have hmeets := (MarketTick.accepted_iff readsRecords_plainTypes _).mp h
    exact Nat.lt_irrefl _ hmeets.aboveHalfCent
  · have hmeets := (MarketTick.accepted_iff readsRecords_plainTypes _).mp h
    exact absurd (hmeets.afterEpoch rfl) (by decide)
  · exact not_meetsBackend_blankEvent ((FeedEvent.accepted_iff readsRecords_plainTypes _).mp h)

/-- A batch with an ask of one dollar and the blank event: the event has it refused. -/
def mixedBatch : EdgeBatch ℚ fun x => 0 ≤ x ∧ x ≤ 1 where
  batchId := "5f0c4c1e-6d56-4b0e-9a51-0c1f3f0a7d11"
  venue := "skinport"
  ticks := [plainAsk oneUsd oneUsd_pos 1700000000]
  feedEvents := [blankEvent]
  venueName := isVenueName_skinport

theorem recordsAccepted_iff_mixedBatch : ¬ mixedBatch.Accepted plainTypes := by
  intro h
  have hmeets := ((recordsAccepted_iff readsRecords_plainTypes).2.2 mixedBatch rfl).mp h
  exact not_meetsBackend_blankEvent (hmeets.2 blankEvent List.mem_cons_self)

end BrandSniper.Batch
