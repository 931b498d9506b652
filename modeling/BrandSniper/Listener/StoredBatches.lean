import BrandSniper.Kit.Conversions
import BrandSniper.Kit.JsonObjects
import BrandSniper.Listener.BatchRecords

/-!
# Stored batches

What a batch stream of `apps/listener/batch_delivery.py` holds, and what
`StoredBatch.deserialize` reads of it. A field of a stream is bytes: a text in
UTF-8 or not. A client with `decode_responses` gives texts, and raises where
there is none; another gives the bytes, which `deserialize` decodes.

Where `json.loads` gives up on nesting is left open (`Client.tooDeep`), and so
is what its errors say of a text.
-/

namespace BrandSniper.Delivery

open Kit Json Batch

/-! ## Fields of a stream -/

/-- Bytes of a field. Those that are no UTF-8 come with what `decode(errors="replace")` makes of
them. -/
inductive RedisBytes where
  | text (s : String)
  | binary (replaced : String)
  deriving DecidableEq

abbrev Fields := List (RedisBytes × RedisBytes)

/-- The dictionary's value: a repeated name keeps the last one. -/
def valueOf (fields : Fields) (name : String) : Option RedisBytes :=
  (fields.reverse.find? fun f => f.1 = .text name).map Prod.snd

/-- `f"{ms}-{seq}"` -/
def idText (id : Nat) : String := toString (id / 2 ^ 64) ++ "-" ++ toString (id % 2 ^ 64)

/-- The Redis client of a listener, and the interpreter it runs on. -/
structure Client where
  decodeResponses : Bool
  /-- `json.loads` of the text raises `RecursionError`. -/
  tooDeep : String → Bool
  /-- What the `JSONDecodeError` of a text says, or the `ValueError` of an integer in it. -/
  jsonErrorText : String → String
  /-- What the `UnicodeDecodeError` of bytes says. -/
  unicodeErrorText : String → String
  /-- What the `ValueError` of a text that is no UUID says. -/
  uuidErrorText : String → String

/-- `fields.get("payload") or fields.get(b"payload")` -/
def Client.payloadOf (client : Client) (fields : Fields) : Option RedisBytes :=
  if client.decodeResponses then (valueOf fields "payload").filter fun payload => payload ≠ .text ""
  else valueOf fields "payload"

def RedisBytes.isText : RedisBytes → Bool
  | .text _ => true
  | .binary _ => false

/-- The client raises nothing while it reads the entry. -/
def Client.decodes (client : Client) (fields : Fields) : Bool :=
  !client.decodeResponses || fields.all fun f => f.1.isText && f.2.isText

/-! ## UUIDs -/

/-- `text.replace(pattern, "")`; so many characters are part of a match already. -/
def removeFrom (pattern : List Char) : Nat → List Char → List Char
  | _, [] => []
  | skip + 1, _ :: cs => removeFrom pattern skip cs
  | 0, c :: cs =>
      if pattern.isPrefixOf (c :: cs) then removeFrom pattern (pattern.length - 1) cs
      else c :: removeFrom pattern 0 cs

/-- A digit of base 16, a decimal digit of any script among them. -/
def isHexDigit (c : Char) : Bool := (decimalValue? c).isSome || "abcdefABCDEF".toList.contains c

/-- Digits of base 16, with single underscores between them. -/
def isHexDigits : List Char → Bool
  | [] => false
  | [c] => isHexDigit c
  | c :: '_' :: rest => isHexDigit c && isHexDigits rest
  | c :: rest => isHexDigit c && isHexDigits rest

/-- `0x`, and an underscore after it. -/
def withoutBasePrefix : List Char → List Char
  | '0' :: x :: rest =>
      if x = 'x' ∨ x = 'X' then
        match rest with
        | '_' :: digits => digits
        | digits => digits
      else '0' :: x :: rest
  | cs => cs

/-- `int(text, 16)` raises nothing. -/
def isHexNumber (cs : List Char) : Bool :=
  match Text.trim cs with
  | '+' :: rest => isHexDigits (withoutBasePrefix rest)
  | '-' :: rest => isHexDigits (withoutBasePrefix rest)
  | rest => isHexDigits (withoutBasePrefix rest)

/-- `hex.strip('\x7b\x7d').replace('-', '')` -/
def withoutBraces (cs : List Char) : List Char :=
  let isBrace (c : Char) := c.toNat = 0x7B || c.toNat = 0x7D
  ((cs.dropWhile isBrace).rdropWhile isBrace).filter fun c => c ≠ '-'

/-- `UUID(text)` raises nothing. -/
def isUuid (text : String) : Bool :=
  let hex := removeFrom "uuid:".toList 0 (removeFrom "urn:".toList 0 text.toList)
  let hex := withoutBraces hex
  hex.length = 32 && isHexNumber hex

/-! ## Reading a payload -/

inductive DeserializeError where
  /-- `RecursionError` -/
  | tooDeep
  | json
  | keyError (key : String)
  | valueError (message : String)
  deriving DecidableEq

section
variable {F : Type}

/-- `json.loads`; an integer of more than 4300 digits is an error too. -/
def jsonLoads [PyFloat F] (client : Client) (text : String) : Except DeserializeError (Json F) :=
  if client.tooDeep text then .error .tooDeep
  else
    match loads text with
    | some data => if printable data then .ok data else .error .json
    | none => .error .json

/-- `data[key]` -/
def item (data : List (String × Json F)) (key : String) : Except DeserializeError (Json F) :=
  match getField data key with
  | some value => .ok value
  | none => .error (.keyError key)

def mapping (message : String) : Json F → Except DeserializeError (List (String × Json F))
  | .obj fields => .ok fields
  | _ => .error (.valueError message)

/-- A text of which something is left. -/
def textWith (left : String → Bool) (message : String) : Json F → Except DeserializeError String
  | .str s => if left s then .ok s else .error (.valueError message)
  | _ => .error (.valueError message)

/-- A list of dictionaries. -/
def mappings (message : String) : Json F → Except DeserializeError (List (List (String × Json F)))
  | .arr items => items.mapM (mapping message)
  | _ => .error (.valueError message)

/-- `data["venue"] if "venue" in data else data["source"]` -/
def venueItem (data : List (String × Json F)) : Except DeserializeError (Json F) :=
  if (getField data "venue").isSome then item data "venue" else item data "source"

/-- `UUID(text)` -/
def uuid (client : Client) (text : String) : Except DeserializeError Unit :=
  if isUuid text then .ok () else .error (.valueError (client.uuidErrorText text))

def deserialize [PyFloat F] (client : Client) (recordId text : String) :
    Except DeserializeError (StoredBatch F) := do
  let data ← jsonLoads client text
  let data ← mapping "Stored batch payload must be a JSON object" data
  let batchId ← item data "batch_id"
  let venue ← venueItem data
  let ticks ← item data "ticks"
  let feedEvents := (getField data "feed_events").getD (.arr [])
  let batchId ← textWith (fun s => s ≠ "") "Stored batch_id must be a non-empty string" batchId
  uuid client batchId
  let venue ← textWith (fun s => Text.trim s.toList ≠ [])
    "Stored batch venue must be a non-empty string" venue
  let ticks ← mappings "Stored batch ticks must be a list of objects" ticks
  let feedEvents ← mappings "Stored batch feed_events must be a list of objects" feedEvents
  return ⟨recordId, batchId, venue, ticks, feedEvents⟩

/-- `str(error)` -/
def Client.errorText (client : Client) (text : String) : DeserializeError → String
  | .tooDeep => ""
  | .json => client.jsonErrorText text
  | .keyError key => "'" ++ key ++ "'"
  | .valueError message => message

/-- What `_iter_stream` makes of an entry. -/
inductive Reading (F : Type) where
  | batch (batch : StoredBatch F)
  | malformed (payload error : String)
  | raises

def readEntry (F : Type) [PyFloat F] (client : Client) (id : Nat) (fields : Fields) : Reading F :=
  match client.payloadOf fields with
  | none => .malformed "" "Redis stream entry has no payload field"
  | some (.binary replaced) => .malformed replaced (client.unicodeErrorText replaced)
  | some (.text payload) =>
      match deserialize client (idText id) payload with
      | .ok batch => .batch batch
      | .error .tooDeep => .raises
      | .error e => .malformed payload (client.errorText payload e)

/-- The entry that `_quarantine_malformed` adds to the malformed stream. -/
def malformedFields (sourceKey : String) (id : Nat) (payload error : String) : Fields :=
  [(.text "source_stream", .text sourceKey), (.text "source_record_id", .text (idText id)),
    (.text "payload", .text payload),
    (.text "last_error", .text (String.ofList (error.toList.take 500)))]

/-! ## What can be read -/

/-- The client decodes the entry, and its payload does not nest too deep. -/
def Client.Reads (client : Client) (fields : Fields) : Prop :=
  client.decodes fields = true ∧
    ∀ payload, client.payloadOf fields = some (.text payload) → client.tooDeep payload = false

def Client.checkReads (client : Client) (fields : Fields) : Bool :=
  client.decodes fields &&
    match client.payloadOf fields with
    | some (.text payload) => !client.tooDeep payload
    | _ => true

theorem checkReads_iff {client : Client} {fields : Fields} :
    client.checkReads fields = true ↔ client.Reads fields := by
  rw [Client.checkReads, Bool.and_eq_true]
  apply and_congr_right
  intro _
  cases client.payloadOf fields with
  | none => exact iff_of_true rfl nofun
  | some bytes =>
      cases bytes with
      | binary replaced => exact iff_of_true rfl nofun
      | text payload => simp

instance (client : Client) (fields : Fields) : Decidable (client.Reads fields) :=
  decidable_of_iff _ checkReads_iff

/-- The exceptions that `_iter_stream` catches. -/
def Caught {α : Type} (result : Except DeserializeError α) : Prop := result ≠ .error .tooDeep

theorem caught_ok {α : Type} (value : α) : Caught (.ok value) := by
  intro h
  cases h

theorem caught_error {α : Type} {e : DeserializeError} (h : e ≠ .tooDeep) :
    Caught (.error e : Except DeserializeError α) :=
  fun heq => h (Except.error.inj heq)

theorem Caught.bind {α β : Type} {result : Except DeserializeError α}
    {f : α → Except DeserializeError β} (h : Caught result) (hf : ∀ a, Caught (f a)) :
    Caught (result >>= f) := by
  cases result with
  | error e => exact fun heq => h (congrArg Except.error (Except.error.inj heq))
  | ok a => exact hf a

theorem caught_mapM {α β : Type} {f : α → Except DeserializeError β} (hf : ∀ a, Caught (f a))
    (l : List α) : Caught (l.mapM f) := by
  induction l with
  | nil => exact caught_ok _
  | cons a rest ih =>
      rw [List.mapM_cons]
      exact (hf a).bind fun b => ih.bind fun bs => caught_ok _

theorem caught_jsonLoads [PyFloat F] {client : Client} {text : String}
    (h : client.tooDeep text = false) : Caught (jsonLoads client text : Except _ (Json F)) := by
  rw [jsonLoads, if_neg (by rw [h]; exact Bool.false_ne_true)]
  cases (loads text : Option (Json F)) with
  | none => exact caught_error nofun
  | some data =>
      dsimp only
      split
      · exact caught_ok data
      · exact caught_error nofun

theorem caught_item (data : List (String × Json F)) (key : String) : Caught (item data key) := by
  rw [item]
  cases getField data key with
  | none => exact caught_error nofun
  | some value => exact caught_ok value

theorem caught_mapping (message : String) (value : Json F) : Caught (mapping message value) := by
  cases value with
  | obj fields => exact caught_ok fields
  | _ => exact caught_error nofun

theorem caught_textWith (left : String → Bool) (message : String) (value : Json F) :
    Caught (textWith left message value) := by
  cases value with
  | str s =>
      rw [textWith]
      split
      · exact caught_ok s
      · exact caught_error nofun
  | _ => exact caught_error nofun

theorem caught_mappings (message : String) (value : Json F) : Caught (mappings message value) := by
  cases value with
  | arr items => exact caught_mapM (caught_mapping message) items
  | _ => exact caught_error nofun

/-- Only the nesting of a payload is not caught. -/
theorem caught_deserialize [PyFloat F] {client : Client} {text : String}
    (h : client.tooDeep text = false) (recordId : String) :
    Caught (deserialize client recordId text : Except _ (StoredBatch F)) := by
  refine (caught_jsonLoads h).bind fun data => (caught_mapping _ data).bind fun data => ?_
  refine (caught_item data "batch_id").bind fun batchId => ?_
  have hvenue : Caught (venueItem data) := by
    rw [venueItem]
    split <;> exact caught_item data _
  refine hvenue.bind fun venue => (caught_item data "ticks").bind fun ticks => ?_
  refine (caught_textWith _ _ batchId).bind fun batchId => ?_
  have huuid : Caught (uuid client batchId) := by
    rw [uuid]
    split
    · exact caught_ok ()
    · exact caught_error nofun
  refine huuid.bind fun _ => (caught_textWith _ _ venue).bind fun venue => ?_
  refine (caught_mappings _ ticks).bind fun ticks => ?_
  exact (caught_mappings _ _).bind fun feedEvents => caught_ok _

theorem readEntry_ne_raises [PyFloat F] {client : Client} {id : Nat} {fields : Fields}
    (h : client.Reads fields) : readEntry F client id fields ≠ .raises := by
  rw [readEntry]
  cases hpayload : client.payloadOf fields with
  | none => exact nofun
  | some bytes =>
      cases bytes with
      | binary replaced => exact nofun
      | text payload =>
          have hcaught : Caught (deserialize client (idText id) payload : Except _ (StoredBatch F)) :=
            caught_deserialize (h.2 payload hpayload) (idText id)
          dsimp only
          cases hresult : (deserialize client (idText id) payload : Except _ (StoredBatch F)) with
          | ok batch => exact nofun
          | error e =>
              cases e with
              | tooDeep => exact absurd hresult hcaught
              | _ => exact nofun

/-! ## Writing a payload -/

/-- `json.dumps(batch.payload, separators=(",", ":"))` -/
def batchText [PyFloat F] (batch : StoredBatch F) : String :=
  String.ofList (dumps (.obj batch.payload))

/-- `StoredBatch.serialize`; `json.dumps` raises at an integer of more than 4300 digits. -/
def serialize [PyFloat F] (batch : StoredBatch F) : Option String :=
  if printable (.obj batch.payload) then some (batchText batch) else none

theorem serialize_eq_some [PyFloat F] {batch : StoredBatch F} {text : String}
    (h : serialize batch = some text) : text = batchText batch := by
  rw [serialize] at h
  split at h
  · exact (Option.some.inj h).symm
  · cases h

theorem uniqueKeys_objs {dicts : List (List (String × Json F))}
    (h : ∀ fields ∈ dicts, UniqueKeys (.obj fields)) : UniqueKeys (.arr (dicts.map .obj)) := by
  rw [UniqueKeys, uniqueKeysItems_iff]
  intro j hj
  obtain ⟨fields, hfields, rfl⟩ := List.mem_map.mp hj
  exact h fields hfields

/-- A payload of dictionaries is a dictionary. -/
theorem uniqueKeys_payload {batch : StoredBatch F}
    (hticks : ∀ fields ∈ batch.ticks, UniqueKeys (.obj fields))
    (hevents : ∀ fields ∈ batch.feedEvents, UniqueKeys (.obj fields)) :
    UniqueKeys (.obj batch.payload) := by
  rw [UniqueKeys, StoredBatch.payload, uniqueKeysFields_iff]
  split
  · refine ⟨?_, ?_⟩
    · show (["batch_id", "venue", "ticks"] : List String).Nodup
      decide
    · simp only [List.append_nil, List.forall_mem_cons]
      exact ⟨trivial, trivial, uniqueKeys_objs hticks, List.forall_mem_nil _⟩
  · refine ⟨?_, ?_⟩
    · show (["batch_id", "venue", "ticks", "feed_events"] : List String).Nodup
      decide
    · simp only [List.cons_append, List.nil_append, List.forall_mem_cons]
      exact ⟨trivial, trivial, uniqueKeys_objs hticks, uniqueKeys_objs hevents,
        List.forall_mem_nil _⟩

theorem loads_batchText [PyFloat F] [LawfulPyFloat F] {batch : StoredBatch F}
    (h : UniqueKeys (.obj batch.payload)) : loads (batchText batch) = some (.obj batch.payload) :=
  loads_dumps h

theorem mappings_map_obj (message : String) (dicts : List (List (String × Json F))) :
    mappings message (.arr (dicts.map .obj)) = .ok dicts := by
  rw [mappings]
  induction dicts with
  | nil => rfl
  | cons fields rest ih =>
      rw [List.map_cons, List.mapM_cons, ih]
      rfl

theorem textWith_eq_ok {left : String → Bool} {message s s' : String}
    (h : textWith left message (.str s : Json F) = .ok s') : s' = s := by
  rw [textWith] at h
  split at h
  · exact (Except.ok.inj h).symm
  · cases h

/-- The feed events of a payload, which are left out where there are none. -/
theorem feedEvents_payload (batch : StoredBatch F) :
    (getField batch.payload "feed_events").getD (.arr []) = .arr (batch.feedEvents.map .obj) := by
  rw [StoredBatch.payload]
  split
  · rename_i hempty
    rw [List.isEmpty_iff.mp hempty]
    rfl
  · rfl

/-- A batch read back from its text is the batch, under the ID of its entry. -/
theorem deserialize_batchText [PyFloat F] [LawfulPyFloat F] {client : Client} {recordId : String}
    {batch read : StoredBatch F} (hkeys : UniqueKeys (.obj batch.payload))
    (h : deserialize client recordId (batchText batch) = .ok read) :
    read = { batch with recordId := recordId } := by
  obtain ⟨data, hdata, h⟩ := bind_eq_ok h
  have hdata : data = .obj batch.payload := by
    rw [jsonLoads, loads_batchText hkeys] at hdata
    split at hdata
    · cases hdata
    · dsimp only at hdata
      split at hdata
      · exact (Except.ok.inj hdata).symm
      · cases hdata
  subst hdata
  obtain ⟨data, hdata, h⟩ := bind_eq_ok h
  obtain rfl : batch.payload = data := Except.ok.inj hdata
  obtain ⟨idValue, hid, h⟩ := bind_eq_ok h
  obtain rfl : (.str batch.batchId : Json F) = idValue := Except.ok.inj hid
  obtain ⟨venueValue, hvenue, h⟩ := bind_eq_ok h
  obtain rfl : (.str batch.venue : Json F) = venueValue := Except.ok.inj hvenue
  obtain ⟨tickValues, hticks, h⟩ := bind_eq_ok h
  obtain rfl : (.arr (batch.ticks.map .obj) : Json F) = tickValues := Except.ok.inj hticks
  obtain ⟨id, hid, h⟩ := bind_eq_ok h
  obtain ⟨_, -, h⟩ := bind_eq_ok h
  obtain ⟨venue, hvenue, h⟩ := bind_eq_ok h
  obtain ⟨ticks, hticks, h⟩ := bind_eq_ok h
  obtain ⟨feedEvents, hevents, h⟩ := bind_eq_ok h
  rw [mappings_map_obj] at hticks
  rw [feedEvents_payload, mappings_map_obj] at hevents
  rw [textWith_eq_ok hid, textWith_eq_ok hvenue, ← Except.ok.inj hticks, ← Except.ok.inj hevents] at h
  exact (Except.ok.inj h).symm

theorem payloadOf_batchText [PyFloat F] [LawfulPyFloat F] (client : Client) {fields : Fields}
    {batch : StoredBatch F}
    (h : valueOf fields "payload" = some (.text (batchText batch))) :
    client.payloadOf fields = some (.text (batchText batch)) := by
  have hne : (RedisBytes.text (batchText batch)) ≠ .text "" := by
    intro heq
    obtain ⟨c, rest, hdumps, -⟩ := startsValue_dumps (.obj batch.payload)
    have hempty := congrArg String.toList (RedisBytes.text.inj heq)
    rw [batchText, String.toList_ofList, hdumps] at hempty
    cases hempty
  rw [Client.payloadOf, h]
  split
  · rw [Option.filter_some, if_pos (decide_eq_true hne)]
  · rfl

/-- An entry with the text of a batch is read as that batch, or goes to the malformed stream with
its text. -/
theorem readEntry_batchText [PyFloat F] [LawfulPyFloat F] {client : Client} {id : Nat}
    {fields : Fields} {batch : StoredBatch F} (hkeys : UniqueKeys (.obj batch.payload))
    (h : valueOf fields "payload" = some (.text (batchText batch))) :
    (∀ read, readEntry F client id fields = .batch read → read = { batch with recordId := idText id }) ∧
      ∀ payload error, readEntry F client id fields = .malformed payload error →
        payload = batchText batch := by
  rw [readEntry, payloadOf_batchText client h]
  dsimp only
  cases hresult : (deserialize client (idText id) (batchText batch) : Except _ (StoredBatch F)) with
  | ok read =>
      refine ⟨fun other hother => ?_, fun payload error hother => ?_⟩
      · rw [← Reading.batch.inj hother]
        exact deserialize_batchText hkeys hresult
      · cases hother
  | error e =>
      refine ⟨fun other hother => ?_, fun payload error hother => ?_⟩
      · cases e <;> cases hother
      · cases e <;> cases hother <;> rfl

end

end BrandSniper.Delivery
