import BrandSniper.Kit.Conversions
import BrandSniper.Kit.Runs
import BrandSniper.Listener.BatchRecords
import BrandSniper.Listener.ListingFilter
import BrandSniper.Shared.ItemClassifier

/-!
# The Waxpeer recording filter

`RecordingFilter` of `apps/listener/scrapers/waxpeer.py` decides which events
of the feed become ticks. It follows the listings it has recorded, so their
later price cuts and their removal are recorded too.

A payload is any JSON value. Its price in thousandths becomes whole cents, the
cents a price in dollars, and that float the tick's `price_cents` again: each
conversion may raise. `listing_tick` catches a `ValueError` and what the tick's
model refuses; the price's text is read before that, a removal's ID and price
outside of it too, and an `OverflowError` passes.

A text has no lone surrogates. `str` of a float, a list or a dictionary is left
open (`pyRepr`), and so are the slug of a listing's link and the verdict on a
tick.
-/

namespace BrandSniper.Waxpeer

open Kit Json

abbrev Payload := Json JsonFloat

/-- A float between 0 and 1. -/
def InUnit (x : JsonFloat) : Prop := ∃ q : ℚ, x = .finite q ∧ 0 ≤ q ∧ q ≤ 1

abbrev Tick := Batch.MarketTick JsonFloat InUnit

/-- `payload.get(key)` -/
def field (fields : List (String × Payload)) (key : String) : Payload :=
  (getField fields key).getD .null

def isNull : Payload → Bool
  | .null => true
  | _ => false

/-- A text that is not empty. -/
def nonEmptyStr : Payload → Option String
  | .str s => if s = "" then none else some s
  | _ => none

/-! ## Names -/

/-- The first occurrence of the pattern replaced; nothing if there is none. -/
def replaceFirst? (pattern replacement : List Char) : List Char → Option (List Char)
  | [] => if pattern = [] then some replacement else none
  | c :: rest =>
      if pattern.isPrefixOf (c :: rest) then
        some (replacement ++ (c :: rest).drop pattern.length)
      else (replaceFirst? pattern replacement rest).map (c :: ·)

/-- `text.removesuffix(suffix)` -/
def removeSuffix (suffix text : List Char) : List Char :=
  if suffix.isSuffixOf text then text.take (text.length - suffix.length) else text

def steamMarketHashName (name : String) (phase : Option String) : String :=
  match phase with
  | none => name
  | some phase =>
      match replaceFirst? (" " ++ phase ++ " (").toList " (".toList name.toList with
      | some inlined => String.ofList inlined
      | none => String.ofList (removeSuffix (" " ++ phase).toList name.toList)

/-- `STICKER_ITEM_PREFIX` -/
def stickerItemPrefix : List Char := "Sticker | ".toList

/-- A sticker by the name it has when applied; other items keep their name. -/
def appliedName (name : String) : String :=
  if stickerItemPrefix.isPrefixOf name.toList then
    let applied := String.ofList (name.toList.drop stickerItemPrefix.length)
    if applied = "" then name else applied
  else name

/-- `VENUE` -/
def venue : String := "waxpeer"

/-- `MAX_LISTING_ID_LENGTH` -/
def maxListingIdLength : Nat := 64

theorem isVenueName_venue : isVenueName venue = true := by decide

theorem listed_matches : TickKind.listed = TickKind.expected (some listedEventType) := by decide

theorem removed_matches : TickKind.otherFeedEvent = TickKind.expected (some "removed") := by decide

theorem observedInside_seconds (receivedAtMs : Int) :
    observedInside (some receivedAtMs) (receivedAtMs / 1000) = true :=
  decide_eq_true rfl

/-! ## Conversions -/

/-- `MILLS_PER_CENT` -/
def millsPerCent : Int := 10

/-- A whole number, or the text of one. -/
def mills : Payload → Except ConversionError (Option Int)
  | .int z => .ok (some z)
  | .str s =>
      if isDigitText s.toList then (intOfDigits s.toList).map fun n => some (Int.ofNat n)
      else .ok none
  | _ => .ok none

def millsToCents (price : Payload) : Except ConversionError (Option Nat) :=
  (mills price).map fun z? => (z?.filter fun z => 0 < z).map fun z => (-(-z / millsPerCent)).toNat

theorem inUnit_zero : InUnit (.finite 0) := ⟨0, rfl, le_rfl, zero_le_one⟩

theorem inUnit_one : InUnit (.finite 1) := ⟨1, rfl, zero_le_one, le_rfl⟩

def optionalWear : Payload → Except ConversionError (Option { x // InUnit x })
  | .int z =>
      (Binary64.ofNat z.natAbs).map fun _ =>
        if z = 0 then some ⟨.finite 0, inUnit_zero⟩
        else if z = 1 then some ⟨.finite 1, inUnit_one⟩
        else none
  | .float (.finite q) =>
      .ok (if h : 0 ≤ q ∧ q ≤ 1 then some ⟨.finite q, q, rfl, h.1, h.2⟩ else none)
  | _ => .ok none

def optionalNonNegativeInt : Payload → Except ConversionError (Option Nat)
  | .int z => (Binary64.ofNat z.natAbs).map fun x => if 0 ≤ z then some x.toNat else none
  | .float (.finite q) => .ok (if 0 ≤ q then some ⌊q⌋.toNat else none)
  -- `int(inf)`
  | .float (.infinity false) => .error .overflowError
  | _ => .ok none

def waxpeerStickers : Payload → List (List (String × Payload))
  | .arr names => (names.filterMap nonEmptyStr).map fun name => [("name", .str (appliedName name))]
  | _ => []

def textOf (pyRepr : Payload → String) : Payload → String
  | .str s => s
  | .int z => toString z
  | .bool true => "True"
  | .bool false => "False"
  | .null => "None"
  | value => pyRepr value

/-- `str(value)` -/
def pyStr (pyRepr : Payload → String) (value : Payload) : Except ConversionError String :=
  if printable value then .ok (textOf pyRepr value) else .error .valueError

/-- The link of a listing, when it is short enough. -/
def listingUrl (slug : String → String) (name listingId : String) : Option String :=
  let url := "https://waxpeer.com/" ++ slug name ++ "/item?id=" ++ listingId
  if url.length ≤ 512 then some url else none

theorem length_listingUrl (slug : String → String) (name listingId : String) :
    ∀ url, listingUrl slug name listingId = some url → url.length ≤ 512 := by
  intro url h
  rw [listingUrl] at h
  split at h
  · rename_i hle
    cases h
    exact hle
  · cases h

/-! ## Ticks -/

theorem observed_positive {receivedAtMs : Int} (h : 0 < receivedAtMs) :
    ∀ ms, some receivedAtMs = some ms → 0 < ms := by
  intro ms hms
  cases hms
  exact h

theorem float_inUnit (value : Option { x // InUnit x }) :
    ∀ x, value.map Subtype.val = some x → InUnit x := by
  intro x hx
  obtain ⟨y, -, rfl⟩ := Option.map_eq_some_iff.mp hx
  exact y.2

theorem listed_length : ∀ s, some listedEventType = some s → s.length ≤ 32 := by
  intro s hs
  cases hs
  decide

theorem listingId_length {listingId : String} (h : listingId.length ≤ maxListingIdLength) :
    ∀ s, some listingId = some s → s.length ≤ 64 := by
  intro s hs
  cases hs
  exact h

theorem no_pattern : ∀ z, (none : Option Int) = some z → 0 ≤ z := by
  intro z h
  cases h

theorem paintIndex_nonneg (paintIndex : Option Nat) :
    ∀ z, paintIndex.map Int.ofNat = some z → 0 ≤ z := by
  intro z hz
  obtain ⟨n, -, rfl⟩ := Option.map_eq_some_iff.mp hz
  exact Int.natCast_nonneg n

section
variable (slug : String → String) (pyRepr : Payload → String)

/-- The model of a listing, if its checks pass. -/
def checkedListing (name marketHashName listingId : String) (priceUsd : Binary64)
    (receivedAtMs : Int) (floatValue : Option { x // InUnit x })
    (stickers : List (List (String × Payload))) (paintIndex : Option Nat) : Option Tick :=
  if h : 0 < receivedAtMs ∧ listingId.length ≤ maxListingIdLength ∧ 0 < priceUsd.units then
    some
      { venue := venue
        kind := .listed
        marketHashName := marketHashName
        priceUsd := priceUsd
        timestamp := receivedAtMs / 1000
        observedAtMs := some receivedAtMs
        floatValue := floatValue.map Subtype.val
        stickers := stickers
        eventType := some listedEventType
        listingId := some listingId
        pattern := none
        paintIndex := paintIndex.map Int.ofNat
        listingUrl := listingUrl slug name listingId
        venueName := isVenueName_venue
        pricePositive := h.2.2
        observedPositive := observed_positive h.1
        floatInUnit := float_inUnit floatValue
        eventTypeLength := listed_length
        listingIdLength := listingId_length h.2.1
        patternNonnegative := no_pattern
        paintIndexNonnegative := paintIndex_nonneg paintIndex
        listingUrlLength := length_listingUrl slug name listingId
        kindMatchesEventType := listed_matches
        observedAtMatchesTimestamp := observedInside_seconds receivedAtMs }
  else none

theorem hundred_pos : 0 < 100 := by decide

/-- What `listing_tick` evaluates inside its `try`. -/
def buildTick (fields : List (String × Payload)) (name : String) (priceCents : Nat)
    (receivedAtMs : Int) : Except ConversionError (Option Tick) := do
  let phase := nonEmptyStr (field fields "phase")
  let marketHashName := String.ofList
    (ItemClassifier.buildVersionedName (steamMarketHashName name phase).toList
      (phase.map String.toList))
  let priceUsd ← Binary64.ofDiv priceCents 100 hundred_pos
  let floatValue ← optionalWear (field fields "float")
  let listingId ← pyStr pyRepr (field fields "item_id")
  let paintIndex ← optionalNonNegativeInt (field fields "paint_index")
  return checkedListing slug name marketHashName listingId priceUsd receivedAtMs floatValue
    (waxpeerStickers (field fields "sticker_names")) paintIndex

/-- A `ValueError` is caught. -/
def caught {α : Type} : Except ConversionError (Option α) → Except ConversionError (Option α)
  | .error .valueError => .ok none
  | result => result

def listingTick (payload : Payload) (receivedAtMs : Int) : Except ConversionError (Option Tick) :=
  match payload with
  | .obj fields => do
      let priceCents ← millsToCents (field fields "price")
      match nonEmptyStr (field fields "name"), priceCents with
      | some name, some priceCents =>
          if isNull (field fields "item_id") then return none
          else caught (buildTick slug pyRepr fields name priceCents receivedAtMs)
      | _, _ => return none
  | _ => .ok none

/-! ## The filter -/

/-- A recorded listing the filter follows. -/
structure TrackedListing where
  marketHashName : String
  /-- Its latest price on the feed. -/
  priceCents : Nat
  deriving DecidableEq

structure RecordingFilter where
  maxTracked : Nat
  tracked : OrderedDict String TrackedListing

/-- `NEW_EVENT`, `UPDATE_EVENT` and `REMOVED_EVENT` -/
inductive FeedEventName where
  | new
  | update
  | removed
  deriving DecidableEq, Repr

namespace RecordingFilter

def new (maxTracked : Nat) : RecordingFilter := ⟨maxTracked, .empty⟩

def track (filter : RecordingFilter) (listingId : String) (listing : TrackedListing) :
    RecordingFilter :=
  { filter with
    tracked := ((filter.tracked.set listingId listing).moveToEnd listingId).trim filter.maxTracked }

def untrack (filter : RecordingFilter) (listingId : String) : RecordingFilter :=
  { filter with tracked := filter.tracked.erase listingId }

end RecordingFilter

/-- `int(round(x))`, of what is `none` where it is infinite. -/
def orOverflow : Option Nat → Except ConversionError Nat
  | some n => .ok n
  | none => .error .overflowError

/-- `tick.price_cents` -/
def cents (tick : Tick) : Except ConversionError Nat := orOverflow tick.priceCents

/-- The tick as the verdict reads it. -/
def marketTick (tick : Tick) : MarketTick where
  venue := tick.venue
  kind := tick.kind
  marketHashName := tick.marketHashName
  priceCents? := tick.priceCents
  timestamp := tick.timestamp
  observedAtMs := tick.observedAtMs
  floatValue := tick.floatValue.bind fun x =>
    match x with
    | .finite q => some q
    | _ => none
  stickers := tick.stickers.map fun sticker =>
    match getField sticker "name" with
    | some (.str name) => ⟨some name⟩
    | _ => ⟨none⟩
  eventType := tick.eventType
  listingId := tick.listingId
  venueName := tick.venueName
  kindMatchesEventType := tick.kindMatchesEventType
  observedAtMatchesTimestamp := tick.observedAtMatchesTimestamp

@[simp] theorem priceCents?_marketTick (tick : Tick) :
    (marketTick tick).priceCents? = tick.priceCents := by
  simp only [marketTick]

@[simp] theorem marketHashName_marketTick (tick : Tick) :
    (marketTick tick).marketHashName = tick.marketHashName := by
  unfold marketTick
  rfl

/-- `ResalePrices.judge` -/
def judge (prices : ResalePrices) (tick : Tick) : Except ConversionError FilterOutcome :=
  prices.judgeTick (marketTick tick)

/-- What the filter is told of a listing: whether it is worth recording. -/
abbrev Judge := Tick → Except ConversionError FilterOutcome

/-- What a call returns or raises, and the filter it leaves. -/
abbrev Result := Except ConversionError (FilterOutcome × Option Tick) × RecordingFilter

/-- A followed listing's price is followed either way. -/
def updateFollowed (judge : Judge) (tick : Tick) (listingId : String)
    (followed : TrackedListing) (filter : RecordingFilter) : Result :=
  match cents tick with
  | .error e => (.error e, filter)
  | .ok priceCents =>
      let filter := filter.track listingId ⟨tick.marketHashName, priceCents⟩
      if priceCents ≥ followed.priceCents then (.ok (.notAPriceCut, none), filter)
      else
        ((judge tick).map fun outcome =>
          (outcome, if outcome = .recorded then some tick else none), filter)

/-- A new listing, a relisting, or an update of a listing seen for the first time. -/
def judgeListing (judge : Judge) (tick : Tick) (listingId : String)
    (filter : RecordingFilter) : Result :=
  match judge tick with
  | .error e => (.error e, filter)
  | .ok outcome =>
      if outcome ≠ .recorded then (.ok (outcome, none), filter.untrack listingId)
      else
        match cents tick with
        | .error e => (.error e, filter)
        | .ok priceCents =>
            (.ok (outcome, some tick), filter.track listingId ⟨tick.marketHashName, priceCents⟩)

def listing (judge : Judge) (event : FeedEventName) (payload : Payload)
    (receivedAtMs : Int) (filter : RecordingFilter) : Result :=
  match listingTick slug pyRepr payload receivedAtMs with
  | .error e => (.error e, filter)
  | .ok none => (.ok (.malformed, none), filter)
  | .ok (some tick) =>
      match tick.listingId with
      | none => (.ok (.malformed, none), filter)
      | some listingId =>
          match filter.tracked.get? listingId with
          | some followed =>
              if event = .update then updateFollowed judge tick listingId followed filter
              else judgeListing judge tick listingId filter
          | none => judgeListing judge tick listingId filter

theorem removed_length : ∀ s, some "removed" = some s → s.length ≤ 32 := by
  intro s hs
  cases hs
  decide

theorem no_float : ∀ x, (none : Option JsonFloat) = some x → InUnit x := by
  intro x h
  cases h

theorem no_url : ∀ s, (none : Option String) = some s → s.length ≤ 512 := by
  intro s h
  cases h

/-- The model of a removal, if its checks pass. -/
def checkedRemoval (listingId marketHashName : String) (priceUsd : Binary64)
    (receivedAtMs : Int) : Option Tick :=
  if h : 0 < receivedAtMs ∧ listingId.length ≤ maxListingIdLength ∧ 0 < priceUsd.units then
    some
      { venue := venue
        kind := .otherFeedEvent
        marketHashName := marketHashName
        priceUsd := priceUsd
        timestamp := receivedAtMs / 1000
        observedAtMs := some receivedAtMs
        floatValue := none
        stickers := []
        eventType := some "removed"
        listingId := some listingId
        pattern := none
        paintIndex := none
        listingUrl := none
        venueName := isVenueName_venue
        pricePositive := h.2.2
        observedPositive := observed_positive h.1
        floatInUnit := no_float
        eventTypeLength := removed_length
        listingIdLength := listingId_length h.2.1
        patternNonnegative := no_pattern
        paintIndexNonnegative := no_pattern
        listingUrlLength := no_url
        kindMatchesEventType := removed_matches
        observedAtMatchesTimestamp := observedInside_seconds receivedAtMs }
  else none

def removalOutcome : Option Tick → FilterOutcome × Option Tick
  | none => (.malformed, none)
  | some tick => (.recorded, some tick)

/-- The removal of a followed listing, which may bring its price. -/
def removeFollowed (fields : List (String × Payload)) (listingId : String)
    (followed : TrackedListing) (receivedAtMs : Int) :
    Except ConversionError (FilterOutcome × Option Tick) := do
  let priceCents ← millsToCents (field fields "price")
  let priceUsd ← Binary64.ofDiv (priceCents.getD followed.priceCents) 100 hundred_pos
  return removalOutcome
    (checkedRemoval listingId followed.marketHashName priceUsd receivedAtMs)

/-- The listing is popped before its price is read. -/
def removal (payload : Payload) (receivedAtMs : Int) (filter : RecordingFilter) : Result :=
  match payload with
  | .obj fields =>
      if isNull (field fields "item_id") then (.ok (.malformed, none), filter)
      else
        match pyStr pyRepr (field fields "item_id") with
        | .error e => (.error e, filter)
        | .ok listingId =>
            let popped := filter.untrack listingId
            match filter.tracked.get? listingId with
            | none => (.ok (.untrackedRemoval, none), popped)
            | some followed => (removeFollowed fields listingId followed receivedAtMs, popped)
  | _ => (.ok (.malformed, none), filter)

/-- An event of the feed, and the verdict on its tick at its time. -/
structure FeedMessage where
  event : FeedEventName
  payload : Payload
  receivedAtMs : Int
  judge : Judge

/-- `_filter_event` -/
def filterEvent (filter : RecordingFilter) (m : FeedMessage) : Result :=
  if m.event = .removed then removal pyRepr m.payload m.receivedAtMs filter
  else listing slug pyRepr m.judge m.event m.payload m.receivedAtMs filter

/-- The filter after the events; one that raises ends the connection, not the filter. -/
def filterRun (maxTracked : Nat) (ms : List FeedMessage) : RecordingFilter :=
  ms.foldl (fun filter m => (filterEvent slug pyRepr filter m).2) (.new maxTracked)

end

end BrandSniper.Waxpeer
