import Mathlib.Data.Rat.Defs

/-!
# Ticks and feed events

`apps/listener/models.py`. A `MarketTick` carries its two validators as
fields, so a tick whose kind contradicts its event type, or whose
millisecond time lies outside its second, cannot be built.

Prices are the whole cents of the `price_cents` property, which raises
`OverflowError` where `price_usd * 100` is infinite. A `PricedTick` is a tick
that has a price in cents.
-/

namespace BrandSniper

/-- `LISTED_EVENT_TYPE` -/
def listedEventType : String := "listed"

/-- `SOLD_EVENT_TYPE` -/
def soldEventType : String := "sold"

inductive TickKind where
  /-- An item's lowest ask from a REST poll. -/
  | restSnapshot
  /-- A listing on the live feed. -/
  | listed
  /-- A sale on the live feed: recorded only. -/
  | sold
  /-- A feed event type the listener does not know: recorded only. -/
  | otherFeedEvent
  deriving DecidableEq, Repr

def TickKind.ofFeedEvent (eventType : String) : TickKind :=
  if eventType = listedEventType then .listed
  else if eventType = soldEventType then .sold
  else .otherFeedEvent

/-- The kind a tick with this event type must have. -/
def TickKind.expected (eventType : Option String) : TickKind :=
  match eventType with
  | none => .restSnapshot
  | some eventType => .ofFeedEvent eventType

/-- One character of `VENUE_PATTERN`, `^[a-z0-9_-]+$`. -/
def isVenueChar (c : Char) : Bool :=
  ('a' ≤ c && c ≤ 'z') || ('0' ≤ c && c ≤ '9') || c == '_' || c == '-'

/-- Venue names: 1 to `MAX_VENUE_LENGTH` characters of the pattern, so no colon. -/
def isVenueName (venue : String) : Bool :=
  venue.toList ≠ [] && venue.toList.length ≤ 32 && venue.toList.all isVenueChar

theorem isVenueName_skinport : isVenueName "skinport" = true := by decide

/-- A sticker dict of a listing; the decision path reads its name only. -/
structure Sticker where
  name : Option String
  deriving DecidableEq, Repr

/-- `observed_at_ms // 1000 == timestamp`, when the tick has the finer time. -/
def observedInside (observedAtMs : Option Int) (timestamp : Int) : Bool :=
  match observedAtMs with
  | none => true
  | some ms => decide (ms / 1000 = timestamp)

structure MarketTick where
  venue : String
  kind : TickKind
  marketHashName : String
  /-- `int(round(price_usd * 100))` of a price above 0 USD; `none` where it raises. -/
  priceCents? : Option Nat
  timestamp : Int
  observedAtMs : Option Int
  floatValue : Option ℚ
  stickers : List Sticker
  eventType : Option String
  listingId : Option String
  venueName : isVenueName venue = true
  kindMatchesEventType : kind = TickKind.expected eventType
  observedAtMatchesTimestamp : observedInside observedAtMs timestamp = true

namespace MarketTick

def isRestSnapshot (tick : MarketTick) : Bool := tick.kind == .restSnapshot

/-- REST snapshots and live listings: the only ticks the Z-score path may see. -/
def feedsPriceWindow (tick : MarketTick) : Bool :=
  tick.kind == .restSnapshot || tick.kind == .listed

end MarketTick

/-- A tick whose `price_cents` does not raise. -/
structure PricedTick extends MarketTick where
  priceCents : Nat
  priced : priceCents? = some priceCents

/-- A tick whose `price_cents` raises. -/
structure UnpricedTick extends MarketTick where
  unpriced : priceCents? = none

/-- The tick with its price in cents, if it has one. -/
def MarketTick.priced? (tick : MarketTick) : Option PricedTick :=
  match h : tick.priceCents? with
  | some priceCents => some { tick with priceCents := priceCents, priced := h }
  | none => none

theorem MarketTick.priced?_eq_some_iff {tick : MarketTick} {priced : PricedTick} :
    tick.priced? = some priced ↔ priced.toMarketTick = tick := by
  constructor
  · intro h
    unfold priced? at h
    split at h
    · cases h
      rfl
    · cases h
  · rintro rfl
    obtain ⟨tick, priceCents, hpriced⟩ := priced
    unfold priced?
    split
    · rename_i price hprice
      obtain rfl : price = priceCents := Option.some.inj (hprice.symm.trans hpriced)
      rfl
    · rename_i hnone
      rw [hpriced] at hnone
      cases hnone

theorem MarketTick.priced?_isSome {tick : MarketTick} :
    tick.priced?.isSome = tick.priceCents?.isSome := by
  unfold priced?
  split
  · rename_i h
    exact (congrArg Option.isSome h).symm
  · rename_i h
    exact (congrArg Option.isSome h).symm

/-- One raw venue feed event; the consumer and the replay record it and read no more of it. -/
structure FeedEvent where
  eventType : String
  receivedAtMs : Int
  deriving DecidableEq, Repr

/-- What producers put on the listener's queue. -/
inductive StreamItem where
  | feedEvent (event : FeedEvent)
  | tick (tick : PricedTick)
  | unpriced (tick : UnpricedTick)

/-- The tick of an item. -/
def StreamItem.marketTick? : StreamItem → Option MarketTick
  | .feedEvent _ => none
  | .tick t => some t.toMarketTick
  | .unpriced t => some t.toMarketTick

/-- A tick on the queue. -/
def MarketTick.item (tick : MarketTick) : StreamItem :=
  match h : tick.priceCents? with
  | some priceCents => .tick { tick with priceCents := priceCents, priced := h }
  | none => .unpriced { tick with unpriced := h }

/-- Every tick is an item, of its own fields. -/
theorem MarketTick.marketTick?_item (tick : MarketTick) :
    tick.item.marketTick? = some tick := by
  unfold item
  split <;> rfl

/-- A lowest ask read from a REST poll. -/
def MarketTick.snapshot (venue marketHashName : String) (priceCents? : Option Nat)
    (timestamp : Int) (hvenue : isVenueName venue = true) : MarketTick where
  venue := venue
  kind := .restSnapshot
  marketHashName := marketHashName
  priceCents? := priceCents?
  timestamp := timestamp
  observedAtMs := none
  floatValue := none
  stickers := []
  eventType := none
  listingId := none
  venueName := hvenue
  kindMatchesEventType := rfl
  observedAtMatchesTimestamp := rfl

/-- A listing the live feed announces. -/
def MarketTick.listing (venue marketHashName : String) (priceCents? : Option Nat)
    (timestamp : Int) (listingId : String) (hvenue : isVenueName venue = true) : MarketTick where
  venue := venue
  kind := .listed
  marketHashName := marketHashName
  priceCents? := priceCents?
  timestamp := timestamp
  observedAtMs := none
  floatValue := none
  stickers := []
  eventType := some listedEventType
  listingId := some listingId
  venueName := hvenue
  kindMatchesEventType := by decide
  observedAtMatchesTimestamp := rfl

def PricedTick.snapshot (venue marketHashName : String) (priceCents : Nat) (timestamp : Int)
    (hvenue : isVenueName venue = true) : PricedTick :=
  ⟨.snapshot venue marketHashName (some priceCents) timestamp hvenue, priceCents, rfl⟩

def PricedTick.listing (venue marketHashName : String) (priceCents : Nat) (timestamp : Int)
    (listingId : String) (hvenue : isVenueName venue = true) : PricedTick :=
  ⟨.listing venue marketHashName (some priceCents) timestamp listingId hvenue, priceCents, rfl⟩

end BrandSniper
