import BrandSniper.Kit.Timeline
import BrandSniper.Shared.Pnl
import Mathlib.Data.Int.Order.Basic
import Mathlib.Data.String.Basic

/-!
# Outcome labels

`apps/analytics/outcome_labels.py`: what the market did after a listing was
recorded. `labelListing` makes a row of `listing_outcomes` from the sales that
were seen up to the listing's horizon and the fees in force when it was listed.

Nothing later enters a label (`labelListing_noLookAhead`): the sales indexes
commute with a cut of the history, and the label reads them up to its horizon.

Moments are naive UTC datetimes in microseconds. Floats are whatever the type
`F` says they are; `round10` is `round(x, ITEM_FLOAT_DECIMALS)`.
-/

namespace BrandSniper.Labels

open Kit

/-- `timedelta(seconds=s)` -/
def seconds (s : Int) : Int := s * 1000000

/-- `int(delta.total_seconds())` -/
def wholeSeconds (delta : Int) : Int := delta.tdiv 1000000

/-! ## Label versions -/

inductive SalesSource where
  /-- `sold` events in `live_market_ticks`. -/
  | ticks
  /-- The venue's own sales history. -/
  | venueSales
  deriving DecidableEq

/-- Parameters of one label version, with what `__post_init__` checks. -/
structure LabelConfig where
  version : String
  venue : String
  fees : VenueFees
  salesSource : SalesSource
  itemSellerFees : Bool
  salesSettleSeconds : Int
  ownSaleByItem : Bool
  horizonSeconds : Int
  minComparableSales : Nat
  settleSeconds : Int
  reviseSeconds : Int
  feesVenue : fees.venue = venue
  salesSettleNonneg : 0 ≤ salesSettleSeconds
  venueSalesOnly : salesSettleSeconds ≠ 0 ∨ ownSaleByItem = true → salesSource = .venueSales
  horizonAfterHold : fees.holdSeconds < horizonSeconds
  minComparablePos : 1 ≤ minComparableSales
  settleNonneg : 0 ≤ settleSeconds
  reviseNonneg : 0 ≤ reviseSeconds

/-- Labels with `label_available_at` at or before this time are final as of `asOf`. -/
def LabelConfig.finalBefore (config : LabelConfig) (asOf : Int) : Int :=
  asOf - seconds (config.settleSeconds + config.reviseSeconds)

/-! ## Listings and sales -/

/-- One listed or sold event of a listing. -/
structure FeedSale (F : Type) where
  listingId : String
  marketHashName : String
  priceCents : Int
  seenAt : Int
  floatValue : Option F
  pattern : Option Int
  nextListedAt : Option Int
  deriving DecidableEq

/-- `OWN_SALE_CLOCK_SKEW_SECONDS` -/
def ownSaleClockSkewSeconds : Int := 60

variable {F : Type}

/-- The order of `first_sighting_per_listing`: ties go to the lower price. -/
def FeedSale.sighting (sale : FeedSale F) : Int ×ₗ Int := toLex (sale.seenAt, sale.priceCents)

/-- The order of the indexes. -/
def FeedSale.place (sale : FeedSale F) : Int ×ₗ String := toLex (sale.seenAt, sale.listingId)

def firstSightingPerListing (sales : List (FeedSale F)) : OrderedDict String (FeedSale F) :=
  firstPerKey FeedSale.listingId FeedSale.sighting sales

section
variable [DecidableEq F] (round10 : F → F)

/-- The physical item a listing or sale is of; none without a float. -/
def itemKey (sale : FeedSale F) : Option (String × F × Option Int) :=
  sale.floatValue.map fun x => (sale.marketHashName, round10 x, sale.pattern)

structure SoldIndex (F : Type) [DecidableEq F] where
  timesByName : OrderedDict String (List Int)
  salesByName : OrderedDict String (List (FeedSale F))
  firstSoldByListing : OrderedDict String (FeedSale F)
  salesByItem : OrderedDict (String × F × Option Int) (List (FeedSale F))

namespace SoldIndex

/-- `sorted(unique_sales.values(), key=...)` -/
def sortedSales (soldSales : List (FeedSale F)) : List (FeedSale F) :=
  sortOn FeedSale.place ((firstSightingPerListing soldSales).items.map Prod.snd)

def build (soldSales : List (FeedSale F)) : SoldIndex F where
  timesByName := groupOn (fun sale => some sale.marketHashName) FeedSale.seenAt
    (sortedSales soldSales)
  salesByName := groupOn (fun sale => some sale.marketHashName) id (sortedSales soldSales)
  firstSoldByListing := firstSightingPerListing soldSales
  salesByItem := groupOn (itemKey round10) id (sortedSales soldSales)

/-- Prices of sales of `name` inside [windowStart, windowEnd], excluding one listing. -/
def comparablePrices (index : SoldIndex F) (name : String) (windowStart windowEnd : Int)
    (excludeListing : String) : List Int :=
  let times := (index.timesByName.get? name).getD []
  let sales := (index.salesByName.get? name).getD []
  let first := bisectLeft times windowStart
  let last := bisectRight times windowEnd
  (((sales.take last).drop first).filter fun sale => sale.listingId ≠ excludeListing).map
    FeedSale.priceCents

/-- The sale is at or after the next recorded listing of its item. -/
def ofNextListing (sale : FeedSale F) (nextListedAt : Option Int) : Bool :=
  nextListedAt.any fun next => next ≤ sale.seenAt

/-- The first sale of the listing's item inside the window and before the item's next recorded
listing, when it is at the listing's price. -/
def itemSale (index : SoldIndex F) (listing : FeedSale F) (windowStart windowEnd : Int) :
    Option (FeedSale F) :=
  match itemKey round10 listing with
  | none => none
  | some key =>
      match ((index.salesByItem.get? key).getD []).find? fun sale =>
          decide (windowStart ≤ sale.seenAt) && decide (sale.seenAt ≤ windowEnd) with
      | none => none
      | some sale =>
          if ofNextListing sale listing.nextListedAt then none
          else if sale.priceCents = listing.priceCents then some sale else none

end SoldIndex

end

/-! ## Fees of past builds -/

structure ItemFees where
  builtAt : List Int
  feesByBuild : List (OrderedDict String Int)

namespace ItemFees

def build (builds : List (Int × OrderedDict String Int)) : ItemFees where
  builtAt := (sortOn Prod.fst builds).map Prod.fst
  feesByBuild := (sortOn Prod.fst builds).map Prod.snd

/-- The seller fee of `name` in the newest build stored at or before `at`. -/
def feeBps (fees : ItemFees) (name : String) (moment : Int) : Option Int :=
  match bisectRight fees.builtAt moment with
  | 0 => none
  | index + 1 => (fees.feesByBuild[index]?).bind fun build => build.get? name

end ItemFees

/-! ## Labels -/

/-- A row of `listing_outcomes`, without the time it was written. -/
structure ListingOutcome where
  venue : String
  listingId : String
  labelVersion : String
  marketHashName : String
  listedAt : Int
  listedPriceCents : Int
  comparableSales : Nat
  resalePriceCents : Option Int
  resaleNetMarginCents : Option Int
  isProfitable : Option Bool
  listingSoldWithinS : Option Int
  saleCensored : Bool
  labelAvailableAt : Int
  deriving DecidableEq

/-- `statistics.median_low` -/
def medianLow (data : List Int) : Except PyError Int :=
  match (sortOn id data)[(data.length - 1) / 2]? with
  | some price => .ok price
  | none => .error (.valueError "no median for empty data")

/-- Resale price, net margin and whether it is profitable. -/
structure Resale where
  priceCents : Option Int
  netMarginCents : Option Int
  profitable : Option Bool

/-- What a resale among the comparable sales would have brought; neutral with too few of them. -/
def resaleOf (config : LabelConfig) (listedPriceCents : Int) (comparable : List Int)
    (itemFeeBps : Option Int) : Except PyError Resale :=
  if config.minComparableSales ≤ comparable.length then do
    let resalePriceCents ← medianLow comparable
    let netMarginCents ← netResaleMarginCents listedPriceCents resalePriceCents config.fees
      (some config.fees) (if config.itemSellerFees then itemFeeBps else none)
    .ok ⟨some resalePriceCents, some netMarginCents,
      some (netMarginCents ≥ config.fees.minMarginCents)⟩
  else .ok ⟨none, none, none⟩

/-- How fast the listing was seen to sell. -/
def soldWithin (config : LabelConfig) (listedAt : Int) (ownSale : Option (FeedSale F)) :
    Option Int :=
  match ownSale with
  | none => none
  | some sale =>
      -- the window of an item's sale already allowed for the clock skew
      if config.ownSaleByItem then some (max 0 (wholeSeconds (sale.seenAt - listedAt)))
      else if listedAt ≤ sale.seenAt ∧ sale.seenAt ≤ listedAt + seconds config.horizonSeconds then
        some (wholeSeconds (sale.seenAt - listedAt))
      else none

section
variable [DecidableEq F] (round10 : F → F)

/-- The listing's own sale among the sold ones. -/
def ownSale (config : LabelConfig) (listing : FeedSale F) (sold : SoldIndex F) :
    Option (FeedSale F) :=
  if config.ownSaleByItem then
    sold.itemSale round10 listing (listing.seenAt - seconds ownSaleClockSkewSeconds)
      (listing.seenAt + seconds config.horizonSeconds)
  else sold.firstSoldByListing.get? listing.listingId

/-- Prices of the sales a resale of the listing is compared with. -/
def comparableSales (config : LabelConfig) (listing : FeedSale F) (sold : SoldIndex F) :
    List Int :=
  sold.comparablePrices listing.marketHashName
    (listing.seenAt + seconds config.fees.holdSeconds)
    (listing.seenAt + seconds config.horizonSeconds)
    (((ownSale round10 config listing sold).map FeedSale.listingId).getD listing.listingId)

/-- The `listing_outcomes` row of one listing. -/
def labelListing (listing : FeedSale F) (sold : SoldIndex F) (config : LabelConfig)
    (itemFees : Option ItemFees) : Except PyError ListingOutcome :=
  if config.itemSellerFees && itemFees.isNone then
    .error (.valueError ("label version " ++ config.version
      ++ " prices resales with item fees; pass item_fees"))
  else do
    let comparable := comparableSales round10 config listing sold
    let resale ← resaleOf config listing.priceCents comparable
      (itemFees.bind fun fees => fees.feeBps listing.marketHashName listing.seenAt)
    let listingSoldWithinS := soldWithin config listing.seenAt
      (ownSale round10 config listing sold)
    .ok {
      venue := config.venue
      listingId := listing.listingId
      labelVersion := config.version
      marketHashName := listing.marketHashName
      listedAt := listing.seenAt
      listedPriceCents := listing.priceCents
      comparableSales := comparable.length
      resalePriceCents := resale.priceCents
      resaleNetMarginCents := resale.netMarginCents
      isProfitable := resale.profitable
      listingSoldWithinS := listingSoldWithinS
      saleCensored := listingSoldWithinS.isNone
      labelAvailableAt := listing.seenAt + seconds config.horizonSeconds }

end

/-! ## What the indexes hold -/

/-- The entries seen up to a moment are a cut, in the order of sightings. -/
theorem sighting_cut (moment : Int) (a b : FeedSale F) (h : a.sighting ≤ b.sighting)
    (hb : decide (b.seenAt ≤ moment) = true) : decide (a.seenAt ≤ moment) = true := by
  rw [decide_eq_true_eq] at hb ⊢
  rw [FeedSale.sighting, FeedSale.sighting, Prod.Lex.toLex_le_toLex] at h
  omega

/-- The history up to a moment. -/
def upTo (moment : Int) (sales : List (FeedSale F)) : List (FeedSale F) :=
  sales.filter fun sale => sale.seenAt ≤ moment

namespace SoldIndex

theorem sortedSales_upTo (sales : List (FeedSale F)) (moment : Int) :
    sortedSales (upTo moment sales) = upTo moment (sortedSales sales) := by
  have hperm := @perm_values_filter _ _ _ _ _ FeedSale.listingId _ sales _ (sighting_cut moment)
  rw [sortedSales, sortedSales, upTo, upTo, ← sortOn_filter, firstSightingPerListing]
  refine sortOn_eq_of_perm (fun a ha b hb hplace => ?_) hperm
  exact eq_of_mem_values ha hb (congrArg Prod.snd (toLex.injective hplace))

theorem pairwise_sortedSales (sales : List (FeedSale F)) :
    (sortedSales sales).Pairwise fun a b => a.seenAt ≤ b.seenAt := by
  refine (pairwise_sortOn _).imp fun {a b} hle => ?_
  rw [FeedSale.place, FeedSale.place, Prod.Lex.toLex_le_toLex] at hle
  dsimp only at hle
  omega

/-- A sale up to a moment comes before any next listing after it. -/
theorem ofNextListing_of_later {sale : FeedSale F} {moment : Int} {next : Option Int}
    (hsale : sale.seenAt ≤ moment) (hnext : ∀ t, next = some t → moment < t) :
    ofNextListing sale next = false := by
  cases next with
  | none => rfl
  | some t =>
      have ht := hnext t rfl
      exact decide_eq_false (by omega)

variable [DecidableEq F] {round10 : F → F}

/-- The sale lies in a window of time. -/
def inWindow (windowStart windowEnd : Int) (sale : FeedSale F) : Bool :=
  decide (windowStart ≤ sale.seenAt) && decide (sale.seenAt ≤ windowEnd)

/-- The comparable prices, read off the sorted sales. -/
theorem comparablePrices_build (sales : List (FeedSale F)) (name : String)
    (windowStart windowEnd : Int) (excludeListing : String) :
    (build round10 sales).comparablePrices name windowStart windowEnd excludeListing
      = ((((sortedSales sales).filter fun sale => sale.marketHashName = name).filter
          (inWindow windowStart windowEnd)).filter
            fun sale => sale.listingId ≠ excludeListing).map FeedSale.priceCents := by
  have hsorted := (pairwise_sortedSales sales).filter fun sale => sale.marketHashName = name
  rw [comparablePrices, build]
  dsimp only
  rw [getD_groupOn, getD_groupOn, List.map_id]
  simp only [Option.some.injEq]
  rw [slice_bisect hsorted]
  rfl

/-- The listing's own sale, given the first sale of its item in the window. -/
def ownIfFirst (listing : FeedSale F) (first : Option (FeedSale F)) : Option (FeedSale F) :=
  match first with
  | none => none
  | some sale =>
      if ofNextListing sale listing.nextListedAt then none
      else if sale.priceCents = listing.priceCents then some sale else none

/-- The own sale by item, read off the sorted sales. -/
theorem itemSale_build (sales : List (FeedSale F)) (listing : FeedSale F)
    (windowStart windowEnd : Int) :
    (build round10 sales).itemSale round10 listing windowStart windowEnd
      = match itemKey round10 listing with
        | none => none
        | some key => ownIfFirst listing (((sortedSales sales).filter fun sale =>
            itemKey round10 sale = some key).find? (inWindow windowStart windowEnd)) := by
  rw [itemSale]
  cases itemKey round10 listing with
  | none => rfl
  | some key =>
      dsimp only [build]
      rw [getD_groupOn, List.map_id]
      rfl

/-- Sales after a window's end are not looked at. -/
theorem comparablePrices_upTo (sales : List (FeedSale F)) (name : String)
    {windowStart windowEnd moment : Int}
    (h : windowEnd ≤ moment) (excludeListing : String) :
    (build round10 (upTo moment sales)).comparablePrices name windowStart windowEnd excludeListing
      = (build round10 sales).comparablePrices name windowStart windowEnd excludeListing := by
  rw [comparablePrices_build, comparablePrices_build, sortedSales_upTo, upTo]
  congr 2
  rw [List.filter_filter, List.filter_filter, List.filter_filter]
  refine List.filter_congr fun sale _ => ?_
  by_cases hin : inWindow windowStart windowEnd sale = true
  · have hlate := hin
    rw [inWindow, Bool.and_eq_true, decide_eq_true_eq, decide_eq_true_eq] at hlate
    rw [decide_eq_true (hlate.2.trans h), Bool.and_true]
  · rw [Bool.eq_false_of_not_eq_true hin, Bool.false_and, Bool.false_and]

theorem itemSale_upTo (sales : List (FeedSale F)) (listing : FeedSale F)
    {windowStart windowEnd moment : Int} (h : windowEnd ≤ moment) :
    (build round10 (upTo moment sales)).itemSale round10 listing windowStart windowEnd
      = (build round10 sales).itemSale round10 listing windowStart windowEnd := by
  rw [itemSale_build, itemSale_build, sortedSales_upTo, upTo]
  cases itemKey round10 listing with
  | none => rfl
  | some key =>
      dsimp only
      rw [List.filter_filter, List.find?_filter, List.find?_filter]
      congr 2
      funext sale
      by_cases hin : inWindow windowStart windowEnd sale = true
      · have hlate := hin
        rw [inWindow, Bool.and_eq_true, decide_eq_true_eq, decide_eq_true_eq] at hlate
        rw [decide_eq_true (hlate.2.trans h), Bool.and_true]
      · simp [Bool.eq_false_of_not_eq_true hin]

theorem firstSold_upTo (sales : List (FeedSale F)) (listingId : String) (moment : Int) :
    (build round10 (upTo moment sales)).firstSoldByListing.get? listingId
      = ((build round10 sales).firstSoldByListing.get? listingId).filter
          fun sale => sale.seenAt ≤ moment :=
  get?_firstPerKey_filter (sighting_cut moment) listingId

end SoldIndex

theorem ItemFees.feeBps_build (builds : List (Int × OrderedDict String Int)) (name : String)
    (moment : Int) :
    (ItemFees.build builds).feeBps name moment
      = ((sortOn Prod.fst (builds.filter fun build => build.1 ≤ moment)).getLast?).bind
          fun build => build.2.get? name := by
  have hsorted : (sortOn Prod.fst builds).Pairwise fun a b => a.1 ≤ b.1 := pairwise_sortOn builds
  rw [feeBps, sortOn_filter, build]
  dsimp only
  split
  · rename_i hzero
    have htake := take_bisectRight hsorted moment
    rw [hzero, List.take_zero] at htake
    rw [← htake]
    rfl
  · rename_i index hindex
    rw [← getElem?_bisectRight hsorted moment hindex, List.getElem?_map, Option.bind_map]
    rfl

/-! ## No look-ahead -/

/-- When the label of a listing becomes available. -/
def labelAvailableAt (config : LabelConfig) (listing : FeedSale F) : Int :=
  listing.seenAt + seconds config.horizonSeconds

theorem soldWithin_of_feed {config : LabelConfig} (h : config.ownSaleByItem = false)
    (listing : FeedSale F) (own : Option (FeedSale F)) :
    soldWithin config listing.seenAt own
      = (own.filter (SoldIndex.inWindow listing.seenAt (labelAvailableAt config listing))).map
          fun sale => wholeSeconds (sale.seenAt - listing.seenAt) := by
  cases own with
  | none => rfl
  | some sale =>
      rw [soldWithin, if_neg (by simp [h]), Option.filter_some, SoldIndex.inWindow,
        labelAvailableAt]
      by_cases hin : listing.seenAt ≤ sale.seenAt ∧
          sale.seenAt ≤ listing.seenAt + seconds config.horizonSeconds
      · rw [if_pos hin, if_pos (by simpa using hin)]
        rfl
      · rw [if_neg hin, if_neg (by simpa using hin)]
        rfl

section
variable [DecidableEq F] {round10 : F → F}

/-- A label is read off the comparable sales, how fast the listing sold, and its item's fee. -/
theorem labelListing_congr {config : LabelConfig} {listing listing' : FeedSale F}
    {sold sold' : SoldIndex F} {fees fees' : Option ItemFees}
    (hlisting : { listing with nextListedAt := none } = { listing' with nextListedAt := none })
    (hcomparable : comparableSales round10 config listing sold
      = comparableSales round10 config listing' sold')
    (hsold : soldWithin config listing.seenAt (ownSale round10 config listing sold)
      = soldWithin config listing'.seenAt (ownSale round10 config listing' sold'))
    (hnone : fees.isNone = fees'.isNone)
    (hfee : (fees.bind fun fees => fees.feeBps listing.marketHashName listing.seenAt)
      = fees'.bind fun fees => fees.feeBps listing'.marketHashName listing'.seenAt) :
    labelListing round10 listing sold config fees
      = labelListing round10 listing' sold' config fees' := by
  rw [FeedSale.mk.injEq] at hlisting
  obtain ⟨hid, hname, hprice, hseen, -, -, -⟩ := hlisting
  rw [labelListing, labelListing, hnone, hcomparable, hsold, hfee, hid, hname, hprice, hseen]

/-- In the feed's mode the listing excluded from the comparison is the labeled one. -/
theorem ownSaleId_of_feed {config : LabelConfig} (h : config.ownSaleByItem = false)
    (listing : FeedSale F) (sales : List (FeedSale F)) :
    ((ownSale round10 config listing (.build round10 sales)).map FeedSale.listingId).getD
      listing.listingId = listing.listingId := by
  rw [ownSale, if_neg (by simp [h])]
  cases hfirst : (SoldIndex.build round10 sales).firstSoldByListing.get? listing.listingId with
  | none => rfl
  | some sale => exact (key_of_get?_firstPerKey hfirst).2

/-- The two moments of an item's next listing are one, or both lie after the label's. -/
def NextListingAgrees (moment : Int) (next next' : Option Int) : Prop :=
  next = next' ∨ (∀ t, next = some t → moment < t) ∧ ∀ t, next' = some t → moment < t

theorem itemSale_next (sales : List (FeedSale F)) (listing : FeedSale F) {moment : Int}
    {next next' : Option Int} (hnext : NextListingAgrees moment next next') (windowStart : Int) :
    (SoldIndex.build round10 sales).itemSale round10 { listing with nextListedAt := next }
        windowStart moment
      = (SoldIndex.build round10 sales).itemSale round10 { listing with nextListedAt := next' }
          windowStart moment := by
  have hkey : itemKey round10 { listing with nextListedAt := next }
      = itemKey round10 { listing with nextListedAt := next' } := rfl
  rw [SoldIndex.itemSale_build, SoldIndex.itemSale_build, hkey]
  cases itemKey round10 { listing with nextListedAt := next' } with
  | none => rfl
  | some key =>
      dsimp only
      cases hfind : ((SoldIndex.sortedSales sales).filter fun sale =>
          itemKey round10 sale = some key).find? (SoldIndex.inWindow windowStart moment) with
      | none => rfl
      | some sale =>
          rcases hnext with rfl | ⟨hlater, hlater'⟩
          · rfl
          · have hin := List.find?_some hfind
            rw [SoldIndex.inWindow, Bool.and_eq_true, decide_eq_true_eq, decide_eq_true_eq] at hin
            simp only [SoldIndex.ownIfFirst, SoldIndex.ofNextListing_of_later hin.2 hlater,
              SoldIndex.ofNextListing_of_later hin.2 hlater']

/-- A label is the same over the sales up to its availability, whatever the item's next listing
after that. -/
theorem labelListing_upTo (config : LabelConfig) (listing : FeedSale F) {next next' : Option Int}
    (hnext : NextListingAgrees (labelAvailableAt config listing) next next')
    (sales : List (FeedSale F)) (fees : Option ItemFees) :
    labelListing round10 { listing with nextListedAt := next }
        (.build round10 (upTo (labelAvailableAt config listing) sales)) config fees
      = labelListing round10 { listing with nextListedAt := next' } (.build round10 sales) config
        fees := by
  have hcomparable := @SoldIndex.comparablePrices_upTo F _ round10 sales listing.marketHashName
    (listing.seenAt + seconds config.fees.holdSeconds) (labelAvailableAt config listing)
    (labelAvailableAt config listing) (Int.le_refl _)
  cases hmode : config.ownSaleByItem with
  | true =>
      have hown : ownSale round10 config { listing with nextListedAt := next }
            (.build round10 (upTo (labelAvailableAt config listing) sales))
          = ownSale round10 config { listing with nextListedAt := next' }
            (.build round10 sales) := by
        rw [ownSale, ownSale, if_pos hmode, if_pos hmode]
        exact (SoldIndex.itemSale_upTo sales { listing with nextListedAt := next }
          (Int.le_refl _)).trans (itemSale_next sales listing hnext _)
      refine labelListing_congr rfl ?_ ?_ rfl rfl
      · rw [comparableSales, comparableSales, hown]
        exact hcomparable _
      · rw [hown]
  | false =>
      refine labelListing_congr rfl ?_ ?_ rfl rfl
      · rw [comparableSales, comparableSales, ownSaleId_of_feed hmode, ownSaleId_of_feed hmode]
        exact hcomparable _
      · rw [soldWithin_of_feed hmode, soldWithin_of_feed hmode, ownSale, ownSale,
          if_neg (by simp [hmode]), if_neg (by simp [hmode]), SoldIndex.firstSold_upTo,
          Option.filter_filter]
        congr 2
        funext sale
        by_cases hlate : sale.seenAt ≤ labelAvailableAt config listing
        · rw [decide_eq_true hlate, Bool.true_and]
          rfl
        · rw [decide_eq_false hlate, Bool.false_and]
          show false = (_ && decide (sale.seenAt ≤ labelAvailableAt config listing))
          rw [decide_eq_false hlate, Bool.and_false]

/-- Nothing after its availability enters a label: two histories that agree up to then, on the
sales, on the fees in force when it was listed and on the item's next listing, give one row. -/
theorem labelListing_noLookAhead (config : LabelConfig) (listing : FeedSale F)
    {next next' : Option Int} {sales sales' : List (FeedSale F)}
    {builds builds' : Option (List (Int × OrderedDict String Int))}
    (hsales : upTo (labelAvailableAt config listing) sales
      = upTo (labelAvailableAt config listing) sales')
    (hbuilds : builds.map (List.filter fun build => build.1 ≤ listing.seenAt)
      = builds'.map (List.filter fun build => build.1 ≤ listing.seenAt))
    (hnext : NextListingAgrees (labelAvailableAt config listing) next next') :
    labelListing round10 { listing with nextListedAt := next } (.build round10 sales) config
        (builds.map .build)
      = labelListing round10 { listing with nextListedAt := next' } (.build round10 sales') config
        (builds'.map .build) := by
  have hfee : ((builds.map ItemFees.build).bind fun fees =>
        fees.feeBps listing.marketHashName listing.seenAt)
      = (builds'.map ItemFees.build).bind fun fees =>
        fees.feeBps listing.marketHashName listing.seenAt := by
    cases builds with
    | none =>
        cases builds' with
        | none => rfl
        | some _ => cases hbuilds
    | some builds =>
        cases builds' with
        | none => cases hbuilds
        | some builds' =>
            simp only [Option.map_some, Option.bind_some, ItemFees.feeBps_build]
            rw [Option.some.inj hbuilds]
  have hnone : (builds.map ItemFees.build).isNone = (builds'.map ItemFees.build).isNone := by
    cases builds <;> cases builds' <;> first | rfl | cases hbuilds
  rw [← labelListing_upTo config listing hnext sales', ← hsales,
    labelListing_upTo config listing (.inl rfl) sales]
  exact labelListing_congr rfl rfl rfl hnone hfee

end

theorem settle_nonneg : (0 : Int) ≤ 3600 := by decide

theorem revise_nonneg : (0 : Int) ≤ 3 * secondsPerDay := by decide

theorem day_nonneg : (0 : Int) ≤ secondsPerDay := by decide

theorem hold_lt_horizon : 7 * secondsPerDay < 14 * secondsPerDay := by decide

theorem one_le_three : 1 ≤ 3 := by decide

/-- `LabelConfig.for_venue("dmarket", "v1-dmarket")` -/
def dmarketLabels : LabelConfig where
  version := "v1-dmarket"
  venue := "dmarket"
  fees := dmarketFees
  salesSource := .venueSales
  itemSellerFees := true
  salesSettleSeconds := secondsPerDay
  ownSaleByItem := true
  horizonSeconds := 14 * secondsPerDay
  minComparableSales := 3
  settleSeconds := 3600
  reviseSeconds := 3 * secondsPerDay
  feesVenue := rfl
  salesSettleNonneg := day_nonneg
  venueSalesOnly := fun _ => rfl
  horizonAfterHold := hold_lt_horizon
  minComparablePos := one_le_three
  settleNonneg := settle_nonneg
  reviseNonneg := revise_nonneg

/-- A sale of one knife, in hours. -/
def knifeSale (listingId : String) (priceCents hour : Int) : FeedSale Nat :=
  ⟨listingId, "★ Karambit | Doppler (Factory New) Phase 2", priceCents, seconds (3600 * hour),
    some 12, some 412, none⟩

/-- A build that charges the knife some fee. -/
def knifeFee (hour feeBps : Int) : Int × OrderedDict String Int :=
  (seconds (3600 * hour), .set .empty "★ Karambit | Doppler (Factory New) Phase 2" feeBps)

/-- A listing on the first day and its item's sale an hour later; in the second history the item
sells again after the horizon, was listed again by then, and a later build charges less. -/
theorem labelListing_noLookAhead_relisted :
    labelListing id { knifeSale "o-1" 90000 24 with nextListedAt := none }
        (.build id [knifeSale "sale-1" 90000 25]) dmarketLabels
        (some (.build [knifeFee 1 1000]))
      = labelListing id { knifeSale "o-1" 90000 24 with nextListedAt := some (seconds 1440000) }
        (.build id [knifeSale "sale-1" 90000 25, knifeSale "sale-2" 70000 401]) dmarketLabels
        (some (.build [knifeFee 1 1000, knifeFee 300 200])) :=
  @labelListing_noLookAhead Nat _ id dmarketLabels (knifeSale "o-1" 90000 24) none
    (some (seconds 1440000)) [knifeSale "sale-1" 90000 25]
    [knifeSale "sale-1" 90000 25, knifeSale "sale-2" 70000 401] (some [knifeFee 1 1000])
    (some [knifeFee 1 1000, knifeFee 300 200]) (by decide) rfl
    (.inr ⟨fun t ht => absurd ht (Option.some_ne_none t).symm, fun t ht => by
      cases ht
      decide⟩)

end BrandSniper.Labels
