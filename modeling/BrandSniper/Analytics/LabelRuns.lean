import BrandSniper.Analytics.OutcomeLabels
import BrandSniper.Kit.Results
import BrandSniper.Kit.Text

/-!
# Labeler runs

`label_listing_outcomes` of `apps/analytics/label_outcomes.py` over the queries
of `apps/analytics/outcome_data.py`: the range of listings a run labels, the
sales and the fee builds it fetches for them, and the windows it labels them
in.

A label made by a run is compared with the label over the whole history
(`wholeLabel`). The two differ at the cut: the fetched sales begin at `start`,
but an item's own sale may come a minute before its listing, and a sale seen
before `start` that is seen again counts as a new one (`SalesKept`).
-/

namespace BrandSniper.Labels

open Kit

variable {F : Type} [DecidableEq F]

/-! ## The database -/

/-- A row of `live_market_ticks` with its item's name, in the order of the ids. -/
structure TickRow (F : Type) where
  venue : String
  eventType : Option String
  listingId : Option String
  observedAt : Option Int
  marketHashName : String
  priceCents : Int
  floatValue : Option F
  pattern : Option Int

/-- A row of `venue_sales`. -/
structure VenueSaleRow (F : Type) where
  id : Nat
  venue : String
  marketHashName : String
  soldAt : Int
  priceCents : Int
  saleType : String
  floatValue : Option F
  paintSeed : Option Int

/-- A row of `baseline_builds`, with the seller fees of its `venue_baselines` rows that have one. -/
structure BuildRow where
  venue : String
  builtAt : Int
  sellerFees : OrderedDict String Int

structure LabelDatabase (F : Type) where
  ticks : List (TickRow F)
  venueSales : List (VenueSaleRow F)
  builds : List BuildRow
  /-- The primary key of `venue_sales`. -/
  saleIds : (venueSales.map VenueSaleRow.id).Nodup

namespace LabelDatabase

variable (db : LabelDatabase F)

/-- When the row's item was next recorded as another listing. -/
def nextListedAt (row : TickRow F) (listingId : String) (observedAt : Int) : Option Int :=
  (db.ticks.filterMap fun later =>
    if later.floatValue.isSome ∧ later.floatValue = row.floatValue ∧
        later.marketHashName = row.marketHashName ∧ later.pattern = row.pattern ∧
        later.venue = row.venue ∧ later.eventType = row.eventType ∧
        later.listingId.any (fun id => id ≠ listingId) = true then
      later.observedAt.filter fun t => observedAt < t
    else none).min?

/-- The columns of `_LISTING_EVENTS_QUERY`, of a row it selects. -/
def listingEvent (venue eventType : String) (withNextListing : Bool) (row : TickRow F) :
    Option (FeedSale F) :=
  match row.listingId, row.observedAt with
  | some listingId, some observedAt =>
      if row.venue = venue ∧ row.eventType = some eventType then
        some ⟨listingId, row.marketHashName, row.priceCents, observedAt, row.floatValue,
          row.pattern, if withNextListing then db.nextListedAt row listingId observedAt else none⟩
      else none
  | _, _ => none

/-- The event was seen in [start, stop). -/
def inRange (start stop : Int) (sale : FeedSale F) : Bool :=
  decide (start ≤ sale.seenAt) && decide (sale.seenAt < stop)

def fetchListingEvents (venue eventType : String) (start stop : Int) (withNextListing : Bool) :
    List (FeedSale F) :=
  sortOn FeedSale.seenAt
    ((db.ticks.filterMap (db.listingEvent venue eventType withNextListing)).filter
      (inRange start stop))

/-- A sale as a sold event, with an ID of its own. -/
def saleEvent (row : VenueSaleRow F) : FeedSale F :=
  ⟨"sale-" ++ toString row.id, row.marketHashName, row.priceCents, row.soldAt, row.floatValue,
    row.paintSeed, none⟩

/-- The rows of `_VENUE_SALES_QUERY` without its range, in its order. -/
def offerSales (venue : String) : List (FeedSale F) :=
  (sortOn (fun row : VenueSaleRow F => (toLex (row.soldAt, row.id) : Int ×ₗ Nat))
    (db.venueSales.filter fun row =>
      decide (row.venue = venue) && decide (row.saleType = "offer"))).map saleEvent

def fetchVenueSales (venue : String) (start stop : Int) : List (FeedSale F) :=
  (db.offerSales venue).filter (inRange start stop)

/-- When the newest build of the venue was stored. -/
def latestSalesSync (venue : String) : Option Int :=
  ((db.builds.filter fun build => build.venue = venue).map BuildRow.builtAt).max?

/-- `builds.setdefault(built_at, {})[market_hash_name] = seller_fee_bps` for the rows of a build. -/
def addFees (fees : OrderedDict Int (OrderedDict String Int)) (build : BuildRow) :
    OrderedDict Int (OrderedDict String Int) :=
  fees.set build.builtAt (((fees.get? build.builtAt).getD .empty).setAll build.sellerFees.items)

def itemFeesOf (builds : List BuildRow) : ItemFees := .build (builds.foldl addFees .empty).items

/-- The fee builds of listings recorded in [start, stop]: the one in force at `start` and every
later one. -/
def feesFrom (venue : String) (start : Int) : Int :=
  (((db.builds.filter fun build => build.venue = venue).map BuildRow.builtAt).filter
    fun t => t ≤ start).max?.getD start

/-- `_ITEM_FEES_QUERY` joins the fees of a build, so a build without one has no row. -/
def fetchItemFees (venue : String) (start stop : Int) : ItemFees :=
  itemFeesOf (db.builds.filter fun build =>
    decide (build.venue = venue) && (build.sellerFees.items ≠ []) &&
      (decide (build.builtAt ≤ stop) && decide (db.feesFrom venue start ≤ build.builtAt)))

end LabelDatabase

/-! ## Runs -/

/-- `datetime.min` -/
def datetimeMin : Int := -62135596800000000

/-- Listings seen after this moment cannot be labeled yet as of `asOf`. -/
def latestLabelable (asOf : Int) (config : LabelConfig) (salesSyncedAt : Option Int) : Int :=
  let cutoff := asOf - seconds (config.horizonSeconds + config.settleSeconds)
  if config.salesSource ≠ .venueSales then cutoff
  else match salesSyncedAt with
    | none => datetimeMin
    | some synced => min cutoff (synced - seconds (config.horizonSeconds + config.salesSettleSeconds))

section
variable (round10 : F → F)

/-- Labels every listing whose horizon has passed. -/
def labelListings (listed : List (FeedSale F)) (sold : SoldIndex F) (config : LabelConfig)
    (cutoff : Int) (itemFees : Option ItemFees) : Except PyError (List ListingOutcome) := do
  let rows ← (((firstSightingPerListing listed).items.map Prod.snd).filter fun listing =>
    listing.seenAt ≤ cutoff).mapM fun listing => labelListing round10 listing sold config itemFees
  .ok (sortOn (fun row => (toLex (row.listedAt, row.listingId) : Int ×ₗ String)) rows)

def iterWindowsFrom (stop window : Int) : Nat → Int → List (Int × Int)
  | 0, _ => []
  | fuel + 1, cursor =>
      if cursor < stop then
        (cursor, min (cursor + window) stop)
          :: iterWindowsFrom stop window fuel (min (cursor + window) stop)
      else []

/-- Splits [start, stop) into consecutive windows; there are at most as many as fit. -/
def iterWindows (start stop window : Int) : List (Int × Int) :=
  iterWindowsFrom stop window ((stop - start) / window + 1).toNat start

variable (db : LabelDatabase F) (config : LabelConfig)

def soldSales (start stop : Int) : List (FeedSale F) :=
  match config.salesSource with
  | .venueSales => db.fetchVenueSales config.venue start stop
  | .ticks => db.fetchListingEvents config.venue "sold" start stop false

def listedEvents (start stop : Int) : List (FeedSale F) :=
  db.fetchListingEvents config.venue "listed" start stop config.ownSaleByItem

/-- The sync that bounds a run's listings; none where the sales come with the feed. -/
def salesSyncedAt : Option Int :=
  match config.salesSource with
  | .venueSales => db.latestSalesSync config.venue
  | .ticks => none

/-- The end of the listings that a run labels. -/
def runEnd (asOf stop : Int) : Int :=
  min stop (latestLabelable asOf config (salesSyncedAt db config))

/-- `sold_end` -/
def soldEnd (asOf stop : Int) : Int := runEnd db config asOf stop + seconds config.horizonSeconds

def runFees (asOf start stop : Int) : Option ItemFees :=
  if config.itemSellerFees then
    some (db.fetchItemFees config.venue start (runEnd db config asOf stop))
  else none

/-- The label a run makes of a listing. -/
def runLabel (asOf start stop : Int) (listing : FeedSale F) : Except PyError ListingOutcome :=
  labelListing round10 listing
    (.build round10 (soldSales db config start (soldEnd db config asOf stop))) config
    (runFees db config asOf start stop)

/-- `label_window`: the rows of the listings first seen in [windowStart, windowEnd). -/
def labelWindow (asOf start stop : Int) (window : Int × Int) :
    Except PyError (List ListingOutcome) :=
  labelListings round10 (listedEvents db config window.1 window.2)
    (.build round10 (soldSales db config start (soldEnd db config asOf stop))) config
    (latestLabelable asOf config (salesSyncedAt db config)) (runFees db config asOf start stop)

/-- The rows `label_listing_outcomes` saves, window by window. -/
def labelListingOutcomes (asOf start stop windowHours : Int) :
    Except PyError (List (List ListingOutcome)) :=
  if windowHours < 1 then .error (.valueError "window_hours must be at least 1")
  else if runEnd db config asOf stop ≤ start then .ok []
  else (iterWindows start (runEnd db config asOf stop) (seconds (3600 * windowHours))).mapM
    (labelWindow round10 db config asOf start stop)

/-! ## The whole history -/

/-- Every sale of the venue, in the order of the query. -/
def soldHistory : List (FeedSale F) :=
  match config.salesSource with
  | .venueSales => db.offerSales config.venue
  | .ticks => sortOn FeedSale.seenAt (db.ticks.filterMap (db.listingEvent config.venue "sold" false))

/-- Every listing event of the venue. -/
def listedHistory : List (FeedSale F) :=
  sortOn FeedSale.seenAt
    (db.ticks.filterMap (db.listingEvent config.venue "listed" config.ownSaleByItem))

/-- Every build's fees. -/
def everyBuildsFees : Option ItemFees :=
  if config.itemSellerFees then
    some (LabelDatabase.itemFeesOf (db.builds.filter fun build => build.venue = config.venue))
  else none

/-- The label over the whole history. -/
def wholeLabel (listing : FeedSale F) : Except PyError ListingOutcome :=
  labelListing round10 listing (.build round10 (soldHistory db config)) config
    (everyBuildsFees db config)

/-! ## What a cut keeps -/

/-- The history from a moment on. -/
def since (start : Int) (sales : List (FeedSale F)) : List (FeedSale F) :=
  sales.filter fun sale => start ≤ sale.seenAt

/-- The first sale of the listing's item from a minute before the listing up to its label. -/
def firstItemSale (sales : List (FeedSale F)) (listing : FeedSale F) : Option (FeedSale F) :=
  (itemKey round10 listing).bind fun key =>
    ((SoldIndex.sortedSales sales).filter fun sale => itemKey round10 sale = some key).find?
      (SoldIndex.inWindow (listing.seenAt - seconds ownSaleClockSkewSeconds)
        (labelAvailableAt config listing))

/-- The resale window of a listing. -/
def inResaleWindow (listing : FeedSale F) (sale : FeedSale F) : Bool :=
  SoldIndex.inWindow (listing.seenAt + seconds config.fees.holdSeconds)
    (labelAvailableAt config listing) sale

/-- A sale that is the first of its listing from `start` on, but was seen before. -/
def SeenAgain (start : Int) (sale : FeedSale F) : Prop :=
  (firstSightingPerListing (since start (soldHistory db config))).get? sale.listingId = some sale ∧
    ∃ earlier ∈ soldHistory db config, earlier.listingId = sale.listingId ∧ earlier.seenAt < start

/-- In the feed's mode: no sale seen before `start` is seen again where the label looks. -/
structure FeedSalesKept (start : Int) (listing : FeedSale F) : Prop where
  comparable : ∀ sale, SeenAgain db config start sale → sale.listingId ≠ listing.listingId →
    sale.marketHashName = listing.marketHashName → inResaleWindow config listing sale = false
  own : ∀ sale, SeenAgain db config start sale → sale.listingId = listing.listingId →
    SoldIndex.inWindow listing.seenAt (labelAvailableAt config listing) sale = false

/-- The sales of the listing's item from a minute before the listing up to its label, in order. -/
def itemSales (listing : FeedSale F) : List (FeedSale F) :=
  match itemKey round10 listing with
  | none => []
  | some key =>
      ((SoldIndex.sortedSales (soldHistory db config)).filter fun sale =>
        itemKey round10 sale = some key).filter
          (SoldIndex.inWindow (listing.seenAt - seconds ownSaleClockSkewSeconds)
            (labelAvailableAt config listing))

/-- The sale is at the listing's price, and before its item's next listing. -/
def CouldBeOwn (listing sale : FeedSale F) : Prop :=
  sale.priceCents = listing.priceCents ∧ ∀ t, listing.nextListedAt = some t → sale.seenAt < t

/-- The label is the same without the item's first sale, given the next one. At the listing's price
the next sale has to stand in for it: at that price too, within a second of the listing and not
among the sales it is compared with. At another price, the next one must not be the listing's own. -/
def SameWithout (listing first : FeedSale F) (next : Option (FeedSale F)) : Prop :=
  if first.priceCents = listing.priceCents then
    ∃ sale, next = some sale ∧ CouldBeOwn listing sale ∧
      sale.seenAt < listing.seenAt + seconds 1 ∧ inResaleWindow config listing sale = false
  else ∀ sale, next = some sale → ¬ CouldBeOwn listing sale

/-- With own sales by item: the first sale of the listing's item is not before `start`, or the label
is the same without it. -/
def ItemSaleKept (start : Int) (listing : FeedSale F) : Prop :=
  ∀ first, (itemSales round10 db config listing).head? = some first → first.seenAt < start →
    SameWithout config listing first
      ((itemSales round10 db config listing).find? fun sale => start ≤ sale.seenAt)

def SalesKept (start : Int) (listing : FeedSale F) : Prop :=
  if config.ownSaleByItem then ItemSaleKept round10 db config start listing
  else FeedSalesKept db config start listing

/-- The resale that a label reckons with. -/
def resaleAt (listing : FeedSale F) (sold : SoldIndex F) (fees : Option ItemFees) :
    Except PyError Resale :=
  resaleOf config listing.priceCents (comparableSales round10 config listing sold)
    (fees.bind fun fees => fees.feeBps listing.marketHashName listing.seenAt)

end

/-! ## Comparing two labels -/

section
variable {round10 : F → F} {config : LabelConfig} {listing : FeedSale F} {sold sold' : SoldIndex F}
  {fees fees' : Option ItemFees}

theorem labelListing_fields {row : ListingOutcome}
    (h : labelListing round10 listing sold config fees = .ok row) :
    row.listingId = listing.listingId ∧ row.listedAt = listing.seenAt ∧
      row.comparableSales = (comparableSales round10 config listing sold).length ∧
      row.listingSoldWithinS
        = soldWithin config listing.seenAt (ownSale round10 config listing sold) ∧
      resaleAt round10 config listing sold fees
        = .ok ⟨row.resalePriceCents, row.resaleNetMarginCents, row.isProfitable⟩ := by
  rw [labelListing] at h
  split at h
  · cases h
  · dsimp only at h
    rw [resaleAt]
    cases hresale : resaleOf config listing.priceCents (comparableSales round10 config listing sold)
        (fees.bind fun fees => fees.feeBps listing.marketHashName listing.seenAt) with
    | error e =>
        rw [hresale] at h
        cases h
    | ok resale =>
        rw [hresale] at h
        cases h
        exact ⟨rfl, rfl, rfl, rfl, rfl⟩

/-- A label is read off how many sales it compares with, how fast the listing sold and the
resale. -/
theorem labelListing_of_fields
    (hcomparable : comparableSales round10 config listing sold
      = comparableSales round10 config listing sold')
    (hsold : soldWithin config listing.seenAt (ownSale round10 config listing sold)
      = soldWithin config listing.seenAt (ownSale round10 config listing sold'))
    (hnone : fees.isNone = fees'.isNone)
    (hresale : resaleAt round10 config listing sold fees
      = resaleAt round10 config listing sold' fees') :
    labelListing round10 listing sold config fees
      = labelListing round10 listing sold' config fees' := by
  rw [resaleAt, resaleAt] at hresale
  rw [labelListing, labelListing, hnone]
  dsimp only
  rw [hresale, hcomparable, hsold]

omit [DecidableEq F] in
/-- Two item fees make the same resale exactly if they are the same cents of its price. -/
theorem resaleOf_eq_iff {listedPriceCents : Int} {comparable : List Int}
    {itemFeeBps itemFeeBps' : Option Int} {resale : Resale}
    (h : resaleOf config listedPriceCents comparable itemFeeBps = .ok resale) :
    resaleOf config listedPriceCents comparable itemFeeBps' = .ok resale ↔
      (config.itemSellerFees = true → config.minComparableSales ≤ comparable.length →
        ∀ priceCents, medianLow comparable = .ok priceCents →
          sellerFeeCents priceCents config.fees itemFeeBps'
            = sellerFeeCents priceCents config.fees itemFeeBps) := by
  rw [resaleOf] at h ⊢
  cases hitem : config.itemSellerFees with
  | false =>
      rw [hitem] at h
      exact iff_of_true h fun hfalse => by cases hfalse
  | true =>
      rw [hitem] at h
      by_cases hmin : config.minComparableSales ≤ comparable.length
      · rw [if_pos hmin] at h ⊢
        cases hmedian : medianLow comparable with
        | error e =>
            rw [hmedian] at h
            cases h
        | ok priceCents =>
            rw [hmedian] at h
            obtain ⟨_, hprice, h⟩ := bind_eq_ok h
            cases hprice
            obtain ⟨margin, hmargin, hresale⟩ := bind_eq_ok h
            cases hresale
            have hsame := @netResaleMarginCents_eq_iff _ _ _ _ _ itemFeeBps itemFeeBps' hmargin
            constructor
            · intro h' _ _ price hprice
              cases hprice
              obtain ⟨_, hprice, h'⟩ := bind_eq_ok h'
              cases hprice
              obtain ⟨margin', hmargin', hresale'⟩ := bind_eq_ok h'
              cases hresale'
              exact hsame.mp hmargin'
            · intro hfees
              have hmargin' := hsame.mpr (hfees rfl hmin priceCents rfl)
              show (netResaleMarginCents listedPriceCents priceCents config.fees (some config.fees)
                itemFeeBps' >>= _) = _
              rw [hmargin']
              rfl
      · rw [if_neg hmin] at h ⊢
        exact iff_of_true h fun _ hle => absurd hle hmin

/-- Where one comparison is part of the other, two labels are the same exactly if the comparisons,
the times to sell and the resales are. -/
theorem labelListing_eq_iff {row : ListingOutcome}
    (hpart : soldWithin config listing.seenAt (ownSale round10 config listing sold)
        = soldWithin config listing.seenAt (ownSale round10 config listing sold') →
      (comparableSales round10 config listing sold).Sublist
        (comparableSales round10 config listing sold') ∨
      (comparableSales round10 config listing sold').Sublist
        (comparableSales round10 config listing sold))
    (hnone : fees.isNone = fees'.isNone)
    (h : labelListing round10 listing sold' config fees' = .ok row) :
    labelListing round10 listing sold config fees = .ok row ↔
      (comparableSales round10 config listing sold = comparableSales round10 config listing sold' ∧
        soldWithin config listing.seenAt (ownSale round10 config listing sold)
          = soldWithin config listing.seenAt (ownSale round10 config listing sold')) ∧
      resaleAt round10 config listing sold fees = resaleAt round10 config listing sold' fees' := by
  constructor
  · intro h'
    obtain ⟨-, -, hcount, hwithin, hresale⟩ := labelListing_fields h
    obtain ⟨-, -, hcount', hwithin', hresale'⟩ := labelListing_fields h'
    have hsold := hwithin'.symm.trans hwithin
    refine ⟨⟨?_, hsold⟩, hresale'.trans hresale.symm⟩
    rcases hpart hsold with hpart | hpart
    · exact hpart.eq_of_length (hcount'.symm.trans hcount)
    · exact (hpart.eq_of_length (hcount.symm.trans hcount')).symm
  · rintro ⟨⟨hcomparable, hsold⟩, hresale⟩
    rw [← h]
    exact labelListing_of_fields hcomparable hsold hnone hresale

end

/-! ## The sales of a run -/

section
variable {round10 : F → F} {db : LabelDatabase F} {config : LabelConfig}

/-- What a run fetches of the sales. -/
theorem soldSales_eq (start stop : Int) : soldSales db config start stop
    = (soldHistory db config).filter (LabelDatabase.inRange start stop) := by
  rw [soldSales, soldHistory]
  cases config.salesSource with
  | ticks => exact sortOn_filter _ _
  | venueSales => rfl

/-- A run labels a listing of its range over the sales from its start on. -/
theorem runLabel_eq {asOf start stop : Int} {listing : FeedSale F}
    (h : listing.seenAt < runEnd db config asOf stop) :
    runLabel round10 db config asOf start stop listing
      = labelListing round10 listing (.build round10 (since start (soldHistory db config))) config
          (runFees db config asOf start stop) := by
  have hcut : upTo (labelAvailableAt config listing)
        (soldSales db config start (soldEnd db config asOf stop))
      = upTo (labelAvailableAt config listing) (since start (soldHistory db config)) := by
    rw [soldSales_eq, upTo, upTo, since, List.filter_filter, List.filter_filter]
    refine List.filter_congr fun sale _ => ?_
    rw [LabelDatabase.inRange, soldEnd]
    by_cases hlate : sale.seenAt ≤ labelAvailableAt config listing
    · have hend : sale.seenAt < runEnd db config asOf stop + seconds config.horizonSeconds := by
        rw [labelAvailableAt] at hlate
        omega
      rw [decide_eq_true hend, Bool.and_true]
    · rw [decide_eq_false hlate, Bool.false_and, Bool.false_and]
  have hsame := @labelListing_upTo F _ round10 config listing listing.nextListedAt
    listing.nextListedAt (.inl rfl)
  rw [runLabel, ← hsame (soldSales db config start (soldEnd db config asOf stop)), hcut, hsame]

theorem natText_injective {a b : Nat} (h : "sale-" ++ toString a = "sale-" ++ toString b) :
    a = b := by
  have htext := congrArg String.toList h
  rw [String.toList_append, String.toList_append] at htext
  exact Text.natText_inj (List.append_cancel_left htext)

omit [DecidableEq F] in
/-- The venue's own sales have IDs of their own. -/
theorem nodup_offerSales (db : LabelDatabase F) (venue : String) :
    ((db.offerSales venue).map FeedSale.listingId).Nodup := by
  rw [LabelDatabase.offerSales, List.map_map]
  have hids : (((sortOn (fun row : VenueSaleRow F => (toLex (row.soldAt, row.id) : Int ×ₗ Nat))
      (db.venueSales.filter fun row =>
        decide (row.venue = venue) && decide (row.saleType = "offer"))).map
          VenueSaleRow.id)).Nodup := by
    refine (((perm_sortOn _).map VenueSaleRow.id).nodup_iff).mpr ?_
    exact db.saleIds.sublist (List.filter_sublist.map _)
  rw [show FeedSale.listingId ∘ LabelDatabase.saleEvent
      = (fun id => "sale-" ++ toString id) ∘ (VenueSaleRow.id : VenueSaleRow F → Nat) from rfl,
    ← List.map_map]
  exact hids.map fun a b h => natText_injective h

end

/-! ## Sales seen again -/

omit [DecidableEq F] in
/-- Two histories with the same first sightings among some sales have the same sorted sales
there. -/
theorem filter_sortedSales_congr {sales sales' : List (FeedSale F)} {q : FeedSale F → Bool}
    (h : ∀ sale, q sale = true →
      ((firstSightingPerListing sales).get? sale.listingId = some sale ↔
        (firstSightingPerListing sales').get? sale.listingId = some sale)) :
    (SoldIndex.sortedSales sales).filter q = (SoldIndex.sortedSales sales').filter q := by
  rw [SoldIndex.sortedSales, SoldIndex.sortedSales, ← sortOn_filter, ← sortOn_filter]
  refine sortOn_eq_of_perm (fun a ha b hb hplace => ?_) ?_
  · exact eq_of_mem_values (List.mem_of_mem_filter ha) (List.mem_of_mem_filter hb)
      (congrArg Prod.snd (toLex.injective hplace))
  · refine (List.perm_ext_iff_of_nodup ((nodup_values_firstPerKey _).filter q)
      ((nodup_values_firstPerKey _).filter q)).mpr fun sale => ?_
    rw [List.mem_filter, List.mem_filter, mem_values_firstPerKey, mem_values_firstPerKey]
    constructor
    · rintro ⟨hfirst, hq⟩
      exact ⟨(h sale hq).mp hfirst, hq⟩
    · rintro ⟨hfirst, hq⟩
      exact ⟨(h sale hq).mpr hfirst, hq⟩

section
variable {round10 : F → F} {db : LabelDatabase F} {config : LabelConfig}

omit [DecidableEq F] in
theorem seenAt_of_since {start : Int} {sales : List (FeedSale F)} {listingId : String}
    {sale : FeedSale F}
    (h : (firstSightingPerListing (since start sales)).get? listingId = some sale) :
    start ≤ sale.seenAt := by
  have hmem := (key_of_get?_firstPerKey h).1
  exact of_decide_eq_true (List.mem_filter.mp hmem).2

/-- The first sighting from `start` on is the first one, or the listing is seen again. -/
theorem first_since_iff {start : Int} {sale : FeedSale F} :
    (firstSightingPerListing (since start (soldHistory db config))).get? sale.listingId = some sale
      ↔ ((firstSightingPerListing (soldHistory db config)).get? sale.listingId = some sale ∧
          start ≤ sale.seenAt) ∨ SeenAgain db config start sale := by
  constructor
  · intro h
    have hstart := seenAt_of_since h
    have hmem := (key_of_get?_firstPerKey h).1
    obtain ⟨first, hfirst, hfirstMem, hid, -⟩ :=
      @get?_firstPerKey_isSome _ _ _ _ _ FeedSale.listingId FeedSale.sighting _ _
        (List.mem_of_mem_filter hmem)
    by_cases hearly : start ≤ first.seenAt
    · have hkept := get?_firstPerKey_filter_of_pos (p := fun sale : FeedSale F => start ≤ sale.seenAt)
        hfirst (by simpa using hearly)
      rw [since, firstSightingPerListing, hkept] at h
      cases h
      exact .inl ⟨hfirst, hstart⟩
    · exact .inr ⟨h, first, hfirstMem, hid, Int.not_le.mp hearly⟩
  · rintro (⟨hfirst, hstart⟩ | ⟨h, -⟩)
    · exact get?_firstPerKey_filter_of_pos hfirst (by simpa using hstart)
    · exact h

/-- A listing seen again was seen first before `start`. -/
theorem SeenAgain.not_first {start : Int} {sale : FeedSale F} (h : SeenAgain db config start sale) :
    (firstSightingPerListing (soldHistory db config)).get? sale.listingId ≠ some sale := by
  obtain ⟨hsince, earlier, hmem, hid, hearly⟩ := h
  intro hfirst
  have hstart := seenAt_of_since hsince
  obtain ⟨first, hget, -, -, hle⟩ :=
    @get?_firstPerKey_isSome _ _ _ _ _ FeedSale.listingId FeedSale.sighting _ _ hmem
  rw [hid] at hget
  rw [firstSightingPerListing, hget] at hfirst
  cases hfirst
  rw [FeedSale.sighting, FeedSale.sighting, Prod.Lex.toLex_le_toLex] at hle
  dsimp only at hle
  omega

/-- What the comparison of a listing looks at, leaving one listing out. -/
def comparedWith (config : LabelConfig) (listing : FeedSale F) (excludeListing : String)
    (sale : FeedSale F) : Bool :=
  (decide (sale.listingId ≠ excludeListing) && inResaleWindow config listing sale) &&
    decide (sale.marketHashName = listing.marketHashName)

theorem comparableSales_build (listing : FeedSale F) (sales : List (FeedSale F)) :
    comparableSales round10 config listing (.build round10 sales)
      = ((SoldIndex.sortedSales sales).filter (comparedWith config listing
          (((ownSale round10 config listing (.build round10 sales)).map FeedSale.listingId).getD
            listing.listingId))).map FeedSale.priceCents := by
  rw [comparableSales, SoldIndex.comparablePrices_build, List.filter_filter, List.filter_filter]
  rfl

omit [DecidableEq F] in
/-- The resale window of a listing of a run lies after the run's start. -/
theorem start_le_of_compared {start : Int} {listing sale : FeedSale F} {excludeListing : String}
    (hstart : start ≤ listing.seenAt)
    (h : comparedWith config listing excludeListing sale = true) : start ≤ sale.seenAt := by
  simp only [comparedWith, inResaleWindow, SoldIndex.inWindow, Bool.and_eq_true,
    decide_eq_true_eq] at h
  have hhold : 0 ≤ seconds config.fees.holdSeconds := by
    have := config.fees.holdNonneg
    unfold seconds
    omega
  omega

omit [DecidableEq F] in
theorem mem_sortedSales {sales : List (FeedSale F)} {sale : FeedSale F} :
    sale ∈ SoldIndex.sortedSales sales
      ↔ (firstSightingPerListing sales).get? sale.listingId = some sale := by
  rw [SoldIndex.sortedSales, mem_sortOn]
  exact mem_values_firstPerKey

/-- The sale is the first sighting of its listing in the whole history. -/
def isFirst (db : LabelDatabase F) (config : LabelConfig) (sale : FeedSale F) : Bool :=
  decide ((firstSightingPerListing (soldHistory db config)).get? sale.listingId = some sale)

/-- The comparison over the whole history is the run's without the sales seen again. -/
theorem filter_sortedSales_since {start : Int} {q : FeedSale F → Bool}
    (hq : ∀ sale, q sale = true → start ≤ sale.seenAt) :
    (SoldIndex.sortedSales (soldHistory db config)).filter q
      = ((SoldIndex.sortedSales (since start (soldHistory db config))).filter q).filter
          (isFirst db config) := by
  have hfirst : (SoldIndex.sortedSales (soldHistory db config)).filter q
      = (SoldIndex.sortedSales (soldHistory db config)).filter fun sale =>
          isFirst db config sale && q sale := by
    refine List.filter_congr fun sale hsale => ?_
    rw [isFirst, decide_eq_true (mem_sortedSales.mp hsale), Bool.true_and]
  rw [hfirst, List.filter_filter]
  refine filter_sortedSales_congr fun sale hsale => ?_
  rw [Bool.and_eq_true, isFirst, decide_eq_true_eq] at hsale
  exact iff_of_true hsale.1 (first_since_iff.mpr (.inl ⟨hsale.1, hq sale hsale.2⟩))

/-- The two comparisons are one exactly if no sale seen again enters the run's. -/
theorem compared_eq_iff {start : Int} {q : FeedSale F → Bool}
    (hq : ∀ sale, q sale = true → start ≤ sale.seenAt) :
    ((SoldIndex.sortedSales (soldHistory db config)).filter q).map FeedSale.priceCents
        = ((SoldIndex.sortedSales (since start (soldHistory db config))).filter q).map
            FeedSale.priceCents
      ↔ ∀ sale, SeenAgain db config start sale → q sale = false := by
  rw [filter_sortedSales_since hq]
  constructor
  · intro heq sale hagain
    have hlength := congrArg List.length heq
    rw [List.length_map, List.length_map, List.length_filter_eq_length_iff] at hlength
    by_contra hin
    have hmem : sale ∈ (SoldIndex.sortedSales (since start (soldHistory db config))).filter q :=
      List.mem_filter.mpr ⟨mem_sortedSales.mpr hagain.1, Bool.eq_true_of_not_eq_false hin⟩
    exact hagain.not_first (of_decide_eq_true (hlength sale hmem))
  · intro hnone
    rw [List.filter_eq_self.mpr]
    intro sale hsale
    obtain ⟨hmem, hin⟩ := List.mem_filter.mp hsale
    rcases first_since_iff.mp (mem_sortedSales.mp hmem) with ⟨hfirst, -⟩ | hagain
    · exact decide_eq_true hfirst
    · rw [hnone sale hagain] at hin
      cases hin

/-- In the feed's mode the listing's own sale is the same exactly if it is not seen again while
the label looks for it. -/
theorem soldWithin_since_iff {start : Int} {listing : FeedSale F}
    (hmode : config.ownSaleByItem = false) (hstart : start ≤ listing.seenAt) :
    soldWithin config listing.seenAt
        (ownSale round10 config listing (.build round10 (soldHistory db config)))
        = soldWithin config listing.seenAt
          (ownSale round10 config listing (.build round10 (since start (soldHistory db config))))
      ↔ ∀ sale, SeenAgain db config start sale → sale.listingId = listing.listingId →
          SoldIndex.inWindow listing.seenAt (labelAvailableAt config listing) sale = false := by
  rw [soldWithin_of_feed hmode, soldWithin_of_feed hmode, ownSale, ownSale,
    if_neg (by simp [hmode]), if_neg (by simp [hmode])]
  dsimp only [SoldIndex.build]
  -- the first sighting counts only from the listing on, where the run sees it too
  have hwhole : ∀ first, (firstSightingPerListing (soldHistory db config)).get? listing.listingId
        = some first →
      (firstSightingPerListing (since start (soldHistory db config))).get? listing.listingId
        ≠ some first →
      SoldIndex.inWindow listing.seenAt (labelAvailableAt config listing) first = false := by
    intro first hfirst hnot
    by_contra hin
    rw [Bool.not_eq_false, SoldIndex.inWindow, Bool.and_eq_true, decide_eq_true_eq] at hin
    exact hnot (get?_firstPerKey_filter_of_pos hfirst (by simpa using hstart.trans hin.1))
  cases hsince : (firstSightingPerListing (since start (soldHistory db config))).get?
      listing.listingId with
  | none =>
      refine iff_of_true ?_ fun sale hagain hid => ?_
      · cases hfirst : (firstSightingPerListing (soldHistory db config)).get? listing.listingId with
        | none => rfl
        | some first =>
            rw [Option.filter_some, hwhole first hfirst (by simp [hsince])]
            rfl
      · rw [← hid, hagain.1] at hsince
        cases hsince
  | some sale =>
      have hid : sale.listingId = listing.listingId := (key_of_get?_firstPerKey hsince).2
      rcases first_since_iff.mp (by rw [hid]; exact hsince) with ⟨hfirst, -⟩ | hagain
      · rw [hid] at hfirst
        refine iff_of_true (by rw [hfirst]) fun other hother hsame => ?_
        have hboth := hother.1
        rw [hsame, hsince] at hboth
        cases hboth
        exact absurd (by rw [hid]; exact hfirst) hother.not_first
      · have hnone : ((firstSightingPerListing (soldHistory db config)).get?
            listing.listingId).filter
              (SoldIndex.inWindow listing.seenAt (labelAvailableAt config listing)) = none := by
          cases hfirst : (firstSightingPerListing (soldHistory db config)).get?
              listing.listingId with
          | none => rfl
          | some first =>
              rw [Option.filter_some, hwhole first hfirst fun hsame => ?_]
              · rfl
              · rw [hsince] at hsame
                cases hsame
                exact hagain.not_first (by rw [hid]; exact hfirst)
        rw [hnone, Option.filter_some]
        constructor
        · intro heq other hother hsame
          have hboth := hother.1
          rw [hsame, hsince] at hboth
          cases hboth
          by_contra hin
          rw [Bool.not_eq_false] at hin
          rw [if_pos hin] at heq
          cases heq
        · intro hall
          rw [if_neg (by simp [hall sale hagain hid])]

/-- In the feed's mode: the label over the sales from `start` on is the whole one exactly if no
sale is seen again where it looks. -/
theorem feedSalesKept_iff {start : Int} {listing : FeedSale F}
    (hmode : config.ownSaleByItem = false) (hstart : start ≤ listing.seenAt) :
    FeedSalesKept db config start listing ↔
      comparableSales round10 config listing (.build round10 (soldHistory db config))
          = comparableSales round10 config listing
            (.build round10 (since start (soldHistory db config))) ∧
        soldWithin config listing.seenAt
            (ownSale round10 config listing (.build round10 (soldHistory db config)))
          = soldWithin config listing.seenAt
            (ownSale round10 config listing
              (.build round10 (since start (soldHistory db config)))) := by
  rw [soldWithin_since_iff hmode hstart, comparableSales_build, comparableSales_build,
    ownSaleId_of_feed hmode, ownSaleId_of_feed hmode,
    compared_eq_iff fun sale => start_le_of_compared hstart]
  constructor
  · intro h
    refine ⟨fun sale hagain => ?_, h.own⟩
    by_contra hin
    simp only [Bool.not_eq_false, comparedWith, Bool.and_eq_true, decide_eq_true_eq] at hin
    obtain ⟨⟨hid, hwindow⟩, hname⟩ := hin
    rw [h.comparable sale hagain hid hname] at hwindow
    cases hwindow
  · rintro ⟨hcomparable, hown⟩
    refine ⟨fun sale hagain hid hname => ?_, hown⟩
    have hout := hcomparable sale hagain
    rwa [comparedWith, decide_eq_true hid, decide_eq_true hname, Bool.true_and, Bool.and_true]
      at hout

/-- In the feed's mode the whole comparison is part of the run's. -/
theorem comparableSales_sublist {start : Int} {listing : FeedSale F}
    (hmode : config.ownSaleByItem = false) (hstart : start ≤ listing.seenAt) :
    (comparableSales round10 config listing (.build round10 (soldHistory db config))).Sublist
      (comparableSales round10 config listing
        (.build round10 (since start (soldHistory db config)))) := by
  rw [comparableSales_build, comparableSales_build, ownSaleId_of_feed hmode,
    ownSaleId_of_feed hmode, filter_sortedSales_since fun sale => start_le_of_compared hstart]
  exact List.filter_sublist.map _

end

/-! ## Own sales by item -/

theorem find?_filter_of_pos {α : Type} {p r : α → Bool} {l : List α} {a : α}
    (h : l.find? p = some a) (hr : r a = true) : (l.filter r).find? p = some a := by
  induction l with
  | nil => cases h
  | cons b rest ih =>
      rw [List.find?_cons] at h
      by_cases hp : p b = true
      · rw [hp] at h
        cases h
        rw [List.filter_cons_of_pos hr, List.find?_cons_of_pos hp]
      · rw [Bool.eq_false_of_not_eq_true hp] at h
        by_cases hrb : r b = true
        · rw [List.filter_cons_of_pos hrb, List.find?_cons_of_neg hp, ih h]
        · rw [List.filter_cons_of_neg hrb, ih h]

theorem wholeSeconds_clipped_eq_zero_iff {delta : Int} :
    max 0 (wholeSeconds delta) = 0 ↔ delta < 1000000 := by
  rw [wholeSeconds]
  rcases Int.le_total 0 delta with hpos | hneg
  · rw [Int.tdiv_eq_ediv_of_nonneg hpos]
    omega
  · have hle : delta.tdiv 1000000 = -(-delta / 1000000) := by
      rw [← Int.tdiv_eq_ediv_of_nonneg (by omega), Int.neg_tdiv, Int.neg_neg]
    omega

section
variable {round10 : F → F} {db : LabelDatabase F} {config : LabelConfig}

theorem ownSale_of_item (hmode : config.ownSaleByItem = true) (listing : FeedSale F)
    (sales : List (FeedSale F)) : ownSale round10 config listing (.build round10 sales)
      = SoldIndex.ownIfFirst listing (firstItemSale round10 config sales listing) := by
  rw [ownSale, if_pos hmode, SoldIndex.itemSale_build, firstItemSale]
  cases itemKey round10 listing with
  | none => rfl
  | some key => rfl

/-- Sales with IDs of their own are not seen again. -/
theorem not_seenAgain (hmode : config.ownSaleByItem = true) {start : Int} {sale : FeedSale F} :
    ¬ SeenAgain db config start sale := by
  intro h
  have hhistory : soldHistory db config = db.offerSales config.venue := by
    rw [soldHistory, config.venueSalesOnly (.inr hmode)]
  have hids : ((soldHistory db config).map FeedSale.listingId).Nodup := by
    rw [hhistory]
    exact nodup_offerSales db config.venue
  refine h.not_first ((get?_firstPerKey_of_nodup hids).mpr ?_)
  exact List.mem_of_mem_filter (key_of_get?_firstPerKey h.1).1

theorem sortedSales_since (hmode : config.ownSaleByItem = true) (start : Int) :
    SoldIndex.sortedSales (since start (soldHistory db config))
      = since start (SoldIndex.sortedSales (soldHistory db config)) := by
  have hall : SoldIndex.sortedSales (since start (soldHistory db config))
      = (SoldIndex.sortedSales (since start (soldHistory db config))).filter
          fun sale => start ≤ sale.seenAt := by
    refine (List.filter_eq_self.mpr fun sale hsale => ?_).symm
    exact decide_eq_true (seenAt_of_since (mem_sortedSales.mp hsale))
  rw [hall]
  refine filter_sortedSales_congr fun sale hsale => ?_
  rw [first_since_iff]
  constructor
  · rintro (⟨hfirst, -⟩ | hagain)
    · exact hfirst
    · exact absurd hagain (not_seenAgain hmode)
  · intro hfirst
    exact .inl ⟨hfirst, of_decide_eq_true hsale⟩

theorem firstItemSale_since (hmode : config.ownSaleByItem = true) (start : Int)
    (listing : FeedSale F) :
    firstItemSale round10 config (since start (soldHistory db config)) listing
      = (itemKey round10 listing).bind fun key =>
          (((SoldIndex.sortedSales (soldHistory db config)).filter fun sale =>
            itemKey round10 sale = some key).filter fun sale => start ≤ sale.seenAt).find?
              (SoldIndex.inWindow (listing.seenAt - seconds ownSaleClockSkewSeconds)
                (labelAvailableAt config listing)) := by
  rw [firstItemSale, sortedSales_since hmode]
  congr 1
  funext key
  rw [since, List.filter_filter, List.filter_filter]
  congr 2
  funext sale
  exact Bool.and_comm _ _

theorem head?_itemSales (listing : FeedSale F) : (itemSales round10 db config listing).head?
    = firstItemSale round10 config (soldHistory db config) listing := by
  rw [itemSales, firstItemSale]
  cases itemKey round10 listing with
  | none => rfl
  | some key => exact List.head?_filter

theorem find?_itemSales (hmode : config.ownSaleByItem = true) (start : Int) (listing : FeedSale F) :
    ((itemSales round10 db config listing).find? fun sale => start ≤ sale.seenAt)
      = firstItemSale round10 config (since start (soldHistory db config)) listing := by
  rw [itemSales, firstItemSale_since hmode]
  cases itemKey round10 listing with
  | none => rfl
  | some key =>
      dsimp only
      rw [Option.bind_some, ← List.head?_filter, ← List.head?_filter, List.filter_filter,
        List.filter_filter, List.filter_filter, List.filter_filter]
      congr 2
      funext sale
      rw [Bool.and_comm (decide (start ≤ sale.seenAt))]

/-- The first sale of the item, seen from `start` on, is the run's too. -/
theorem firstItemSale_since_of_late (hmode : config.ownSaleByItem = true) {start : Int}
    {listing : FeedSale F}
    (h : ∀ first, firstItemSale round10 config (soldHistory db config) listing = some first →
      start ≤ first.seenAt) :
    firstItemSale round10 config (since start (soldHistory db config)) listing
      = firstItemSale round10 config (soldHistory db config) listing := by
  rw [firstItemSale_since hmode]
  rw [firstItemSale] at h ⊢
  cases hkey : itemKey round10 listing with
  | none => rfl
  | some key =>
      rw [hkey] at h
      simp only [Option.bind_some] at h ⊢
      cases hfind : ((SoldIndex.sortedSales (soldHistory db config)).filter fun sale =>
          itemKey round10 sale = some key).find?
            (SoldIndex.inWindow (listing.seenAt - seconds ownSaleClockSkewSeconds)
              (labelAvailableAt config listing)) with
      | none =>
          rw [List.find?_eq_none] at hfind ⊢
          exact fun sale hsale => hfind sale (List.mem_of_mem_filter hsale)
      | some first =>
          exact find?_filter_of_pos hfind (by simpa using h first hfind)

omit [DecidableEq F] in
theorem ownIfFirst_eq_some {listing own : FeedSale F} {first : Option (FeedSale F)}
    (h : SoldIndex.ownIfFirst listing first = some own) :
    first = some own ∧ own.priceCents = listing.priceCents := by
  cases first with
  | none => cases h
  | some sale =>
      simp only [SoldIndex.ownIfFirst] at h
      split at h
      · cases h
      · split at h
        · rename_i hprice
          cases h
          exact ⟨rfl, hprice⟩
        · cases h

omit [DecidableEq F] in
/-- A sale is taken for the listing's own exactly if it is the item's first and could be it. -/
theorem ownIfFirst_eq_some_iff {listing own : FeedSale F} {first : Option (FeedSale F)} :
    SoldIndex.ownIfFirst listing first = some own ↔ first = some own ∧ CouldBeOwn listing own := by
  cases first with
  | none => exact iff_of_false (fun h => by cases h) fun h => by cases h.1
  | some sale =>
      have hnext : SoldIndex.ofNextListing sale listing.nextListedAt = false ↔
          ∀ t, listing.nextListedAt = some t → sale.seenAt < t := by
        cases listing.nextListedAt with
        | none => simp [SoldIndex.ofNextListing]
        | some t => simp [SoldIndex.ofNextListing]
      rw [SoldIndex.ownIfFirst, CouldBeOwn]
      constructor
      · intro h
        split at h
        · cases h
        · rename_i hbefore
          split at h
          · rename_i hprice
            cases h
            exact ⟨rfl, hprice, hnext.mp (Bool.eq_false_iff.mpr hbefore)⟩
          · cases h
      · rintro ⟨hsale, hprice, hbefore⟩
        cases hsale
        rw [hnext.mpr hbefore, if_neg Bool.false_ne_true, if_pos hprice]

theorem firstItemSale_spec {sales : List (FeedSale F)} {listing first : FeedSale F}
    (h : firstItemSale round10 config sales listing = some first) :
    (firstSightingPerListing sales).get? first.listingId = some first ∧
      first.marketHashName = listing.marketHashName := by
  rw [firstItemSale] at h
  obtain ⟨key, hkey, hfind⟩ := Option.bind_eq_some_iff.mp h
  obtain ⟨hmem, hitem⟩ := List.mem_filter.mp (List.mem_of_find?_eq_some hfind)
  refine ⟨mem_sortedSales.mp hmem, ?_⟩
  -- one item, so one name
  rw [itemKey, Option.map_eq_some_iff] at hkey
  obtain ⟨x, -, rfl⟩ := hkey
  have hitem := of_decide_eq_true hitem
  rw [itemKey, Option.map_eq_some_iff] at hitem
  obtain ⟨y, -, hy⟩ := hitem
  exact congrArg Prod.fst hy

/-- With own sales by item the run compares the listing with the sales of the whole history. -/
theorem comparableSales_since (hmode : config.ownSaleByItem = true) {start : Int}
    {listing : FeedSale F} (hstart : start ≤ listing.seenAt) :
    comparableSales round10 config listing (.build round10 (since start (soldHistory db config)))
      = ((SoldIndex.sortedSales (soldHistory db config)).filter (comparedWith config listing
          (((ownSale round10 config listing
            (.build round10 (since start (soldHistory db config)))).map FeedSale.listingId).getD
              listing.listingId))).map FeedSale.priceCents := by
  rw [comparableSales_build]
  exact ((compared_eq_iff fun sale => start_le_of_compared hstart).mpr
    fun sale hagain => absurd hagain (not_seenAgain hmode)).symm

/-- Leaving a sale of the resale window out of the comparison makes it shorter. -/
theorem compared_without_iff {listing own : FeedSale F} {other : String}
    (hfirst : (firstSightingPerListing (soldHistory db config)).get? own.listingId = some own)
    (hname : own.marketHashName = listing.marketHashName)
    (hother : ∀ sale ∈ SoldIndex.sortedSales (soldHistory db config),
      sale.listingId = other → inResaleWindow config listing sale = false) :
    ((SoldIndex.sortedSales (soldHistory db config)).filter
        (comparedWith config listing own.listingId)).Sublist
      ((SoldIndex.sortedSales (soldHistory db config)).filter (comparedWith config listing other)) ∧
    (((SoldIndex.sortedSales (soldHistory db config)).filter
          (comparedWith config listing other)).map FeedSale.priceCents
        = ((SoldIndex.sortedSales (soldHistory db config)).filter
          (comparedWith config listing own.listingId)).map FeedSale.priceCents
      ↔ inResaleWindow config listing own = false) := by
  have hwithout : (SoldIndex.sortedSales (soldHistory db config)).filter
        (comparedWith config listing own.listingId)
      = ((SoldIndex.sortedSales (soldHistory db config)).filter
          (comparedWith config listing other)).filter
            fun sale => sale.listingId ≠ own.listingId := by
    rw [List.filter_filter]
    refine List.filter_congr fun sale hsale => ?_
    rw [comparedWith, comparedWith]
    by_cases hid : sale.listingId = other
    · rw [hother sale hsale hid]
      simp
    · rw [decide_eq_true (show sale.listingId ≠ other from hid), Bool.true_and, Bool.and_assoc]
  rw [hwithout]
  refine ⟨List.filter_sublist, ?_⟩
  constructor
  · intro heq
    have hlength := congrArg List.length heq
    rw [List.length_map, List.length_map, eq_comm, List.length_filter_eq_length_iff] at hlength
    by_contra hin
    rw [Bool.not_eq_false] at hin
    have hown : own ∈ SoldIndex.sortedSales (soldHistory db config) := mem_sortedSales.mpr hfirst
    have hmem : own ∈ (SoldIndex.sortedSales (soldHistory db config)).filter
        (comparedWith config listing other) := by
      refine List.mem_filter.mpr ⟨hown, ?_⟩
      have hid : own.listingId ≠ other := by
        intro hid
        rw [hother own hown hid] at hin
        cases hin
      rw [comparedWith, decide_eq_true hid, hin, decide_eq_true hname]
      rfl
    exact of_decide_eq_true (hlength own hmem) rfl
  · intro hout
    congr 1
    refine (List.filter_eq_self.mpr fun sale hsale => ?_).symm
    obtain ⟨hmem, hin⟩ := List.mem_filter.mp hsale
    refine decide_eq_true fun hid => ?_
    have hsame := mem_sortedSales.mp hmem
    rw [hid, hfirst] at hsame
    cases hsame
    rw [comparedWith, hout] at hin
    simp at hin

/-- The comparison and the time to sell that the label of the whole history has. -/
def SameReading (round10 : F → F) (db : LabelDatabase F) (config : LabelConfig) (start : Int)
    (listing : FeedSale F) : Prop :=
  comparableSales round10 config listing (.build round10 (soldHistory db config))
      = comparableSales round10 config listing
        (.build round10 (since start (soldHistory db config))) ∧
    soldWithin config listing.seenAt
        (ownSale round10 config listing (.build round10 (soldHistory db config)))
      = soldWithin config listing.seenAt
        (ownSale round10 config listing (.build round10 (since start (soldHistory db config))))

/-- The item's first sale, seen from `start` on: nothing of the label is cut. -/
theorem sameReading_of_late (hmode : config.ownSaleByItem = true) {start : Int}
    {listing : FeedSale F} (hstart : start ≤ listing.seenAt)
    (hlate : ∀ first, firstItemSale round10 config (soldHistory db config) listing
        = some first → start ≤ first.seenAt) :
    SameReading round10 db config start listing := by
  have hown : ownSale round10 config listing (.build round10 (since start (soldHistory db config)))
      = ownSale round10 config listing (.build round10 (soldHistory db config)) := by
    rw [ownSale_of_item hmode, ownSale_of_item hmode, firstItemSale_since_of_late hmode hlate]
  refine ⟨?_, by rw [hown]⟩
  rw [comparableSales_since hmode hstart, hown, comparableSales_build]

/-- What the label of the whole history makes of an item's first sale before `start`: it is the
listing's own exactly at the listing's price, and counts as a sale at once. -/
theorem ownSale_of_early (hmode : config.ownSaleByItem = true) {start : Int}
    {listing first : FeedSale F} (hstart : start ≤ listing.seenAt)
    (hnext : ∀ t, listing.nextListedAt = some t → listing.seenAt < t)
    (hfirst : firstItemSale round10 config (soldHistory db config) listing = some first)
    (hearly : first.seenAt < start) :
    ownSale round10 config listing (.build round10 (soldHistory db config))
      = if first.priceCents = listing.priceCents then some first else none := by
  have hbefore : first.seenAt ≤ listing.seenAt := by omega
  rw [ownSale_of_item hmode, hfirst, SoldIndex.ownIfFirst,
    if_neg (by simp [SoldIndex.ofNextListing_of_later hbefore hnext])]

omit [DecidableEq F] in
theorem soldWithin_of_item (hmode : config.ownSaleByItem = true) (listedAt : Int)
    (own : Option (FeedSale F)) : soldWithin config listedAt own
      = own.map fun sale => max 0 (wholeSeconds (sale.seenAt - listedAt)) := by
  cases own with
  | none => rfl
  | some sale => rw [soldWithin, if_pos hmode, Option.map_some]

omit [DecidableEq F] in
theorem inResaleWindow_of_early {listing sale : FeedSale F} (h : sale.seenAt < listing.seenAt) :
    inResaleWindow config listing sale = false := by
  have hhold : 0 ≤ seconds config.fees.holdSeconds := by
    have := config.fees.holdNonneg
    unfold seconds
    omega
  have hbefore : ¬ listing.seenAt + seconds config.fees.holdSeconds ≤ sale.seenAt := by omega
  rw [inResaleWindow, SoldIndex.inWindow, decide_eq_false hbefore, Bool.false_and]

/-- An item's first sale before `start`, at the listing's price: the label is the same exactly
if a sale from `start` on takes its place. -/
theorem sameReading_of_early (hmode : config.ownSaleByItem = true) {start : Int}
    {listing first : FeedSale F} (hstart : start ≤ listing.seenAt)
    (hnext : ∀ t, listing.nextListedAt = some t → listing.seenAt < t)
    (hfirst : firstItemSale round10 config (soldHistory db config) listing = some first)
    (hearly : first.seenAt < start)
    (hprice : first.priceCents = listing.priceCents) {own : FeedSale F}
    (hown : SoldIndex.ownIfFirst listing
      (firstItemSale round10 config (since start (soldHistory db config)) listing) = some own) :
    (comparableSales round10 config listing
        (.build round10 (since start (soldHistory db config)))).Sublist
      (comparableSales round10 config listing (.build round10 (soldHistory db config))) ∧
    (SameReading round10 db config start listing ↔
      own.seenAt < listing.seenAt + seconds 1 ∧ inResaleWindow config listing own = false) := by
  have hwhole := ownSale_of_early hmode hstart hnext hfirst hearly
  rw [if_pos hprice] at hwhole
  have hrun := @ownSale_of_item F _ round10 config hmode listing (since start (soldHistory db config))
  rw [hown] at hrun
  obtain ⟨hownFirst, hname⟩ := firstItemSale_spec (ownIfFirst_eq_some hown).1
  have hownWhole : (firstSightingPerListing (soldHistory db config)).get? own.listingId
      = some own := by
    rcases first_since_iff.mp hownFirst with ⟨h, -⟩ | hagain
    · exact h
    · exact absurd hagain (not_seenAgain hmode)
  -- the early sale is before the resale window, so leaving it out changes nothing
  have hother : ∀ sale ∈ SoldIndex.sortedSales (soldHistory db config),
      sale.listingId = first.listingId → inResaleWindow config listing sale = false := by
    intro sale hsale hid
    have hsame := mem_sortedSales.mp hsale
    rw [hid, (firstItemSale_spec hfirst).1] at hsame
    cases hsame
    exact inResaleWindow_of_early (by omega)
  obtain ⟨hsub, hiff⟩ := compared_without_iff hownWhole hname hother
  have hcomparable : comparableSales round10 config listing
        (.build round10 (since start (soldHistory db config)))
      = ((SoldIndex.sortedSales (soldHistory db config)).filter
          (comparedWith config listing own.listingId)).map FeedSale.priceCents := by
    rw [comparableSales_since hmode hstart, hrun]
    rfl
  have hcomparableWhole : comparableSales round10 config listing
        (.build round10 (soldHistory db config))
      = ((SoldIndex.sortedSales (soldHistory db config)).filter
          (comparedWith config listing first.listingId)).map FeedSale.priceCents := by
    rw [comparableSales_build, hwhole]
    rfl
  rw [SameReading, hcomparable, hcomparableWhole]
  refine ⟨hsub.map _, ?_⟩
  rw [hiff, hwhole, hrun, soldWithin_of_item hmode, soldWithin_of_item hmode, Option.map_some,
    Option.map_some, wholeSeconds_clipped_eq_zero_iff.mpr (by omega), Option.some.injEq]
  have hatOnce : 0 = max 0 (wholeSeconds (own.seenAt - listing.seenAt))
      ↔ own.seenAt < listing.seenAt + seconds 1 := by
    rw [eq_comm, wholeSeconds_clipped_eq_zero_iff, seconds]
    omega
  rw [hatOnce]
  exact and_comm

/-- The item's first sale, before `start`: the label is the same exactly if it is so without that
sale. -/
theorem sameReading_iff_sameWithout (hmode : config.ownSaleByItem = true) {start : Int}
    {listing first : FeedSale F} (hstart : start ≤ listing.seenAt)
    (hnext : ∀ t, listing.nextListedAt = some t → listing.seenAt < t)
    (hfirst : firstItemSale round10 config (soldHistory db config) listing = some first)
    (hearly : first.seenAt < start) :
    (soldWithin config listing.seenAt
          (ownSale round10 config listing (.build round10 (soldHistory db config)))
        = soldWithin config listing.seenAt
          (ownSale round10 config listing (.build round10 (since start (soldHistory db config)))) →
      (comparableSales round10 config listing
          (.build round10 (since start (soldHistory db config)))).Sublist
        (comparableSales round10 config listing (.build round10 (soldHistory db config)))) ∧
    (SameReading round10 db config start listing ↔
      SameWithout config listing first
        (firstItemSale round10 config (since start (soldHistory db config)) listing)) := by
  have hwhole := ownSale_of_early hmode hstart hnext hfirst hearly
  have hrun := @ownSale_of_item F _ round10 config hmode listing (since start (soldHistory db config))
  rw [SameWithout]
  cases hown : SoldIndex.ownIfFirst listing
      (firstItemSale round10 config (since start (soldHistory db config)) listing) with
  | none =>
      have hnot : ∀ sale, firstItemSale round10 config (since start (soldHistory db config)) listing
          = some sale → ¬ CouldBeOwn listing sale := by
        intro sale hsale hcould
        rw [ownIfFirst_eq_some_iff.mpr ⟨hsale, hcould⟩] at hown
        cases hown
      by_cases hprice : first.priceCents = listing.priceCents
      · have hdiffer : ¬ soldWithin config listing.seenAt
              (ownSale round10 config listing (.build round10 (soldHistory db config)))
            = soldWithin config listing.seenAt (ownSale round10 config listing
                (.build round10 (since start (soldHistory db config)))) := by
          rw [hwhole, hrun, hown, if_pos hprice, soldWithin_of_item hmode, soldWithin_of_item hmode]
          nofun
        rw [if_pos hprice]
        refine ⟨fun h => absurd h hdiffer, iff_of_false (fun h => hdiffer h.2) ?_⟩
        rintro ⟨sale, hsale, hcould, -⟩
        exact hnot sale hsale hcould
      · have hsame : SameReading round10 db config start listing := by
          rw [SameReading, comparableSales_build, comparableSales_since hmode hstart, hwhole, hrun,
            hown, if_neg hprice]
          exact ⟨rfl, rfl⟩
        rw [if_neg hprice]
        exact ⟨fun _ => hsame.1 ▸ List.Sublist.refl _, iff_of_true hsame hnot⟩
  | some own =>
      obtain ⟨hfound, hcould⟩ := ownIfFirst_eq_some_iff.mp hown
      by_cases hprice : first.priceCents = listing.priceCents
      · obtain ⟨hpart, hiff⟩ := sameReading_of_early hmode hstart hnext hfirst hearly hprice hown
        rw [if_pos hprice]
        refine ⟨fun _ => hpart, hiff.trans ?_⟩
        constructor
        · intro h
          exact ⟨own, hfound, hcould, h⟩
        · rintro ⟨sale, hsale, -, h⟩
          rw [hfound] at hsale
          cases hsale
          exact h
      · have hdiffer : ¬ soldWithin config listing.seenAt
              (ownSale round10 config listing (.build round10 (soldHistory db config)))
            = soldWithin config listing.seenAt (ownSale round10 config listing
                (.build round10 (since start (soldHistory db config)))) := by
          rw [hwhole, hrun, hown, if_neg hprice, soldWithin_of_item hmode, soldWithin_of_item hmode]
          nofun
        rw [if_neg hprice]
        exact ⟨fun h => absurd h hdiffer,
          iff_of_false (fun h => hdiffer h.2) fun h => h own hfound hcould⟩

/-- With own sales by item: the label over the sales from `start` on is the whole one exactly if
the item's first sale is kept. -/
theorem itemSaleKept_iff (hmode : config.ownSaleByItem = true) {start : Int}
    {listing : FeedSale F} (hstart : start ≤ listing.seenAt)
    (hnext : ∀ t, listing.nextListedAt = some t → listing.seenAt < t) :
    (soldWithin config listing.seenAt
          (ownSale round10 config listing (.build round10 (soldHistory db config)))
        = soldWithin config listing.seenAt
          (ownSale round10 config listing (.build round10 (since start (soldHistory db config)))) →
      (comparableSales round10 config listing
          (.build round10 (since start (soldHistory db config)))).Sublist
        (comparableSales round10 config listing (.build round10 (soldHistory db config)))) ∧
    (ItemSaleKept round10 db config start listing ↔
      SameReading round10 db config start listing) := by
  rw [ItemSaleKept, head?_itemSales, find?_itemSales hmode]
  by_cases hlate : ∀ first, firstItemSale round10 config (soldHistory db config) listing
      = some first → start ≤ first.seenAt
  · have hsame := sameReading_of_late hmode hstart hlate
    refine ⟨fun _ => hsame.1 ▸ List.Sublist.refl _, iff_of_true (fun first hfirst hearly => ?_) hsame⟩
    exact absurd (hlate first hfirst) (Int.not_le.mpr hearly)
  · push Not at hlate
    obtain ⟨first, hfirst, hearly⟩ := hlate
    obtain ⟨hpart, hiff⟩ := sameReading_iff_sameWithout hmode hstart hnext hfirst hearly
    refine ⟨hpart, ?_⟩
    rw [hiff]
    constructor
    · intro h
      exact h first hfirst hearly
    · intro h other hother _
      rw [hfirst] at hother
      cases hother
      exact h

end

end BrandSniper.Labels
