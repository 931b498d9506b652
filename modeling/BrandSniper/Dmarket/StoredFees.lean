import BrandSniper.Analytics.LabelRanges
import BrandSniper.Shared.ItemClassifier
import BrandSniper.Shared.Margins

/-!
# Stored DMarket fees

DMarket's seller fee depends on the title, and a reduced fee holds up to a
price cap. `FeeSchedule.fee_bps` of `shared_utils/dmarket.py` asks for the price.
A baseline build asks it once, at the item's latest price
(`with_dmarket_fees` of `apps/analytics/build_baselines.py`), and a label
charges what the build stored, whatever the price of the resale.

With a cap between the two prices the stored fee is that of the other side. The
label's margin is above the schedule's exactly then, if the fees differ by a
cent (`neverOverstates_iff`).
-/

namespace BrandSniper.Labels

open Kit LabelDatabase

/-! ## The schedule -/

/-- A title's reduced seller fee, up to a maximum price. -/
structure ReducedFee where
  feeBps : Int
  maxPriceCents : Option Int

/-- The default fee, and the titles with a reduced one. -/
structure FeeSchedule where
  defaultFeeBps : Int
  reduced : OrderedDict String ReducedFee

/-- The price is above the cap of the reduced fee. -/
def ReducedFee.exceededBy (reduced : ReducedFee) (priceCents : Int) : Bool :=
  reduced.maxPriceCents.any fun cap => cap < priceCents

/-- The seller fee of `title` at `priceCents`. -/
def FeeSchedule.feeBps (fees : FeeSchedule) (title : String) (priceCents : Int) : Int :=
  match fees.reduced.get? title with
  | none => fees.defaultFeeBps
  | some reduced =>
      if reduced.exceededBy priceCents then fees.defaultFeeBps else reduced.feeBps

/-! ## Builds -/

/-- The fields of a baseline that its fee depends on, and the fee. -/
structure ItemBaseline where
  marketHashName : String
  latestPriceCents : Int
  sellerFeeBps : Option Int

def ItemBaseline.withSellerFee (baseline : ItemBaseline) (sellerFeeBps : Option Int) :
    ItemBaseline :=
  { baseline with sellerFeeBps := sellerFeeBps }

/-- `parse_version_from_name(market_hash_name)[0]` -/
def titleOf (marketHashName : String) : String :=
  String.ofList (ItemClassifier.parseVersionFromName marketHashName.toList).1

/-- Each baseline with its item's fee at the baseline's latest price. -/
def withDmarketFees (baselines : List ItemBaseline) (fees : FeeSchedule) : List ItemBaseline :=
  baselines.map fun baseline =>
    baseline.withSellerFee
      (some (fees.feeBps (titleOf baseline.marketHashName) baseline.latestPriceCents))

/-- A stored DMarket build. `market_hash_name` is part of the primary key of its baselines. -/
structure DmarketBuild where
  builtAt : Int
  fees : FeeSchedule
  baselines : List ItemBaseline
  nodupNames : (baselines.map ItemBaseline.marketHashName).Nodup

namespace DmarketBuild

/-- The rows of `venue_baselines` that have a fee. -/
def storedFees (build : DmarketBuild) : List (String × Int) :=
  (withDmarketFees build.baselines build.fees).filterMap fun baseline =>
    baseline.sellerFeeBps.map fun feeBps => (baseline.marketHashName, feeBps)

def row (build : DmarketBuild) : BuildRow where
  venue := "dmarket"
  builtAt := build.builtAt
  sellerFees := OrderedDict.empty.setAll build.storedFees

theorem storedFees_eq (build : DmarketBuild) : build.storedFees = build.baselines.map fun baseline =>
    (baseline.marketHashName,
      build.fees.feeBps (titleOf baseline.marketHashName) baseline.latestPriceCents) := by
  rw [storedFees, withDmarketFees, List.filterMap_map, ← List.filterMap_eq_map]
  rfl

/-- What the build stores for an item. -/
theorem get?_sellerFees (build : DmarketBuild) {baseline : ItemBaseline}
    (h : baseline ∈ build.baselines) : build.row.sellerFees.get? baseline.marketHashName
      = some (build.fees.feeBps (titleOf baseline.marketHashName) baseline.latestPriceCents) := by
  have hkeys : (build.storedFees.map Prod.fst).Nodup := by
    rw [storedFees_eq, List.map_map]
    exact build.nodupNames
  have hmem : (baseline.marketHashName,
      build.fees.feeBps (titleOf baseline.marketHashName) baseline.latestPriceCents)
        ∈ build.storedFees := by
    rw [storedFees_eq]
    exact List.mem_map_of_mem h
  rw [row, OrderedDict.get?_setAll_of_nodup hkeys, (OrderedDict.getItem?_eq_some hkeys).mpr hmem,
    Option.some_or]

/-- The build is the newest one at the moment. -/
structure InForce (builds : List DmarketBuild) (build : DmarketBuild) (moment : Int) : Prop where
  le_moment : build.builtAt ≤ moment
  newest : ∃ before after, builds = before ++ build :: after ∧
    ∀ other ∈ before ++ after, other.builtAt ≤ moment → other.builtAt < build.builtAt

/-- The fees fetched for a label are those of the build in force. -/
theorem InForce.feeBps {builds : List DmarketBuild} {build : DmarketBuild} {moment : Int}
    (h : InForce builds build moment) {baseline : ItemBaseline}
    (hbaseline : baseline ∈ build.baselines) :
    (itemFeesOf (builds.map row)).feeBps baseline.marketHashName moment
      = some (build.fees.feeBps (titleOf baseline.marketHashName) baseline.latestPriceCents) := by
  obtain ⟨before, after, rfl, hnewest⟩ := h.newest
  have hat : newestUpTo ((before ++ build :: after).map row) moment = some build.builtAt := by
    refine newestUpTo_eq_some.mpr ⟨⟨?_, h.le_moment⟩, fun t ht hle => ?_⟩
    · rw [List.map_map]
      exact List.mem_map.mpr ⟨build, by simp, rfl⟩
    · rw [List.map_map] at ht
      obtain ⟨other, hother, rfl⟩ := List.mem_map.mp ht
      rcases List.mem_append.mp hother with hmem | hmem
      · exact (hnewest other (List.mem_append_left _ hmem) hle).le
      · rcases List.mem_cons.mp hmem with rfl | hmem
        · exact Int.le_refl _
        · exact (hnewest other (List.mem_append_right _ hmem) hle).le
  -- no other build has its time
  have hother : ∀ part : List DmarketBuild, (∀ other ∈ part, other ∈ before ++ after) →
      (part.map row).filter (fun other => other.builtAt = build.builtAt) = [] := by
    intro part hpart
    rw [List.filter_eq_nil_iff]
    intro other hmem heq
    obtain ⟨stored, hstored, rfl⟩ := List.mem_map.mp hmem
    have heq : stored.builtAt = build.builtAt := of_decide_eq_true heq
    have hlt := hnewest stored (hpart stored hstored) (heq ▸ h.le_moment)
    omega
  have hfees : feesAt ((before ++ build :: after).map row) build.builtAt
      = OrderedDict.empty.setAll build.row.sellerFees.items := by
    have hself : decide (build.row.builtAt = build.builtAt) = true := decide_eq_true rfl
    rw [feesAt, List.map_append, List.map_cons, List.filter_append,
      hother before fun _ hmem => List.mem_append_left _ hmem, List.filter_cons, if_pos hself,
      hother after fun _ hmem => List.mem_append_right _ hmem]
    rfl
  rw [feeBps_itemFeesOf, hat, Option.bind_some, hfees, OrderedDict.get?_setAll_items,
    build.get?_sellerFees hbaseline, Option.some_or]

end DmarketBuild

/-! ## What a label charges -/

/-- The price cap of the title lies between the two prices, and the fee that holds at the resale
price is a fee, and above the other one by a cent or more. -/
def Undercharges (fees : FeeSchedule) (title : String) (latestPriceCents resalePriceCents : Int) :
    Prop :=
  ∃ reduced cap, fees.reduced.get? title = some reduced ∧ reduced.maxPriceCents = some cap ∧
    ((latestPriceCents ≤ cap ∧ cap < resalePriceCents ∧
        (0 ≤ fees.defaultFeeBps ∧ fees.defaultFeeBps < basisPoints) ∧
        feeRoundedUpCents resalePriceCents reduced.feeBps
          < feeRoundedUpCents resalePriceCents fees.defaultFeeBps) ∨
      (resalePriceCents ≤ cap ∧ cap < latestPriceCents ∧
        (0 ≤ reduced.feeBps ∧ reduced.feeBps < basisPoints) ∧
        feeRoundedUpCents resalePriceCents fees.defaultFeeBps
          < feeRoundedUpCents resalePriceCents reduced.feeBps))

/-- The fees at two prices, compared at one of them. -/
theorem undercharges_iff {fees : FeeSchedule} {title : String} {latest resale : Int} :
    Undercharges fees title latest resale ↔
      (0 ≤ fees.feeBps title resale ∧ fees.feeBps title resale < basisPoints) ∧
        feeRoundedUpCents resale (fees.feeBps title latest)
          < feeRoundedUpCents resale (fees.feeBps title resale) := by
  unfold Undercharges FeeSchedule.feeBps ReducedFee.exceededBy
  cases fees.reduced.get? title with
  | none => simp
  | some reduced =>
      obtain ⟨reducedBps, maxPrice⟩ := reduced
      cases maxPrice with
      | none => simp
      | some cap =>
          simp only [Option.some.injEq, Option.any_some, decide_eq_true_eq, exists_and_left,
            exists_eq_left']
          by_cases hlatest : cap < latest
          · have hle : ¬ latest ≤ cap := Int.not_le.mpr hlatest
            by_cases hresale : cap < resale
            · have hle' : ¬ resale ≤ cap := Int.not_le.mpr hresale
              simp [hlatest, hresale, hle, hle']
            · simp [hlatest, hresale, hle, Int.not_lt.mp hresale]
          · have hle : latest ≤ cap := Int.not_lt.mp hlatest
            by_cases hresale : cap < resale
            · have hle' : ¬ resale ≤ cap := Int.not_le.mpr hresale
              simp [hlatest, hresale, hle, hle']
            · simp [hlatest, hresale]

/-- The margin of a resale that pays an item fee. -/
theorem netResaleMarginCents_item {buy resale feeBps : Int} {fees : VenueFees} {margin : Int} :
    netResaleMarginCents buy resale fees (some fees) (some feeBps) = .ok margin ↔
      0 ≤ resale ∧ 0 ≤ buy ∧ (0 ≤ feeBps ∧ feeBps < basisPoints) ∧
        margin = resale - feeRoundedUpCents resale feeBps
          - (buy + feeRoundedUpCents buy fees.buyerFeeBps) := by
  unfold netResaleMarginCents sellerFeeCents buyerFeeCents
  by_cases hresale : resale < 0
  · simp [hresale, bind, Except.bind]
  · by_cases hfee : 0 ≤ feeBps ∧ feeBps < basisPoints
    · by_cases hbuy : buy < 0
      · simp [hresale, hbuy, hfee, bind, Except.bind]
      · simp only [if_neg hresale, if_neg hbuy, if_pos hfee, bind, Except.bind, pure, Except.pure,
          Except.ok.injEq]
        omega
    · simp [hresale, hfee, bind, Except.bind]

section
variable {F : Type} [DecidableEq F] {round10 : F → F}

/-- The margin a label reports is that of its own resale price and fee. -/
theorem margin_of_labelListing {listing : FeedSale F} {sold : SoldIndex F} {config : LabelConfig}
    {itemFees : ItemFees} {label : ListingOutcome} {resale margin : Int}
    (hitem : config.itemSellerFees = true)
    (hlabel : labelListing round10 listing sold config (some itemFees) = .ok label)
    (hresale : label.resalePriceCents = some resale)
    (hmargin : label.resaleNetMarginCents = some margin) :
    netResaleMarginCents listing.priceCents resale config.fees (some config.fees)
      (itemFees.feeBps listing.marketHashName listing.seenAt) = .ok margin := by
  unfold labelListing at hlabel
  rw [if_neg (by simp)] at hlabel
  cases hof : resaleOf config listing.priceCents (comparableSales round10 config listing sold)
      (itemFees.feeBps listing.marketHashName listing.seenAt) with
  | error e =>
      simp only [Option.bind_some, hof, bind, Except.bind] at hlabel
      cases hlabel
  | ok found =>
      simp only [Option.bind_some, hof, bind, Except.bind] at hlabel
      cases hlabel
      dsimp only at hresale hmargin
      unfold resaleOf at hof
      rw [if_pos hitem] at hof
      split at hof
      · cases hmedian : medianLow (comparableSales round10 config listing sold) with
        | error e =>
            simp only [hmedian, bind, Except.bind] at hof
            cases hof
        | ok price =>
            simp only [hmedian, bind, Except.bind] at hof
            split at hof
            · cases hof
            · rename_i net hnet
              cases hof
              cases hresale
              cases hmargin
              exact hnet
      · cases hof
        cases hresale

/-- Of every schedule, build, listing and sales: the margin a label reports is at most the margin
at the schedule's own fee exactly if the stored fee does not undercharge the resale. -/
theorem neverOverstates_iff {builds : List DmarketBuild} {build : DmarketBuild}
    {baseline : ItemBaseline} {listing : FeedSale F} {sold : SoldIndex F} {config : LabelConfig}
    {label : ListingOutcome} {resale margin : Int} (hitem : config.itemSellerFees = true)
    (hforce : DmarketBuild.InForce builds build listing.seenAt)
    (hbaseline : baseline ∈ build.baselines)
    (hname : baseline.marketHashName = listing.marketHashName)
    (hlabel : labelListing round10 listing sold config
      (some (itemFeesOf (builds.map DmarketBuild.row))) = .ok label)
    (hresale : label.resalePriceCents = some resale)
    (hmargin : label.resaleNetMarginCents = some margin) :
    (∀ due, netResaleMarginCents listing.priceCents resale config.fees (some config.fees)
        (some (build.fees.feeBps (titleOf listing.marketHashName) resale)) = .ok due →
          margin ≤ due) ↔
      ¬ Undercharges build.fees (titleOf listing.marketHashName) baseline.latestPriceCents
        resale := by
  have hcharged := margin_of_labelListing hitem hlabel hresale hmargin
  rw [← hname, hforce.feeBps hbaseline, hname] at hcharged
  obtain ⟨hnonneg, hbuy, -, hsum⟩ := netResaleMarginCents_item.mp hcharged
  rw [undercharges_iff, not_and, Int.not_lt]
  constructor
  · intro h hfee
    have hle := h _ (netResaleMarginCents_item.mpr ⟨hnonneg, hbuy, hfee, rfl⟩)
    omega
  · intro h due hdue
    obtain ⟨-, -, hfee, hdue⟩ := netResaleMarginCents_item.mp hdue
    have hle := h hfee
    omega

end

/-! ## A price across the cap -/

/-- Two percent up to ten dollars. -/
def redlineSchedule : FeeSchedule where
  defaultFeeBps := 1000
  reduced := OrderedDict.empty.set "AK-47 | Redline (Field-Tested)" ⟨200, some 1000⟩

theorem redline_nodupNames : ([⟨"AK-47 | Redline (Field-Tested)", 900, none⟩] :
    List ItemBaseline).map ItemBaseline.marketHashName |>.Nodup := by decide

/-- Built when the item sold for nine dollars. -/
def redlineBuild : DmarketBuild where
  builtAt := 0
  fees := redlineSchedule
  baselines := [⟨"AK-47 | Redline (Field-Tested)", 900, none⟩]
  nodupNames := redline_nodupNames

/-- A listing at seven dollars. -/
def redlineListing : FeedSale Nat :=
  ⟨"o-1", "AK-47 | Redline (Field-Tested)", 700, seconds 3600, some 21, some 412, none⟩

/-- Three sales in its resale window. -/
def redlineSales (priceCents : Int) : SoldIndex Nat :=
  .build id ([1, 2, 3].map fun day => ⟨"sale-" ++ toString day, "AK-47 | Redline (Field-Tested)",
    priceCents, seconds ((8 + day) * 86400), none, none, none⟩)

def redlineLabel (priceCents : Int) : Except PyError ListingOutcome :=
  labelListing id redlineListing (redlineSales priceCents) dmarketLabels
    (some (itemFeesOf ([redlineBuild].map DmarketBuild.row)))

theorem redlineBuild_inForce :
    DmarketBuild.InForce [redlineBuild] redlineBuild redlineListing.seenAt where
  le_moment := by decide
  newest := ⟨[], [], rfl, fun _ h => absurd h List.not_mem_nil⟩

/-- The resale price and the margin of a label. -/
def resaleAndMargin (label : Except PyError ListingOutcome) : Option (Option Int × Option Int) :=
  label.toOption.map fun outcome => (outcome.resalePriceCents, outcome.resaleNetMarginCents)

theorem exists_of_resaleAndMargin {label : Except PyError ListingOutcome}
    {prices : Option Int × Option Int} (h : resaleAndMargin label = some prices) :
    ∃ outcome, label = .ok outcome ∧ outcome.resalePriceCents = prices.1 ∧
      outcome.resaleNetMarginCents = prices.2 := by
  cases label with
  | error e => cases h
  | ok outcome =>
      cases h
      exact ⟨outcome, rfl, rfl, rfl⟩

/-- Below the cap the label charges what the schedule does. -/
theorem neverOverstates_iff_redline :
    ∃ due, netResaleMarginCents 700 950 dmarketLabels.fees (some dmarketLabels.fees)
      (some (redlineSchedule.feeBps (titleOf "AK-47 | Redline (Field-Tested)") 950)) = .ok due ∧
        231 ≤ due := by
  obtain ⟨label, hlabel, hresale, hmargin⟩ := exists_of_resaleAndMargin
    (show resaleAndMargin (redlineLabel 950) = some (some 950, some 231) by decide +kernel)
  have hdue : netResaleMarginCents 700 950 dmarketLabels.fees (some dmarketLabels.fees)
      (some (redlineSchedule.feeBps (titleOf "AK-47 | Redline (Field-Tested)") 950)) = .ok 231 :=
    netResaleMarginCents_item.mpr (by decide +kernel)
  refine ⟨231, hdue, (neverOverstates_iff rfl redlineBuild_inForce List.mem_cons_self rfl hlabel
    hresale hmargin).mpr (fun h => ?_) 231 hdue⟩
  rw [undercharges_iff] at h
  exact absurd h.2 (by decide +kernel)

/-- At fifteen dollars the stored fee is two percent and the schedule's ten. -/
theorem not_neverOverstates_redline : ∃ label due, redlineLabel 1500 = .ok label ∧
    label.resalePriceCents = some 1500 ∧ label.resaleNetMarginCents = some 770 ∧
    netResaleMarginCents 700 1500 dmarketLabels.fees (some dmarketLabels.fees)
      (some (redlineSchedule.feeBps (titleOf "AK-47 | Redline (Field-Tested)") 1500)) = .ok due ∧
    due = 650 := by
  obtain ⟨label, hlabel, hresale, hmargin⟩ := exists_of_resaleAndMargin
    (show resaleAndMargin (redlineLabel 1500) = some (some 1500, some 770) by decide +kernel)
  exact ⟨label, 650, hlabel, hresale, hmargin, netResaleMarginCents_item.mpr (by decide +kernel),
    rfl⟩

end BrandSniper.Labels
