import BrandSniper.Dmarket.StoredFees
import BrandSniper.Kit.Calendar
import BrandSniper.Kit.OrderedDict
import BrandSniper.Kit.Results
import BrandSniper.Shared.Baselines

/-!
# Building baselines

`load_daily_medians`, `build_baselines` and `save_build` of
`apps/analytics/build_baselines.py`, and `offer_sale_histories` and
`skinport_titles` of `apps/analytics/dmarket_sales.py`.

A build stores each item's median of the last 24 hours, and a later build of
the venue reads them back: an item's daily points are one median a day, of the
last build of that day. Times are microseconds. The order of rows a query
leaves open is any.
-/

namespace BrandSniper.Baselines

open Kit

/-! ## The tables -/

/-- A row of `baseline_builds` with its `venue_baselines`, whose names are part of their key. -/
structure StoredBuild where
  id : Nat
  venue : String
  method : String
  builtAt : Int
  itemCount : Nat
  rows : List ItemBaseline
  nodupNames : (rows.map ItemBaseline.marketHashName).Nodup

/-- The UTC day of a time. -/
def dayOf (time : Int) : Int := time / (microsPerDay : Int)

/-- `DAILY_MEDIAN_LOOKBACK_DAYS` -/
def dailyMedianLookback : Int := 30 * (microsPerDay : Int)

/-- `HISTORY_DAYS` -/
def salesLookback : Int := 90 * (microsPerDay : Int)

/-- A row of the query for daily medians. -/
structure MedianRow where
  builtAt : Int
  marketHashName : List Char
  medianCents : Int

/-- What `ORDER BY built_at` makes of the rows. -/
structure RowOrder where
  sort : List MedianRow → List MedianRow
  perm : ∀ rows, (sort rows).Perm rows
  pairwise : ∀ rows, (sort rows).Pairwise fun a b => a.builtAt ≤ b.builtAt

def medianRows (builds : List StoredBuild) (venue : String) (since : Int) : List MedianRow :=
  (builds.filter fun build => build.venue = venue ∧ since ≤ build.builtAt).flatMap fun build =>
    build.rows.filterMap fun row =>
      row.median24hCents.map fun median => ⟨build.builtAt, row.marketHashName, median⟩

/-- The medians of an item by day. -/
abbrev DailyMedians := OrderedDict Int Int

/-- `medians.get(name, {})` -/
def dailyOf (medians : OrderedDict (List Char) DailyMedians) (name : List Char) : DailyMedians :=
  (medians.get? name).getD .empty

/-- `medians.setdefault(name, {})[built_at.date()] = median_cents` -/
def addMedian (medians : OrderedDict (List Char) DailyMedians) (row : MedianRow) :
    OrderedDict (List Char) DailyMedians :=
  medians.set row.marketHashName
    ((dailyOf medians row.marketHashName).set (dayOf row.builtAt) row.medianCents)

/-- Each item's 24 hour median a day from the builds since; the last build of a day wins. -/
def loadDailyMedians (order : RowOrder) (builds : List StoredBuild) (venue : String) (since : Int) :
    OrderedDict (List Char) DailyMedians :=
  (order.sort (medianRows builds venue since)).foldl addMedian .empty

/-! ## The baselines of a build -/

/-- The median that counts as today's point. -/
def ownMedian (history : SalesHistory) : Option Int :=
  history.last24Hours.medianCents.filter fun _ => history.last24Hours.hasMedian 1

def dailyMedians (earlier : OrderedDict (List Char) DailyMedians) (today : Int)
    (history : SalesHistory) : DailyMedians :=
  let daily := dailyOf earlier history.marketHashName
  match ownMedian history with
  | some median => daily.set today median
  | none => daily

/-- `[daily[key] for key in sorted(daily)]` -/
def series (daily : DailyMedians) : List Int := (sorted daily.keys).filterMap daily.get?

def byName (a b : ItemBaseline) : Prop :=
  String.ofList a.marketHashName ≤ String.ofList b.marketHashName

instance : DecidableRel byName := fun _ _ => inferInstanceAs (Decidable (_ ≤ _))

/-- Baselines for every item with enough sales, sorted by name. -/
def buildBaselines (D : Doubles) (histories : List SalesHistory)
    (earlier : OrderedDict (List Char) DailyMedians) (today : Int) :
    Except ArithmeticError (List ItemBaseline) := do
  let baselines ← histories.mapM fun history =>
    buildItemBaseline D history (series (dailyMedians earlier today history))
  return (baselines.filterMap id).insertionSort byName

/-- The entries that name an item and are priced in USD. -/
def parseSalesHistory (D : Doubles) (entries : List SkinportEntry) :
    Except ArithmeticError (List SalesHistory) := do
  let histories ← entries.mapM (SalesHistory.fromSkinport D)
  return histories.filterMap id

/-- A baseline with its item's DMarket seller fee at the baseline's latest price. -/
def withDmarketFee (fees : Labels.FeeSchedule) (baseline : ItemBaseline) : ItemBaseline :=
  let title := (ItemClassifier.parseVersionFromName baseline.marketHashName).1
  baseline.withSellerFee (some (fees.feeBps (String.ofList title) baseline.latestPriceCents))

def withDmarketFees (fees : Labels.FeeSchedule) (baselines : List ItemBaseline) :
    List ItemBaseline :=
  baselines.map (withDmarketFee fees)

/-! ## DMarket's own sales -/

/-- A row of `venue_sales` with the `offer` type. -/
structure OfferSale where
  marketHashName : List Char
  soldAt : Int
  priceCents : Int

/-- What `ORDER BY market_hash_name` makes of the rows. -/
structure SaleOrder where
  sort : List OfferSale → List OfferSale
  perm : ∀ rows, (sort rows).Perm rows
  pairwise : ∀ rows, (sort rows).Pairwise fun a b =>
    String.ofList a.marketHashName ≤ String.ofList b.marketHashName

/-- The sales of one item after the other, and those of the current item so far. -/
def groupSales : Option (List Char × List (Int × Int)) → List OfferSale →
    List (List Char × List (Int × Int))
  | current, [] => current.toList
  | none, row :: rest => groupSales (some (row.marketHashName, [(row.soldAt, row.priceCents)])) rest
  | some (name, sales), row :: rest =>
      if row.marketHashName = name then
        groupSales (some (name, sales ++ [(row.soldAt, row.priceCents)])) rest
      else
        (name, sales) ::
          groupSales (some (row.marketHashName, [(row.soldAt, row.priceCents)])) rest

/-- The sales of the last `HISTORY_DAYS` days. -/
def recentSales (stored : List OfferSale) (now : Int) : List OfferSale :=
  stored.filter fun row => now - salesLookback < row.soldAt

/-- Each item's sales history from its stored sales. -/
def offerSaleHistories (D : Doubles) (order : SaleOrder) (stored : List OfferSale) (now : Int) :
    Except ArithmeticError (List SalesHistory) :=
  (groupSales none (order.sort (recentSales stored now))).mapM fun group =>
    SalesHistory.fromSales D group.1 group.2 now

/-- The newest Skinport build, by ID. -/
def newestSkinport (builds : List StoredBuild) : Option StoredBuild :=
  (builds.filter fun build => build.venue = "skinport").foldl
    (fun newest build => match newest with
      | some other => if other.id < build.id then some build else some other
      | none => some build) none

/-- How many DMarket titles the newest Skinport build has. -/
def skinportTitles (builds : List StoredBuild) : List (List Char) :=
  match newestSkinport builds with
  | some build =>
      (build.rows.map fun row => (ItemClassifier.parseVersionFromName row.marketHashName).1).dedup
  | none => []

/-! ## Daily medians -/

theorem get?_dailyOf_addMedian (medians : OrderedDict (List Char) DailyMedians) (row : MedianRow)
    (name : List Char) (day : Int) :
    (dailyOf (addMedian medians row) name).get? day
      = if row.marketHashName = name ∧ dayOf row.builtAt = day then some row.medianCents
        else (dailyOf medians name).get? day := by
  unfold addMedian
  by_cases hname : row.marketHashName = name
  · subst hname
    rw [dailyOf, OrderedDict.get?_set, if_pos rfl, Option.getD_some, OrderedDict.get?_set]
    by_cases hday : dayOf row.builtAt = day
    · rw [if_pos hday, if_pos ⟨rfl, hday⟩]
    · rw [if_neg hday, if_neg fun h => hday h.2]
  · rw [dailyOf, OrderedDict.get?_set, if_neg hname, if_neg fun h => hname h.1, dailyOf]

/-- A stored median that a build reads for a day: no later build of the day, among those since
then, has one of the item. -/
structure LastOfDay (builds : List StoredBuild) (venue : String) (since : Int) (name : List Char)
    (day median : Int) : Prop where
  found : ∃ row ∈ medianRows builds venue since, row.marketHashName = name ∧
    dayOf row.builtAt = day ∧ row.medianCents = median ∧
    ∀ other ∈ medianRows builds venue since, other.marketHashName = name →
      dayOf other.builtAt = day → other.builtAt ≤ row.builtAt

theorem get?_foldl_addMedian {rows : List MedianRow}
    (hsorted : rows.Pairwise fun a b => a.builtAt ≤ b.builtAt) (name : List Char) (day : Int) :
    (∀ median, (dailyOf (rows.foldl addMedian .empty) name).get? day = some median →
      ∃ row ∈ rows, row.marketHashName = name ∧ dayOf row.builtAt = day ∧
        row.medianCents = median ∧ ∀ other ∈ rows, other.marketHashName = name →
          dayOf other.builtAt = day → other.builtAt ≤ row.builtAt) ∧
    ((dailyOf (rows.foldl addMedian .empty) name).get? day = none →
      ∀ row ∈ rows, row.marketHashName = name → dayOf row.builtAt ≠ day) := by
  induction rows using List.reverseRecOn with
  | nil =>
      refine ⟨fun median hget => ?_, fun _ row hrow => absurd hrow List.not_mem_nil⟩
      rw [List.foldl_nil, dailyOf, OrderedDict.get?_empty, Option.getD_none,
        OrderedDict.get?_empty] at hget
      cases hget
  | append_singleton before last ih =>
      have hparts := List.pairwise_append.mp hsorted
      obtain ⟨hsome, hnone⟩ := ih hparts.1
      have hlast : ∀ row ∈ before, row.builtAt ≤ last.builtAt := fun row hrow =>
        hparts.2.2 row hrow last (List.mem_singleton_self _)
      rw [List.foldl_concat, get?_dailyOf_addMedian]
      by_cases hkey : last.marketHashName = name ∧ dayOf last.builtAt = day
      · rw [if_pos hkey]
        refine ⟨fun median hget => ?_, fun hget => by cases hget⟩
        refine ⟨last, List.mem_append_right _ (List.mem_singleton_self _), hkey.1, hkey.2,
          Option.some.inj hget, fun other hother _ _ => ?_⟩
        rcases List.mem_append.mp hother with hother | hother
        · exact hlast other hother
        · rw [List.mem_singleton.mp hother]
      · rw [if_neg hkey]
        refine ⟨fun median hget => ?_, fun hget row hrow hname hday => ?_⟩
        · obtain ⟨row, hrow, hname, hday, hmedian, hmax⟩ := hsome median hget
          refine ⟨row, List.mem_append_left _ hrow, hname, hday, hmedian,
            fun other hother hother' hday' => ?_⟩
          rcases List.mem_append.mp hother with hother | hother
          · exact hmax other hother hother' hday'
          · rw [List.mem_singleton.mp hother] at hother' hday'
            exact absurd ⟨hother', hday'⟩ hkey
        · rcases List.mem_append.mp hrow with hrow | hrow
          · exact hnone hget row hrow hname hday
          · rw [List.mem_singleton.mp hrow] at hname hday
            exact hkey ⟨hname, hday⟩

/-- The days a build reads for an item are those of the stored medians, each with the last. -/
theorem get?_loadDailyMedians (order : RowOrder) (builds : List StoredBuild) (venue : String)
    (since : Int) (name : List Char) (day : Int) :
    (∀ median, (dailyOf (loadDailyMedians order builds venue since) name).get? day = some median →
      LastOfDay builds venue since name day median) ∧
    ((dailyOf (loadDailyMedians order builds venue since) name).get? day = none →
      ∀ row ∈ medianRows builds venue since, row.marketHashName = name →
        dayOf row.builtAt ≠ day) := by
  have hperm := order.perm (medianRows builds venue since)
  obtain ⟨hsome, hnone⟩ := get?_foldl_addMedian (order.pairwise (medianRows builds venue since))
    name day
  refine ⟨fun median hget => ?_, fun hget row hrow => hnone hget row (hperm.mem_iff.mpr hrow)⟩
  obtain ⟨row, hrow, hname, hday, hmedian, hmax⟩ := hsome median hget
  exact ⟨row, hperm.mem_iff.mp hrow, hname, hday, hmedian,
    fun other hother => hmax other (hperm.mem_iff.mpr hother)⟩

/-! ## The series of an item -/

theorem nodup_sorted_keys (daily : DailyMedians) : (sorted daily.keys).Nodup :=
  (List.perm_insertionSort _ _).nodup_iff.mpr daily.nodupKeys

theorem filterMap_get?_eq (daily : DailyMedians) {days : List Int}
    (h : ∀ day ∈ days, day ∈ daily.keys) : ∃ points : List (Int × Int),
      points.map Prod.fst = days ∧ points.map Prod.snd = days.filterMap daily.get? ∧
      ∀ point ∈ points, daily.get? point.1 = some point.2 := by
  induction days with
  | nil => exact ⟨[], rfl, rfl, fun point hpoint => absurd hpoint List.not_mem_nil⟩
  | cons day rest ih =>
      obtain ⟨points, hdays, hmedians, hget⟩ := ih fun d hd => h d (List.mem_cons_of_mem _ hd)
      obtain ⟨median, hmedian⟩ : ∃ median, daily.get? day = some median := by
        obtain ⟨⟨key, median⟩, hitem, hkey⟩ := List.mem_map.mp (h day List.mem_cons_self)
        exact ⟨median, OrderedDict.get?_eq_some.mpr (by rw [← hkey]; exact hitem)⟩
      refine ⟨(day, median) :: points, ?_, ?_, ?_⟩
      · rw [List.map_cons, hdays]
      · rw [List.map_cons, List.filterMap_cons_some hmedian, hmedians]
      · intro point hpoint
        rcases List.mem_cons.mp hpoint with rfl | hpoint
        · exact hmedian
        · exact hget point hpoint

/-- The series is the dictionary's medians in the order of their days. -/
theorem series_eq (daily : DailyMedians) : ∃ points : List (Int × Int),
    series daily = points.map Prod.snd ∧ points.Pairwise (fun a b => a.1 < b.1) ∧
    ∀ day median, (day, median) ∈ points ↔ daily.get? day = some median := by
  have hmem : ∀ day, day ∈ sorted daily.keys ↔ day ∈ daily.keys := fun day =>
    (List.perm_insertionSort _ _).mem_iff
  obtain ⟨points, hdays, hmedians, hget⟩ :=
    filterMap_get?_eq daily fun day hday => (hmem day).mp hday
  have hstrict : (sorted daily.keys).Pairwise (· < ·) := by
    have hsorted : (sorted daily.keys).Pairwise (· ≤ ·) := List.pairwise_insertionSort _ _
    exact (hsorted.and (nodup_sorted_keys daily)).imp fun hab => lt_of_le_of_ne hab.1 hab.2
  refine ⟨points, hmedians.symm, ?_, fun day median => ⟨hget (day, median), fun h => ?_⟩⟩
  · rw [← hdays] at hstrict
    exact List.pairwise_map.mp hstrict
  · have hday : day ∈ points.map Prod.fst := by
      rw [hdays, hmem]
      exact List.mem_map.mpr ⟨(day, median), OrderedDict.get?_eq_some.mp h, rfl⟩
    obtain ⟨⟨day', median'⟩, hpoint, rfl⟩ := List.mem_map.mp hday
    have hvalue : daily.get? day' = some median' := hget _ hpoint
    rw [h] at hvalue
    cases hvalue
    exact hpoint

/-- The daily points of an item when the stored builds were these. -/
structure DailyPoints (stored : List StoredBuild) (venue : String) (now : Int)
    (history : SalesHistory) (points : List (Int × Int)) : Prop where
  increasing : points.Pairwise fun a b => a.1 < b.1
  own : ∀ median, ownMedian history = some median → (dayOf now, median) ∈ points
  lastOfDay : ∀ day median, (day, median) ∈ points →
    day = dayOf now ∧ ownMedian history = some median ∨
    LastOfDay stored venue (now - dailyMedianLookback) history.marketHashName day median
  complete : ∀ row ∈ medianRows stored venue (now - dailyMedianLookback),
    row.marketHashName = history.marketHashName →
      ∃ median, (dayOf row.builtAt, median) ∈ points

theorem get?_dailyMedians (earlier : OrderedDict (List Char) DailyMedians) (today : Int)
    (history : SalesHistory) (day : Int) : (dailyMedians earlier today history).get? day
      = if today = day ∧ (ownMedian history).isSome then ownMedian history
        else (dailyOf earlier history.marketHashName).get? day := by
  unfold dailyMedians
  cases hown : ownMedian history with
  | none => rw [if_neg fun h => by cases h.2]
  | some median =>
      by_cases hday : today = day
      · rw [if_pos ⟨hday, rfl⟩]
        exact (OrderedDict.get?_set _ _ _ _).trans (if_pos hday)
      · rw [if_neg fun h => hday h.1]
        exact (OrderedDict.get?_set _ _ _ _).trans (if_neg hday)

theorem dailyPoints_series (order : RowOrder) (stored : List StoredBuild) (venue : String)
    (now : Int) (history : SalesHistory) : ∃ points,
      series (dailyMedians (loadDailyMedians order stored venue (now - dailyMedianLookback))
        (dayOf now) history) = points.map Prod.snd ∧
      DailyPoints stored venue now history points := by
  obtain ⟨points, hseries, hincreasing, hmem⟩ := series_eq (dailyMedians
    (loadDailyMedians order stored venue (now - dailyMedianLookback)) (dayOf now) history)
  have hload := get?_loadDailyMedians order stored venue (now - dailyMedianLookback)
    history.marketHashName
  refine ⟨points, hseries, hincreasing, ?_, ?_, ?_⟩
  · intro median hown
    rw [hmem, get?_dailyMedians, if_pos ⟨rfl, by rw [hown]; rfl⟩, hown]
  · intro day median hpoint
    rw [hmem, get?_dailyMedians] at hpoint
    split at hpoint
    · rename_i hown
      exact .inl ⟨hown.1.symm, hpoint⟩
    · exact .inr ((hload day).1 median hpoint)
  · intro row hrow hname
    by_cases hown : dayOf now = dayOf row.builtAt ∧ (ownMedian history).isSome
    · obtain ⟨median, hmedian⟩ := Option.isSome_iff_exists.mp hown.2
      refine ⟨median, (hmem _ _).mpr ?_⟩
      rw [get?_dailyMedians, if_pos hown, hmedian]
    · cases hget : (dailyOf (loadDailyMedians order stored venue (now - dailyMedianLookback))
          history.marketHashName).get? (dayOf row.builtAt) with
      | none => exact absurd rfl ((hload _).2 hget row hrow hname)
      | some median =>
          refine ⟨median, (hmem _ _).mpr ?_⟩
          rw [get?_dailyMedians, if_neg hown, hget]

/-! ## The rows of a build -/

theorem mem_buildBaselines {D : Doubles} {histories : List SalesHistory}
    {earlier : OrderedDict (List Char) DailyMedians} {today : Int} {rows : List ItemBaseline}
    (h : buildBaselines D histories earlier today = .ok rows) (row : ItemBaseline) :
    row ∈ rows ↔ ∃ history ∈ histories,
      buildItemBaseline D history (series (dailyMedians earlier today history)) = .ok (some row) := by
  obtain ⟨built, hbuilt, hrows⟩ := bind_eq_ok h
  cases hrows
  rw [(List.perm_insertionSort _ _).mem_iff, List.mem_filterMap, ← mem_mapM_ok hbuilt]
  constructor
  · rintro ⟨row?, hrow, rfl⟩
    exact hrow
  · intro hrow
    exact ⟨some row, hrow, rfl⟩

instance : Std.Total byName := ⟨fun _ _ => le_total _ _⟩

instance : IsTrans ItemBaseline byName := ⟨fun _ _ _ => le_trans⟩

theorem pairwise_buildBaselines {D : Doubles} {histories : List SalesHistory}
    {earlier : OrderedDict (List Char) DailyMedians} {today : Int} {rows : List ItemBaseline}
    (h : buildBaselines D histories earlier today = .ok rows) : rows.Pairwise byName := by
  obtain ⟨built, -, hrows⟩ := bind_eq_ok h
  cases hrows
  exact List.pairwise_insertionSort _ _

/-! ## One history an item -/

def salesOf (rows : List OfferSale) (name : List Char) : List (Int × Int) :=
  (rows.filter fun row => row.marketHashName = name).map fun row => (row.soldAt, row.priceCents)

/-- Each item once, in order, with all of its sales. -/
structure Grouped (rows : List OfferSale) (groups : List (List Char × List (Int × Int))) :
    Prop where
  increasing : groups.Pairwise fun a b => String.ofList a.1 < String.ofList b.1
  sales : ∀ group ∈ groups, group.2 = salesOf rows group.1
  nonempty : ∀ group ∈ groups, group.2 ≠ []
  covers : ∀ row ∈ rows, row.marketHashName ∈ groups.map Prod.fst

theorem salesOf_filter_ne {rows : List OfferSale} {name other : List Char} (h : name ≠ other) :
    salesOf (rows.filter fun row => row.marketHashName ≠ other) name = salesOf rows name := by
  rw [salesOf, salesOf, List.filter_filter]
  congr 1
  refine List.filter_congr fun row _ => ?_
  by_cases hrow : row.marketHashName = name
  · simp [hrow, h]
  · simp [hrow]

theorem salesOf_cons_self (row : OfferSale) (rest : List OfferSale) :
    salesOf (row :: rest) row.marketHashName
      = (row.soldAt, row.priceCents) :: salesOf rest row.marketHashName := by
  rw [salesOf, List.filter_cons_of_pos (by simp), List.map_cons, salesOf]

theorem salesOf_cons_ne {row : OfferSale} {name : List Char} (h : row.marketHashName ≠ name)
    (rest : List OfferSale) : salesOf (row :: rest) name = salesOf rest name := by
  rw [salesOf, List.filter_cons_of_neg (by simpa using h), salesOf]

theorem Grouped.name_mem {rows : List OfferSale} {groups : List (List Char × List (Int × Int))}
    (h : Grouped rows groups) {group : List Char × List (Int × Int)} (hgroup : group ∈ groups) :
    ∃ row ∈ rows, row.marketHashName = group.1 := by
  have hne : salesOf rows group.1 ≠ [] := h.sales group hgroup ▸ h.nonempty group hgroup
  obtain ⟨sale, hsale⟩ := List.exists_mem_of_ne_nil _ hne
  obtain ⟨row, hrow, -⟩ := List.mem_map.mp hsale
  obtain ⟨hmem, hname⟩ := List.mem_filter.mp hrow
  exact ⟨row, hmem, of_decide_eq_true hname⟩

theorem Grouped.cons {row : OfferSale} {rest : List OfferSale}
    {others : List (List Char × List (Int × Int))}
    (habove : ∀ other ∈ rest, String.ofList row.marketHashName ≤ String.ofList other.marketHashName)
    (h : Grouped (rest.filter fun other => other.marketHashName ≠ row.marketHashName) others) :
    Grouped (row :: rest) ((row.marketHashName,
      (row.soldAt, row.priceCents) :: salesOf rest row.marketHashName) :: others) := by
  have hother : ∀ group ∈ others,
      String.ofList row.marketHashName < String.ofList group.1 := by
    intro group hgroup
    obtain ⟨other, hmem, hname⟩ := h.name_mem hgroup
    obtain ⟨hrest, hne⟩ := List.mem_filter.mp hmem
    rw [← hname]
    exact lt_of_le_of_ne (habove other hrest) fun heq =>
      of_decide_eq_true hne (String.ofList_injective heq).symm
  have hne : ∀ group ∈ others, row.marketHashName ≠ group.1 := fun group hgroup heq =>
    absurd (hother group hgroup) (by rw [heq]; exact lt_irrefl _)
  constructor
  · exact List.pairwise_cons.mpr ⟨hother, h.increasing⟩
  · intro group hgroup
    rcases List.mem_cons.mp hgroup with rfl | hgroup
    · exact (salesOf_cons_self row rest).symm
    · rw [h.sales group hgroup, salesOf_filter_ne (hne group hgroup).symm,
        salesOf_cons_ne (hne group hgroup)]
  · intro group hgroup
    rcases List.mem_cons.mp hgroup with rfl | hgroup
    · exact List.cons_ne_nil _ _
    · exact h.nonempty group hgroup
  · intro other hmem
    rw [List.map_cons, List.mem_cons]
    by_cases hname : other.marketHashName = row.marketHashName
    · exact .inl hname
    · rcases List.mem_cons.mp hmem with rfl | hrest
      · exact absurd rfl hname
      · exact .inr (h.covers other (List.mem_filter.mpr ⟨hrest, decide_eq_true hname⟩))

theorem groupSales_some {rows : List OfferSale}
    (hsorted : rows.Pairwise fun a b =>
      String.ofList a.marketHashName ≤ String.ofList b.marketHashName)
    {name : List Char} (hname : ∀ row ∈ rows, String.ofList name ≤ String.ofList row.marketHashName)
    (sales : List (Int × Int)) : ∃ others,
      groupSales (some (name, sales)) rows = (name, sales ++ salesOf rows name) :: others ∧
      Grouped (rows.filter fun row => row.marketHashName ≠ name) others := by
  induction rows generalizing name sales with
  | nil => exact ⟨[], by rw [groupSales, salesOf]; simp, by constructor <;> simp⟩
  | cons row rest ih =>
      obtain ⟨hrow, hrest⟩ := List.pairwise_cons.mp hsorted
      rw [groupSales]
      by_cases heq : row.marketHashName = name
      · subst heq
        obtain ⟨others, hothers, hgrouped⟩ := ih hrest hrow (sales ++ [(row.soldAt, row.priceCents)])
        refine ⟨others, ?_, ?_⟩
        · rw [if_pos rfl, hothers, salesOf_cons_self, List.append_assoc, List.singleton_append]
        · rw [List.filter_cons_of_neg (by simp)]
          exact hgrouped
      · -- the rows are sorted, so the current item has no more of them
        have hlt : String.ofList name < String.ofList row.marketHashName :=
          lt_of_le_of_ne (hname row List.mem_cons_self) fun h =>
            heq (String.ofList_injective h).symm
        have hne : ∀ other ∈ row :: rest, other.marketHashName ≠ name := by
          intro other hother h
          rcases List.mem_cons.mp hother with rfl | hother
          · exact heq h
          · exact absurd (lt_of_lt_of_le hlt (hrow other hother)) (by rw [h]; exact lt_irrefl _)
        obtain ⟨others, hothers, hgrouped⟩ := ih hrest hrow [(row.soldAt, row.priceCents)]
        have hnone : salesOf (row :: rest) name = [] := by
          rw [salesOf, List.filter_eq_nil_iff.mpr fun other hother => by simpa using hne other hother]
          rfl
        refine ⟨groupSales (some (row.marketHashName, [(row.soldAt, row.priceCents)])) rest, ?_, ?_⟩
        · rw [if_neg heq, hnone, List.append_nil]
        · rw [hothers, List.filter_eq_self.mpr fun other hother => by simpa using hne other hother]
          exact .cons hrow hgrouped

theorem grouped_groupSales {rows : List OfferSale}
    (hsorted : rows.Pairwise fun a b =>
      String.ofList a.marketHashName ≤ String.ofList b.marketHashName) :
    Grouped rows (groupSales none rows) := by
  cases rows with
  | nil => constructor <;> simp [groupSales]
  | cons row rest =>
      obtain ⟨hrow, hrest⟩ := List.pairwise_cons.mp hsorted
      obtain ⟨others, hothers, hgrouped⟩ :=
        groupSales_some hrest hrow [(row.soldAt, row.priceCents)]
      rw [groupSales, hothers]
      exact .cons hrow hgrouped

theorem name_of_fromSales {D : Doubles} {name : List Char} {sales : List (Int × Int)} {now : Int}
    {history : SalesHistory} (h : SalesHistory.fromSales D name sales now = .ok history) :
    history.marketHashName = name := by
  obtain ⟨day, -, h⟩ := bind_eq_ok h
  obtain ⟨week, -, h⟩ := bind_eq_ok h
  obtain ⟨month, -, h⟩ := bind_eq_ok h
  obtain ⟨quarter, -, h⟩ := bind_eq_ok h
  cases h
  rfl

/-- One history for each item with recent sales, of exactly these sales. -/
structure OfSales (D : Doubles) (rows : List OfferSale) (now : Int)
    (histories : List SalesHistory) : Prop where
  increasing : histories.Pairwise fun a b =>
    String.ofList a.marketHashName < String.ofList b.marketHashName
  sales : ∀ history ∈ histories, ∃ own, own.Perm (salesOf rows history.marketHashName) ∧
    own ≠ [] ∧ SalesHistory.fromSales D history.marketHashName own now = .ok history
  covers : ∀ row ∈ rows, row.marketHashName ∈ histories.map SalesHistory.marketHashName

theorem ofSales_offerSaleHistories {D : Doubles} {order : SaleOrder} {stored : List OfferSale}
    {now : Int} {histories : List SalesHistory}
    (h : offerSaleHistories D order stored now = .ok histories) :
    OfSales D (recentSales stored now) now histories := by
  have hperm := order.perm (recentSales stored now)
  have hgrouped := grouped_groupSales (order.pairwise (recentSales stored now))
  have hnames : histories.map SalesHistory.marketHashName
      = (groupSales none (order.sort (recentSales stored now))).map Prod.fst :=
    map_of_mapM_ok (fun _ _ => name_of_fromSales) h
  constructor
  · have hincreasing : (histories.map SalesHistory.marketHashName).Pairwise fun a b =>
        String.ofList a < String.ofList b := by
      rw [hnames]
      exact List.pairwise_map.mpr hgrouped.increasing
    exact hincreasing.of_map SalesHistory.marketHashName fun _ _ h => h
  · intro history hhistory
    obtain ⟨group, hgroup, hok⟩ := (mem_mapM_ok h).mp hhistory
    have hname := name_of_fromSales hok
    refine ⟨group.2, ?_, hgrouped.nonempty group hgroup, by rw [hname]; exact hok⟩
    rw [hgrouped.sales group hgroup, hname]
    exact (hperm.filter _).map _
  · intro row hrow
    rw [hnames]
    exact hgrouped.covers row (hperm.mem_iff.mpr hrow)

end BrandSniper.Baselines
