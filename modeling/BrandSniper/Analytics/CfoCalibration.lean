import BrandSniper.Analytics.OutcomeLabels
import BrandSniper.Backtest.Harness
import BrandSniper.Kit.Calendar
import BrandSniper.Kit.JsonObjects

/-!
# The market the CFO is shown

`MarketHistory`, `MarketView` and `run_tool` of `apps/analytics/cfo_calibration.py`,
with `verify_float_value` of `tools.py`. A view holds the whole history and a
moment; its answers cut the history at that moment (`runTool_samePast`).

Moments are naive UTC datetimes in microseconds. Floats are rationals, with
their text as `PyFloat ℚ`; `lower` is `str.lower` and `readFloat` how pydantic
reads a float, with its message when it does not. A `KeyError`, which
`run_tool` does not catch, is `none`.
-/

namespace BrandSniper.Cfo

open Kit Labels

/-- `RECENT_SALES_DAYS` -/
def recentSalesDays : Int := 7

/-- `RECENT_LISTINGS_HOURS` -/
def recentListingsHours : Int := 24

/-- `SEARCH_LIMIT` -/
def searchLimit : Nat := 10

def days (n : Int) : Int := n * 86400000000

def hours (n : Int) : Int := n * 3600000000

/-! ## Point in time market data -/

/-- One baseline build: when its source data was fetched, and each item's baseline row. -/
structure BaselineSnapshot where
  buildId : Int
  builtAt : Int
  rows : OrderedDict String (List (String × Json ℚ))

/-- The order of `_by_name`. -/
def seenOrder (sale : FeedSale ℚ) : Int ×ₗ String := toLex (sale.seenAt, sale.listingId)

/-- `_by_name` -/
def byName (sales : List (FeedSale ℚ)) : OrderedDict String (List (FeedSale ℚ)) :=
  groupOn (fun sale => some sale.marketHashName) id (sortOn seenOrder sales)

/-- Everything the CFO may be shown for any trade. -/
structure MarketHistory where
  builds : List BaselineSnapshot
  sold : OrderedDict String (List (FeedSale ℚ))
  listed : OrderedDict String (List (FeedSale ℚ))

def MarketHistory.build (builds : List BaselineSnapshot) (sold listed : List (FeedSale ℚ)) :
    MarketHistory where
  builds := sortOn BaselineSnapshot.builtAt builds
  sold := byName sold
  listed := byName listed

/-- The market as one decision saw it: the newest build fetched at or before `moment`, and
earlier events only. -/
structure MarketView where
  moment : Int
  build : Option BaselineSnapshot
  history : MarketHistory

def MarketHistory.asOf (history : MarketHistory) (moment : Int) : MarketView where
  moment := moment
  build := history.builds.foldl
    (fun build candidate => if candidate.builtAt ≤ moment then some candidate else build) none
  history := history

/-- Sales seen in [start, stop); `sales` is sorted by time. -/
def before (sales : List (FeedSale ℚ)) (start stop : Int) : List (FeedSale ℚ) :=
  let times := sales.map FeedSale.seenAt
  (sales.take (bisectLeft times stop)).drop (bisectLeft times start)

/-- `round((moment - seen_at).total_seconds() / 3600, 1)` -/
def ageHours (F : FloatArith) (moment seenAt : Int) : ℚ :=
  let totalSeconds := F.round ((moment - seenAt : Int) / 1000000)
  F.round (roundHalfEven (F.round (totalSeconds / 3600) * 10) / 10)

namespace MarketView

variable (view : MarketView)

def baseline (marketHashName : String) : Option (List (String × Json ℚ)) :=
  view.build.bind fun build => build.rows.get? marketHashName

def recentSales (marketHashName : String) : List (FeedSale ℚ) :=
  before ((view.history.sold.get? marketHashName).getD [])
    (view.moment - days recentSalesDays) view.moment

def recentListings (marketHashName : String) : List (FeedSale ℚ) :=
  before ((view.history.listed.get? marketHashName).getD [])
    (view.moment - hours recentListingsHours) view.moment

/-- `baseline_built_at`: none for an empty baseline too. -/
def baselineBuiltAt (marketHashName : String) : Option String :=
  match view.build, view.baseline marketHashName with
  | some build, some (_ :: _) => some (Moment.ofEpochMicros build.builtAt).isoformat
  | _, _ => none

def text : Option String → Json ℚ
  | none => .null
  | some s => .str s

def cents : Option Int → Json ℚ
  | none => .null
  | some z => .int z

def marketFloor (F : FloatArith) (marketHashName : String) : Json ℚ :=
  let sales := view.recentSales marketHashName
  let listings := view.recentListings marketHashName
  let salePrices := sales.map FeedSale.priceCents
  .obj [
    ("market_hash_name", .str marketHashName),
    ("as_of", .str (Moment.ofEpochMicros view.moment).isoformat),
    ("baseline", match view.baseline marketHashName with
      | none => .null
      | some row => .obj row),
    ("baseline_built_at", text (view.baselineBuiltAt marketHashName)),
    ("sales_last_7_days", .obj [
      ("count", .int sales.length),
      -- there is none without sales, so nothing raises
      ("median_cents", cents (Labels.medianLow salePrices).toOption),
      ("min_cents", cents salePrices.min?),
      ("max_cents", cents salePrices.max?),
      ("latest", .arr ((sales.drop (sales.length - 5)).map fun sale => .obj [
        ("price_cents", .int sale.priceCents),
        ("hours_before_trade", .float (ageHours F view.moment sale.seenAt))]))]),
    ("listings_last_24_hours", .obj [
      ("count", .int listings.length),
      ("lowest_prices_cents",
        .arr (((sortOn id (listings.map FeedSale.priceCents)).take 5).map .int))])]

/-- `needle in text` -/
def isIn (needle : List Char) : List Char → Bool
  | [] => needle.isPrefixOf []
  | c :: rest => needle.isPrefixOf (c :: rest) || isIn needle rest

/-- The columns of a search result. -/
def searchColumns : List String :=
  ["latest_price_cents", "rolling_30d_avg_cents", "avg_volume_30d", "drift_percent"]

/-- One match: a row without a column raises. -/
def searchResult (rows : OrderedDict String (List (String × Json ℚ))) (name : String) :
    Option (Json ℚ) := do
  let row ← rows.get? name
  let columns ← searchColumns.mapM fun column => do
    let value ← Json.getField row column
    return (column, value)
  return .obj (("market_hash_name", .str name) :: columns)

def searchBaselines (lower : String → String) (query : String) : Option (List (Json ℚ)) :=
  match view.build with
  | none => some []
  | some build =>
      if Text.trim query.toList = [] then some []
      else
        let needle := (lower (String.ofList (Text.trim query.toList))).toList
        let names := sortOn id (build.rows.keys.filter fun name => isIn needle (lower name).toList)
        (names.take searchLimit).mapM (searchResult build.rows)

end MarketView

/-! ## The float check -/

/-- `_FLOAT_TIERS` -/
def floatTiers : List (ℚ × ℚ × String) :=
  [(0, 7 / 100, "Factory New"), (7 / 100, 15 / 100, "Minimal Wear"),
    (15 / 100, 38 / 100, "Field-Tested"), (38 / 100, 45 / 100, "Well-Worn"),
    (45 / 100, 101 / 100, "Battle-Scarred")]

/-- `_classify_float`: the quality, its premium multiplier, and what it says. -/
def classifyFloat (F : FloatArith) (value : ℚ) : String × ℚ × String :=
  if value < 0 ∨ 1 < value then ("Standard", 1, "Invalid float value.")
  else if value < F.round (1 / 100) then
    ("Exceptional", 3 / 2, "Top percentile float — significant premium over standard FN.")
  else if value < F.round (3 / 100) then
    ("Excellent", 13 / 10, "Excellent low float — clean appearance commands noticeable premium.")
  else if value < F.round (7 / 100) then
    ("Good", 11 / 10, "Good Factory New float — above average but not exceptional.")
  else if value < F.round (8 / 100) then
    ("Good", 115 / 100, "FN-look Minimal Wear — visually indistinguishable from Factory New, mild premium.")
  else if value < F.round (10 / 100) then
    ("Decent", 105 / 100, "Low float Minimal Wear — cleaner than average, small premium.")
  else if value < F.round (16 / 100) then
    ("Good", 11 / 10, "Low float Field-Tested — close to Minimal Wear appearance, mild premium.")
  else if value < F.round (20 / 100) then
    ("Decent", 103 / 100, "Lower-end Field-Tested — slightly cleaner than typical FT.")
  else if F.round (95 / 100) ≤ value then
    ("Exceptional", 13 / 10, "Extreme high float — potential collector value for certain patterns.")
  else if F.round (90 / 100) ≤ value then
    ("Notable", 115 / 100, "High float Battle-Scarred — may carry a niche premium for specific items.")
  else ("Standard", 1, "Standard float — falls in typical wear corridor, no extra premium.")

/-- `_wear_tier` -/
def wearTier (F : FloatArith) (value : ℚ) : String :=
  match floatTiers.find? fun (low, high, _) => F.round low ≤ value ∧ value < F.round high with
  | some (_, _, label) => label
  | none => "Unknown"

def verifyFloatValue (F : FloatArith) (marketHashName : String) (floatValue : ℚ) : Json ℚ :=
  let (quality, multiplier, description) := classifyFloat F floatValue
  .obj [
    ("market_hash_name", .str marketHashName),
    ("float_value", .float floatValue),
    ("wear_tier", .str (wearTier F floatValue)),
    ("float_quality", .str quality),
    ("premium_multiplier", .float (F.round multiplier)),
    ("description", .str description)]

/-! ## Tool calls -/

/-- A required text argument, or the message of the validation error. -/
def argText (arguments : List (String × Json ℚ)) (field : String) : Except String String :=
  match Json.getField arguments field with
  | none => .error "Field required"
  | some (.str s) => .ok s
  | some _ => .error "Input should be a valid string"

/-- A required float argument. -/
def argFloat (readFloat : Json ℚ → Except String ℚ) (arguments : List (String × Json ℚ))
    (field : String) : Except String ℚ :=
  match Json.getField arguments field with
  | none => .error "Field required"
  | some j => readFloat j

def errorDocument (message : String) : Json ℚ := .obj [("error", .str message)]

def invalidArguments (name message : String) : Json ℚ :=
  errorDocument ("Invalid arguments for " ++ name ++ ": " ++ message)

section

variable [PyFloat ℚ] (F : FloatArith) (lower : String → String)
  (readFloat : Json ℚ → Except String ℚ)

/-- The document a tool call answers with. -/
def toolDocument (view : MarketView) (name : String) (arguments : List (String × Json ℚ)) :
    Option (Json ℚ) :=
  if name = "fetch_market_floor" then
    match argText arguments "market_hash_name" with
    | .error message => some (invalidArguments name message)
    | .ok marketHashName => some (view.marketFloor F marketHashName)
  else if name = "search_item_baselines" then
    match argText arguments "query" with
    | .error message => some (invalidArguments name message)
    | .ok query => do
        let results ← view.searchBaselines lower query
        return .obj [("query", .str query), ("results", .arr results)]
  else if name = "verify_float_value" then
    -- The first of the errors is reported.
    match argText arguments "market_hash_name", argFloat readFloat arguments "float_value" with
    | .error message, _ => some (invalidArguments name message)
    | .ok _, .error message => some (invalidArguments name message)
    | .ok marketHashName, .ok floatValue => some (verifyFloatValue F marketHashName floatValue)
  else some (errorDocument ("Unknown tool " ++ name))

/-- `run_tool` -/
def runTool (view : MarketView) (name : String) (arguments : List (String × Json ℚ)) :
    Option String :=
  (toolDocument F lower readFloat view name arguments).map fun document =>
    String.ofList (Json.dumpsSpaced document)

end

/-! ## What a view shows of a history -/

theorem pairwise_seenAt (sales : List (FeedSale ℚ)) :
    (sortOn seenOrder sales).Pairwise fun a b => a.seenAt ≤ b.seenAt := by
  have hpairs : (sortOn seenOrder sales).Pairwise fun a b => seenOrder a ≤ seenOrder b :=
    pairwise_sortOn sales
  refine hpairs.imp fun {a b} h => ?_
  rcases Prod.Lex.toLex_le_toLex.mp h with hlt | ⟨heq, _⟩
  · exact le_of_lt hlt
  · exact le_of_eq heq

/-- An item's events, in the order they were seen. -/
theorem getD_byName (sales : List (FeedSale ℚ)) (marketHashName : String) :
    ((byName sales).get? marketHashName).getD []
      = (sortOn seenOrder sales).filter fun sale => sale.marketHashName = marketHashName := by
  rw [byName, getD_groupOn, List.map_id]
  refine List.filter_congr fun sale _ => ?_
  simp

/-- A window up to a moment reads the events before the moment only. -/
theorem before_byName (sales : List (FeedSale ℚ)) (marketHashName : String) (start moment : Int) :
    before (((byName sales).get? marketHashName).getD []) start moment
      = ((((byName sales).get? marketHashName).getD []).filter fun sale =>
          sale.seenAt < moment).filter fun sale => start ≤ sale.seenAt := by
  rw [getD_byName, before, slice_bisectLeft ((pairwise_seenAt sales).filter _),
    ← List.filter_filter]

theorem foldl_newest {moment : Int} {builds : List BaselineSnapshot}
    (start : Option BaselineSnapshot) :
    builds.foldl
        (fun build candidate => if candidate.builtAt ≤ moment then some candidate else build) start
      = ((builds.filter fun build => build.builtAt ≤ moment).getLast?).or start := by
  induction builds generalizing start with
  | nil => rfl
  | cons build builds ih =>
      rw [List.foldl_cons, ih, List.filter_cons]
      by_cases hbuilt : build.builtAt ≤ moment
      · rw [if_pos hbuilt, if_pos (decide_eq_true hbuilt), List.getLast?_cons]
        cases (builds.filter fun build => build.builtAt ≤ moment).getLast? <;> rfl
      · rw [if_neg hbuilt, if_neg (by simpa using hbuilt)]

/-- The build of a view is the newest of those built by its moment. -/
theorem MarketHistory.build_asOf (history : MarketHistory) (moment : Int) :
    (history.asOf moment).build
      = (history.builds.filter fun build => build.builtAt ≤ moment).getLast? := by
  show history.builds.foldl _ none = _
  rw [foldl_newest, Option.or_none]

/-- Two views that show the same at the same moment. -/
structure SameShown (a b : MarketView) : Prop where
  moment : a.moment = b.moment
  build : a.build = b.build
  recentSales : ∀ name, a.recentSales name = b.recentSales name
  recentListings : ∀ name, a.recentListings name = b.recentListings name

theorem SameShown.marketFloor {a b : MarketView} (h : SameShown a b) (F : FloatArith)
    (marketHashName : String) :
    a.marketFloor F marketHashName = b.marketFloor F marketHashName := by
  simp only [MarketView.marketFloor, MarketView.baselineBuiltAt, MarketView.baseline, h.moment,
    h.build, h.recentSales, h.recentListings]

theorem SameShown.searchBaselines {a b : MarketView} (h : SameShown a b)
    (lower : String → String) (query : String) :
    a.searchBaselines lower query = b.searchBaselines lower query := by
  simp only [MarketView.searchBaselines, h.build]

/-- A tool reads no more of a view than what it shows. -/
theorem runTool_sameShown [PyFloat ℚ] (F : FloatArith) (lower : String → String)
    (readFloat : Json ℚ → Except String ℚ) {a b : MarketView} (h : SameShown a b) (name : String)
    (arguments : List (String × Json ℚ)) :
    runTool F lower readFloat a name arguments = runTool F lower readFloat b name arguments := by
  simp only [runTool, toolDocument, h.marketFloor, h.searchBaselines]

/-! ## Only the past -/

/-- Two histories agree up to a moment: on the builds built at or before it, and on each item's
sold and listed events seen before it. -/
structure SamePast (moment : Int) (a b : MarketHistory) : Prop where
  builds : (a.builds.filter fun build => build.builtAt ≤ moment)
    = b.builds.filter fun build => build.builtAt ≤ moment
  sold : ∀ name, (((a.sold.get? name).getD []).filter fun sale => sale.seenAt < moment)
    = ((b.sold.get? name).getD []).filter fun sale => sale.seenAt < moment
  listed : ∀ name, (((a.listed.get? name).getD []).filter fun sale => sale.seenAt < moment)
    = ((b.listed.get? name).getD []).filter fun sale => sale.seenAt < moment

theorem byName_samePast {moment : Int} {sales sales' : List (FeedSale ℚ)}
    (h : (sales.filter fun sale => sale.seenAt < moment)
      = sales'.filter fun sale => sale.seenAt < moment) (name : String) :
    ((((byName sales).get? name).getD []).filter fun sale => sale.seenAt < moment)
      = (((byName sales').get? name).getD []).filter fun sale => sale.seenAt < moment := by
  rw [getD_byName, getD_byName, List.filter_comm, ← sortOn_filter, h, sortOn_filter,
    List.filter_comm]

/-- Histories made of records that agree up to the moment agree up to the moment. -/
theorem build_samePast {moment : Int} {builds builds' : List BaselineSnapshot}
    {sold sold' listed listed' : List (FeedSale ℚ)}
    (hbuilds : (builds.filter fun build => build.builtAt ≤ moment)
      = builds'.filter fun build => build.builtAt ≤ moment)
    (hsold : (sold.filter fun sale => sale.seenAt < moment)
      = sold'.filter fun sale => sale.seenAt < moment)
    (hlisted : (listed.filter fun sale => sale.seenAt < moment)
      = listed'.filter fun sale => sale.seenAt < moment) :
    SamePast moment (MarketHistory.build builds sold listed)
      (MarketHistory.build builds' sold' listed') where
  builds := by
    show (sortOn BaselineSnapshot.builtAt builds).filter _
      = (sortOn BaselineSnapshot.builtAt builds').filter _
    rw [← sortOn_filter, hbuilds, sortOn_filter]
  sold := byName_samePast hsold
  listed := byName_samePast hlisted

theorem sameShown_of_samePast {moment : Int} {builds builds' : List BaselineSnapshot}
    {sold sold' listed listed' : List (FeedSale ℚ)}
    (h : SamePast moment (MarketHistory.build builds sold listed)
      (MarketHistory.build builds' sold' listed')) :
    SameShown ((MarketHistory.build builds sold listed).asOf moment)
      ((MarketHistory.build builds' sold' listed').asOf moment) where
  moment := rfl
  build := by rw [MarketHistory.build_asOf, MarketHistory.build_asOf, h.builds]
  recentSales name := by
    have hsold := h.sold name
    show before (((byName sold).get? name).getD []) (moment - days recentSalesDays) moment
      = before (((byName sold').get? name).getD []) (moment - days recentSalesDays) moment
    rw [before_byName, before_byName]
    exact congrArg _ hsold
  recentListings name := by
    have hlisted := h.listed name
    show before (((byName listed).get? name).getD []) (moment - hours recentListingsHours) moment
      = before (((byName listed').get? name).getD []) (moment - hours recentListingsHours) moment
    rw [before_byName, before_byName]
    exact congrArg _ hlisted

/-- **The CFO sees only the past.** Histories that agree up to a moment give views of the moment
on which every tool call answers with the same text. -/
theorem runTool_samePast [PyFloat ℚ] (F : FloatArith) (lower : String → String)
    (readFloat : Json ℚ → Except String ℚ) {moment : Int} {builds builds' : List BaselineSnapshot}
    {sold sold' listed listed' : List (FeedSale ℚ)}
    (h : SamePast moment (MarketHistory.build builds sold listed)
      (MarketHistory.build builds' sold' listed')) (name : String)
    (arguments : List (String × Json ℚ)) :
    runTool F lower readFloat ((MarketHistory.build builds sold listed).asOf moment) name arguments
      = runTool F lower readFloat ((MarketHistory.build builds' sold' listed').asOf moment) name
          arguments :=
  runTool_sameShown F lower readFloat (sameShown_of_samePast h) name arguments

/-! A sale at the moment of the trade, and a build a second later. -/

/-- The text of a whole float. -/
@[reducible] def wholeFloats : PyFloat ℚ where
  repr x := (toString x.num).toList ++ ['.', '0']
  ofText _ := none

def readWholeFloat : Json ℚ → Except String ℚ
  | .int z => .ok z
  | .float x => .ok x
  | _ => .error "Input should be a valid number"

def redlineSale (listingId : String) (priceCents seenAt : Int) : FeedSale ℚ :=
  ⟨listingId, "AK-47 | Redline (Field-Tested)", priceCents, seenAt, none, none, none⟩

def redlineBuild (buildId builtAt latestPriceCents : Int) : BaselineSnapshot :=
  ⟨buildId, builtAt, OrderedDict.empty.set "AK-47 | Redline (Field-Tested)"
    [("latest_price_cents", .int latestPriceCents)]⟩

def redlineHistory : MarketHistory :=
  .build [redlineBuild 1 0 1000] [redlineSale "s-1" 1000 3600000000] []

def redlineHistoryAfter : MarketHistory :=
  .build [redlineBuild 2 7201000000 10, redlineBuild 1 0 1000]
    [redlineSale "s-1" 1000 3600000000, redlineSale "s-2" 10 7200000000] []

theorem runTool_samePast_redline :
    (redlineHistoryAfter.builds.length, (redlineHistoryAfter.sold.get?
        "AK-47 | Redline (Field-Tested)").map List.length) = (2, some 2)
      ∧ @runTool wholeFloats .exact id readWholeFloat (redlineHistory.asOf 7200000000)
          "fetch_market_floor" [("market_hash_name", .str "AK-47 | Redline (Field-Tested)")]
        = @runTool wholeFloats .exact id readWholeFloat (redlineHistoryAfter.asOf 7200000000)
          "fetch_market_floor" [("market_hash_name", .str "AK-47 | Redline (Field-Tested)")] :=
  ⟨by decide +kernel, @runTool_samePast wholeFloats .exact id readWholeFloat 7200000000 _ _ _ _ _ _
    (build_samePast rfl (by decide +kernel) rfl) _ _⟩

end BrandSniper.Cfo
