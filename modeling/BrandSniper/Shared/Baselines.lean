import Mathlib.Data.List.Sort
import BrandSniper.Kit.Doubles
import BrandSniper.Shared.ItemClassifier

/-!
# Item baselines

`SalesWindow`, `SalesHistory` and `build_item_baseline` of
`shared_utils/baselines.py`, and `edge_baseline_payload` of `pricing_utils.py`.
An item's recent sales on a venue, from one entry of Skinport's sales history
or from single sales, become the normal price a listing is compared with.

Amounts are whole cents; times are microseconds. What the functions compute in
floats is computed here in `Doubles`, so a result that passes the largest
double raises where Python raises.
-/

namespace BrandSniper.Baselines

open Kit Doubles

def minSales30d : Nat := 5

def minSales24hForLatest : Nat := 5

def minSales7dForLatest : Nat := 3

/-- `MIN_DAILY_POINTS` -/
def minDailyPoints : Nat := 14

section
variable (D : Doubles)

/-- `FLOOR_Z` -/
def floorZ : ℚ := D.round (12816 / 10000)

/-- `MIN_VOLATILITY_FRACTION` -/
def minVolatilityFraction : ℚ := D.round (1 / 100)

end

/-! ## Statistics of whole numbers -/

def sorted (data : List Int) : List Int := data.insertionSort (· ≤ ·)

section
variable (D : Doubles)

/-- `statistics.fmean` -/
def fmean (data : List Int) : Except ArithmeticError Double := do
  let xs ← data.mapM D.ofInt
  match D.ofRat (total xs) with
  | .finite sum => return D.ofRat (sum / data.length)
  | _ => .error .overflowError

/-- `round(statistics.median(data))` of data that is not empty -/
def median (data : List Int) : Except ArithmeticError Int :=
  let xs := sorted data
  let middle := xs.length / 2
  if xs.length % 2 = 1 then .ok (xs.getD middle 0)
  else (D.divInts (xs.getD (middle - 1) 0 + xs.getD middle 0) 2).map roundHalfEven

/-- The sample variance, exact. -/
def variance (data : List Int) : ℚ :=
  let mean := total (data.map fun (x : Int) => (x : ℚ)) / data.length
  total (data.map fun (x : Int) => (x - mean) * (x - mean)) / (data.length - 1 : Int)

/-- `statistics.stdev` -/
def stdev (data : List Int) : Except ArithmeticError ℚ :=
  if D.inRange (D.sqrt (variance data)) then .ok (D.sqrt (variance data))
  else .error .overflowError

/-- One of `statistics.quantiles(data, n=10, method="inclusive")`, of sorted data. -/
def decile (xs : List Int) (i : Nat) : Except ArithmeticError ℚ :=
  let position := i * (xs.length - 1)
  let j := position / 10
  let delta : Int := (position % 10 : Nat)
  D.divInts (xs.getD j 0 * (10 - delta) + xs.getD (j + 1) 0 * delta) 10

def deciles (data : List Int) : Except ArithmeticError (List ℚ) :=
  [1, 2, 3, 4, 5, 6, 7, 8, 9].mapM (decile D (sorted data))

end

/-! ## Sales -/

/-- A value of a JSON document, as `isinstance` tells numbers apart. -/
inductive Scalar where
  | int (n : Int)
  | bool (b : Bool)
  | float (q : ℚ)
  | other

/-- One window of a sales history entry, if it is an object. -/
structure WindowDocument where
  min : Scalar
  max : Scalar
  avg : Scalar
  median : Scalar
  volume : Scalar

structure SalesWindow where
  minCents : Option Int
  maxCents : Option Int
  avgCents : Option Int
  medianCents : Option Int
  volume : Nat
  deriving DecidableEq

def SalesWindow.empty : SalesWindow := ⟨none, none, none, none, 0⟩

def SalesWindow.hasMedian (window : SalesWindow) (minVolume : Nat) : Bool :=
  window.medianCents.any (fun median => 0 < median) && decide (minVolume ≤ window.volume)

/-- `volume if isinstance(volume, int) and volume > 0 else 0` -/
def Scalar.volume : Scalar → Nat
  | .int n => n.toNat
  | .bool b => if b then 1 else 0
  | _ => 0

section
variable (D : Doubles)

/-- `to_cents(value) if isinstance(value, (int, float)) else None` -/
def Scalar.cents : Scalar → Except ArithmeticError (Option Int)
  | .int n => do
      let value ← D.ofInt n
      let cents ← Double.toInt (D.mul value (.finite 100))
      return some cents
  | .bool b => (Double.toInt (D.mul (.finite (if b then 1 else 0)) (.finite 100))).map some
  | .float q => (Double.toInt (D.mul q (.finite 100))).map some
  | .other => return none

def SalesWindow.fromSkinport : Option WindowDocument → Except ArithmeticError SalesWindow
  | none => return .empty
  | some window => do
      let minCents ← window.min.cents D
      let maxCents ← window.max.cents D
      let avgCents ← window.avg.cents D
      let medianCents ← window.median.cents D
      return ⟨minCents, maxCents, avgCents, medianCents, window.volume.volume⟩

def SalesWindow.fromPrices (pricesCents : List Int) : Except ArithmeticError SalesWindow := do
  if pricesCents.isEmpty then return .empty
  let avgCents ← Double.toInt (← fmean D pricesCents)
  let medianCents ← median D pricesCents
  return ⟨pricesCents.min?, pricesCents.max?, some avgCents, some medianCents, pricesCents.length⟩

end

structure SalesHistory where
  marketHashName : List Char
  last24Hours : SalesWindow
  last7Days : SalesWindow
  last30Days : SalesWindow
  last90Days : SalesWindow
  deriving DecidableEq

/-- The fields of a `/v1/sales/history` entry; a name, currency or version that is no text is
`none`. -/
structure SkinportEntry where
  marketHashName : Option (List Char)
  currency : Option (List Char)
  version : Option (List Char)
  last24Hours : Option WindowDocument
  last7Days : Option WindowDocument
  last30Days : Option WindowDocument
  last90Days : Option WindowDocument

/-- Length of a window in microseconds. -/
def windowLength (days : Nat) : Int := days * 86400 * 1000000

section
variable (D : Doubles)

def SalesHistory.fromSkinport (entry : SkinportEntry) :
    Except ArithmeticError (Option SalesHistory) :=
  match entry.marketHashName with
  | none | some [] => return none
  | some name =>
      if entry.currency ≠ some "USD".toList then return none
      else do
        let day ← SalesWindow.fromSkinport D entry.last24Hours
        let week ← SalesWindow.fromSkinport D entry.last7Days
        let month ← SalesWindow.fromSkinport D entry.last30Days
        let quarter ← SalesWindow.fromSkinport D entry.last90Days
        return some ⟨ItemClassifier.buildVersionedName name entry.version, day, week, month, quarter⟩

/-- The prices of the sales in `(now - length, now]`. -/
def pricesWithin (sales : List (Int × Int)) (now length : Int) : List Int :=
  (sales.filter fun sale => sale.1 ≤ now ∧ now - length < sale.1).map Prod.snd

def SalesHistory.fromSales (marketHashName : List Char) (sales : List (Int × Int)) (now : Int) :
    Except ArithmeticError SalesHistory := do
  let day ← SalesWindow.fromPrices D (pricesWithin sales now (windowLength 1))
  let week ← SalesWindow.fromPrices D (pricesWithin sales now (windowLength 7))
  let month ← SalesWindow.fromPrices D (pricesWithin sales now (windowLength 30))
  let quarter ← SalesWindow.fromPrices D (pricesWithin sales now (windowLength 90))
  return ⟨marketHashName, day, week, month, quarter⟩

end

/-! ## Baselines -/

inductive VolatilityMethod where
  | salesSpread
  | dailyMedians
  deriving DecidableEq

structure ItemBaseline where
  marketHashName : List Char
  latestPriceCents : Int
  rolling30dAvgCents : Int
  rolling90dAvgCents : Int
  volatilityCents : Int
  supportFloorCents : Int
  avgVolume30d : ℚ
  driftPercent : Double
  volatilityMethod : VolatilityMethod
  median24hCents : Option Int
  volume24h : Nat
  median7dCents : Option Int
  volume7d : Nat
  min30dCents : Int
  volume30d : Nat
  volume90d : Nat
  sellerFeeBps : Option Int
  deriving DecidableEq

def ItemBaseline.withSellerFee (baseline : ItemBaseline) (sellerFeeBps : Option Int) :
    ItemBaseline :=
  { baseline with sellerFeeBps }

/-- 24 hour median when that day had enough sales, else the 7 day median, else the 30 day median. -/
def latestPriceCents (history : SalesHistory) : Except ArithmeticError Int :=
  let day := history.last24Hours
  let week := history.last7Days
  match day.medianCents.filter fun _ => day.hasMedian minSales24hForLatest with
  | some median => .ok median
  | none =>
      match week.medianCents.filter fun _ => week.hasMedian minSales7dForLatest with
      | some median => .ok median
      | none =>
          match history.last30Days.medianCents with
          | some median => .ok median
          | none => .error (.valueError
              (String.ofList history.marketHashName ++ ": no 30 day median"))

/-- `median_90d` of `build_item_baseline` -/
def median90dCents (quarter : SalesWindow) (median30d : Int) : Int :=
  (quarter.medianCents.filter fun _ => quarter.hasMedian 1).getD median30d

section
variable (D : Doubles)

/-- `sales_spread_volatility_cents` -/
def salesSpreadVolatilityCents (medianCents minCents : Int) (volume : Nat) :
    Except ArithmeticError Int := do
  if volume < 2 then throw (.valueError "volume must be at least 2")
  let spread := max (medianCents - minCents) 0
  let divisor ← D.mathSqrt (D.mul (.finite 2) (D.log volume))
  let deviation ← D.div (← D.ofInt spread) divisor
  Double.toInt deviation

/-- `max(round(median_30d * MIN_VOLATILITY_FRACTION), 1)` without the `max` -/
def onePercentCents (medianCents : Int) : Except ArithmeticError Int := do
  Double.toInt (D.mul (← D.ofInt medianCents) (minVolatilityFraction D))

/-- Volatility and support floor from the item's own daily medians. -/
def fromDailyMedians (dailyMediansCents : List Int) : Except ArithmeticError (Int × Int) := do
  let volatility ← stdev D dailyMediansCents
  let cuts ← deciles D dailyMediansCents
  return (roundHalfEven volatility, roundHalfEven (cuts.headD 0))

/-- Volatility and support floor from the median and the minimum of the 30 day window. -/
def fromSalesSpread (medianCents minCents : Int) (volume : Nat) (minimumVolatility : Int) :
    Except ArithmeticError (Int × Int) := do
  let volatility ← salesSpreadVolatilityCents D medianCents minCents volume
  let below ← D.ofInt (max volatility minimumVolatility)
  let floor ← Double.toInt (D.sub (← D.ofInt medianCents) (D.mul (floorZ D) below))
  return (volatility, floor)

/-- The daily medians once there are enough of them. -/
def volatilityAndFloor (dailyMediansCents : List Int) (medianCents minCents : Int) (volume : Nat)
    (minimumVolatility : Int) : Except ArithmeticError (Int × Int) :=
  if minDailyPoints ≤ dailyMediansCents.length then fromDailyMedians D dailyMediansCents
  else fromSalesSpread D medianCents minCents volume minimumVolatility

/-- `build_item_baseline` of an item that sold often enough. -/
def itemBaseline (history : SalesHistory) (dailyMediansCents : List Int) (median30d min30d : Int) :
    Except ArithmeticError ItemBaseline := do
  let day := history.last24Hours
  let week := history.last7Days
  let month := history.last30Days
  let quarter := history.last90Days
  let median90d := median90dCents quarter median30d
  let minimumVolatility := max (← onePercentCents D median30d) 1
  let (volatility, supportFloor) ←
    volatilityAndFloor D dailyMediansCents median30d min30d month.volume minimumVolatility
  let latest ← latestPriceCents history
  let avgVolume30d ← D.divInts month.volume 30
  let drift ← D.divInts (median30d - median90d) median90d
  return {
    marketHashName := history.marketHashName
    latestPriceCents := latest
    rolling30dAvgCents := median30d
    rolling90dAvgCents := median90d
    volatilityCents := max volatility minimumVolatility
    supportFloorCents := max supportFloor 0
    avgVolume30d := avgVolume30d
    driftPercent := D.mul drift (.finite 100)
    volatilityMethod :=
      if minDailyPoints ≤ dailyMediansCents.length then .dailyMedians else .salesSpread
    median24hCents := day.medianCents.filter fun _ => day.hasMedian 1
    volume24h := day.volume
    median7dCents := week.medianCents.filter fun _ => week.hasMedian 1
    volume7d := week.volume
    min30dCents := min30d
    volume30d := month.volume
    volume90d := quarter.volume
    sellerFeeBps := none }

/-- `build_item_baseline` -/
def buildItemBaseline (history : SalesHistory) (dailyMediansCents : List Int) :
    Except ArithmeticError (Option ItemBaseline) :=
  let month := history.last30Days
  match month.medianCents, month.minCents with
  | some median30d, some min30d =>
      if month.hasMedian minSales30d then
        (itemBaseline D history dailyMediansCents median30d min30d).map some
      else return none
  | _, _ => return none

/-! ## What the edge reads -/

structure EdgePayload where
  supportFloorCents : Int
  latestPriceCents : Int
  rolling30dAvgCents : Int
  volatilityCents : Int
  driftPercent : Double
  avgVolume30d : ℚ
  coefficientOfVariation : ℚ
  sellerFeeBps : Option Int

def coefficientOfVariation (rolling30dAvgCents volatilityCents : Int) :
    Except ArithmeticError ℚ :=
  if rolling30dAvgCents ≠ 0 ∧ volatilityCents ≠ 0 then
    (D.divInts volatilityCents rolling30dAvgCents).map fun q =>
      D.round (roundHalfEven (q * 10 ^ 4) / 10 ^ 4)
  else .ok 0

/-- `edge_baseline_payload` of a baseline -/
def ItemBaseline.edgePayload (baseline : ItemBaseline) : Except ArithmeticError EdgePayload := do
  let coefficient ← coefficientOfVariation D baseline.rolling30dAvgCents baseline.volatilityCents
  return {
    supportFloorCents := baseline.supportFloorCents
    latestPriceCents := baseline.latestPriceCents
    rolling30dAvgCents := baseline.rolling30dAvgCents
    volatilityCents := baseline.volatilityCents
    driftPercent := baseline.driftPercent
    avgVolume30d := baseline.avgVolume30d
    coefficientOfVariation := coefficient
    sellerFeeBps := baseline.sellerFeeBps }

end

end BrandSniper.Baselines
