import BrandSniper.Kit.Text
import BrandSniper.Listener.RulesEngine

/-!
# Deduplication, the price window, and the hand-off to the rules engine

`apps/listener/detection.py`. Live these functions run over the edge Redis,
in a replay over the in-memory store.

Every Redis command may raise; `Faults` says which ones do while one item is
handled. A command that raises has no effect, and what earlier commands did
stays done.
-/

namespace BrandSniper

open Kit

/-! ## Settings -/

structure DetectionSettings where
  slidingWindowSize : Nat
  dedupCacheMaxSize : Nat
  feeFloor : Bool
  zscore : ZScoreSettings

/-- The values without environment variables. -/
def DetectionSettings.default : DetectionSettings where
  slidingWindowSize := 20
  dedupCacheMaxSize := 100000
  feeFloor := true
  zscore := .default

def dedupWindowSeconds : Int := 300

def unchangedSnapshotWindowSeconds : Int := 3600

/-! ## The dedup cache -/

/-- What the dedup rules remember about one item on one venue. -/
structure DedupEntry where
  /-- Time of the item's last tick that was not a duplicate. -/
  timestamp : Int
  priceCents : Nat
  /-- Price of the item's last REST snapshot. -/
  snapshotPriceCents : Option Nat
  /-- When the item's last REST snapshot entered the price window. -/
  snapshotWindowedAt : Option Int
  deriving DecidableEq, Repr

/-- Per venue, one LRU cache of items and one of listings. -/
structure DedupCache where
  venues : OrderedDict String (OrderedDict String DedupEntry)
  listingPrices : OrderedDict String (OrderedDict String Nat)

namespace DedupCache

def empty : DedupCache := ⟨.empty, .empty⟩

/-- One venue's item cache. -/
def entries (d : DedupCache) (venue : String) : OrderedDict String DedupEntry :=
  (d.venues.get? venue).getD .empty

/-- One venue's listing cache. -/
def prices (d : DedupCache) (venue : String) : OrderedDict String Nat :=
  (d.listingPrices.get? venue).getD .empty

def get (d : DedupCache) (tick : PricedTick) : Option DedupEntry :=
  (d.entries tick.venue).get? tick.marketHashName

/-- Store the entry as the venue's most recent one. -/
def put (S : DetectionSettings) (d : DedupCache) (tick : PricedTick) (entry : DedupEntry) :
    DedupCache :=
  let entries := ((d.entries tick.venue).set tick.marketHashName entry).moveToEnd
    tick.marketHashName
  { d with venues := d.venues.set tick.venue (entries.trim S.dedupCacheMaxSize) }

/-- The price the tick's listing was last seen at. -/
def listingPrice (d : DedupCache) (tick : PricedTick) : Option Nat :=
  tick.listingId.bind fun listingId => (d.prices tick.venue).get? listingId

def putListingPrice (S : DetectionSettings) (d : DedupCache) (tick : PricedTick) : DedupCache :=
  match tick.listingId with
  | none => d
  | some listingId =>
      let prices := ((d.prices tick.venue).set listingId tick.priceCents).moveToEnd listingId
      { d with listingPrices := d.listingPrices.set tick.venue (prices.trim S.dedupCacheMaxSize) }

@[simp] theorem get_putListingPrice (S : DetectionSettings) (d : DedupCache)
    (tick tick' : PricedTick) : (d.putListingPrice S tick).get tick' = d.get tick' := by
  unfold putListingPrice
  split <;> rfl

end DedupCache

/-! ## Duplicates and unchanged snapshots -/

def hourlySnapshotDue (timestamp : Int) (lastWindowedSnapshotAt : Option Int) : Bool :=
  match lastWindowedSnapshotAt with
  | none => true
  | some last => decide (timestamp - last ≥ unchangedSnapshotWindowSeconds)

def unchangedSnapshotEntersWindow (timestamp : Int) (lastWindowedSnapshotAt : Option Int)
    (windowSize minHistoryPoints : Nat) : Bool :=
  decide (windowSize < minHistoryPoints) || hourlySnapshotDue timestamp lastWindowedSnapshotAt

/-- A listing seen again at its price, or a price repeated within the dedup window. -/
def isDuplicate (tick : PricedTick) (d : DedupCache) : Bool :=
  match tick.listingId with
  | some _ => d.listingPrice tick == some tick.priceCents
  | none =>
      match d.get tick with
      | none => false
      | some entry =>
          tick.priceCents == entry.priceCents
            && decide (tick.timestamp - entry.timestamp < dedupWindowSeconds)

/-- A REST snapshot at the price of the item's previous REST snapshot, however old. -/
def isUnchangedSnapshot (tick : PricedTick) (d : DedupCache) : Bool :=
  match d.get tick with
  | none => false
  | some entry => tick.isRestSnapshot && some tick.priceCents == entry.snapshotPriceCents

/-- What `update_dedup_cache` stores. -/
def nextEntry (tick : PricedTick) (previous : Option DedupEntry) (entersWindow : Bool) :
    DedupEntry where
  timestamp := tick.timestamp
  priceCents := tick.priceCents
  snapshotPriceCents :=
    if tick.isRestSnapshot then some tick.priceCents else previous.bind (·.snapshotPriceCents)
  snapshotWindowedAt :=
    if tick.isRestSnapshot && entersWindow then some tick.timestamp
    else previous.bind (·.snapshotWindowedAt)

def updateDedupCache (S : DetectionSettings) (tick : PricedTick) (d : DedupCache)
    (entersWindow : Bool) : DedupCache :=
  (d.put S tick (nextEntry tick (d.get tick) entersWindow)).putListingPrice S tick

/-! ## The price window -/

/-- Redis commands that raise while one item is handled. -/
structure Faults where
  /-- The `zcard` that asks whether an unchanged snapshot enters the window. -/
  zcardUnchanged : Bool
  zadd : Bool
  zcard : Bool
  zremrangebyrank : Bool
  zrange : Bool
  hget : Bool

def Faults.none : Faults := ⟨false, false, false, false, false, false⟩

def priceWindowKey (venue marketHashName : String) : String :=
  "price_window:" ++ venue ++ ":" ++ marketHashName

/-- The window a tick belongs to. -/
def PricedTick.windowKey (tick : PricedTick) : String :=
  priceWindowKey tick.venue tick.marketHashName

/-- `f"{tick.timestamp}:{tick.price_cents}"` -/
def windowMember (tick : PricedTick) : String :=
  toString tick.timestamp ++ ":" ++ toString tick.priceCents

/-- `int(text)` of a decimal number. -/
def intOfText? (text : List Char) : Option Int :=
  match text with
  | '-' :: digits => (Text.natOfText? digits).map fun n => -(n : Int)
  | digits => (Text.natOfText? digits).map Int.ofNat

/-- `int(member.split(":")[1])` -/
def memberPrice (member : String) : Except PyError Int :=
  match (member.toList.splitOn ':')[1]? with
  | none => .error .indexError
  | some text =>
      match intOfText? text with
      | none => .error (.valueError "invalid literal for int() with base 10")
      | some price => .ok price

/-- Z-score of the newest price in a window, and the baseline it was scored against. -/
structure WindowScore where
  zScore : Double
  meanCents : ℚ
  source : ZScoreSource
  windowSize : Nat
  baseline : Option Baseline
  deriving DecidableEq

/-- An anomaly handed to the rules engine: the arguments of `evaluate_and_execute`. -/
structure AnomalyJob where
  tick : PricedTick
  zScore : Double
  baseline : Option Baseline
  source : ZScoreSource

section

variable {C : Type} [EdgeCache C]

/-- For an unchanged snapshot: whether it enters the price window. The window size is
asked for only when no hour has passed. -/
def unchangedSnapshotEntersPriceWindow (S : DetectionSettings) (faults : Faults)
    (tick : PricedTick) (d : DedupCache) (cache : C) : Except PyError Bool :=
  let lastWindowedAt := (d.get tick).bind (·.snapshotWindowedAt)
  if hourlySnapshotDue tick.timestamp lastWindowedAt then .ok true
  else if faults.zcardUnchanged then .error .redisError
  else .ok (unchangedSnapshotEntersWindow tick.timestamp lastWindowedAt
    (EdgeCache.zcard cache tick.windowKey) S.zscore.minHistoryPoints)

/-- Add the tick's price to its window and trim the window to its last N prices. -/
def pushToWindow (S : DetectionSettings) (faults : Faults) (tick : PricedTick) (cache : C) :
    C × Except PyError Unit :=
  if faults.zadd then (cache, .error .redisError)
  else
    let cache := EdgeCache.zadd cache tick.windowKey (windowMember tick) tick.timestamp
    if faults.zcard then (cache, .error .redisError)
    else
      let card := EdgeCache.zcard cache tick.windowKey
      if card > S.slidingWindowSize then
        if faults.zremrangebyrank then (cache, .error .redisError)
        else
          (EdgeCache.zremrangebyrank cache tick.windowKey 0 (card - S.slidingWindowSize - 1),
            .ok ())
      else (cache, .ok ())

/-- The prices `score_window` reads from the tick's window. -/
def windowPrices (cache : C) (key : String) : Except PyError (List Int) :=
  (EdgeCache.zrange cache key 0 (-1)).mapM memberPrice

/-- Score the newest price in the tick's window; `none` with too little history. -/
def scoreWindow (F : FloatArith) (S : DetectionSettings) (faults : Faults) (tick : PricedTick)
    (cache : C) : Except PyError (Option WindowScore) := do
  if faults.zrange then throw .redisError
  let prices ← windowPrices cache tick.windowKey
  if faults.hget then throw .redisError
  let baseline := fetchBaseline tick cache
  let result ← calculateZScore F S.zscore prices (baseline.bind (·.rolling30dAvgCents.get))
    (baseline.bind (·.volatilityCents.get)) (baseline.bind (·.coefficientOfVariation.get))
  return result.map fun (zScore, meanCents, source) =>
    { zScore, meanCents, source, windowSize := prices.length, baseline }

/-! ## From an anomaly to a trade -/

/-- The seller fee a baseline states for its item, when it is a fee. -/
def itemFeeBps (baseline : Baseline) : Option Int :=
  match baseline.sellerFeeBps with
  | .value (.int n) => if 0 ≤ n ∧ n < basisPoints then some n else none
  | _ => none

/-- Fee-aware estimate: buy on the tick's venue, resell on its resale venue at the
baseline price. -/
def estimateNetProfitCents (tick : PricedTick) (baseline : Baseline) :
    Except PyError (Option Int) :=
  match baseline.latestPriceCents.get with
  | none => return none
  | some resalePriceCents => do
      let buyFees ← feesFor tick.venue
      let sellFees ← feesFor (resaleVenueFor tick.venue)
      let margin ← netResaleMarginCents tick.priceCents resalePriceCents buyFees (some sellFees)
        (itemFeeBps baseline)
      return some margin

/-- `FEE_FLOOR_RULES` -/
def feeFloorRules : List ApprovalReason := [.supportFloor, .macroSigma]

def belowFeeFloor (S : DetectionSettings) (approvalReason : ApprovalReason)
    (estimatedProfitCents : Option Int) : Bool :=
  if S.feeFloor && approvalReason ∈ feeFloorRules then
    match estimatedProfitCents with
    | none => false
    | some estimate => decide (estimate ≤ 0)
  else false

/-- The arguments of `executor.execute`. -/
structure TradeOrder where
  venue : String
  marketHashName : String
  purchasePriceCents : Nat
  estimatedProfitCents : Option Int
  zScore : Double
  listingId : Option String
  floatValue : Option ℚ
  deriving DecidableEq

/-- What became of an anomaly. -/
inductive Evaluation where
  | rejectedByDre
  | belowFeeFloor (rule : ApprovalReason) (estimatedProfitCents : Option Int)
  | confirmed (rule : ApprovalReason) (order : TradeOrder)
  deriving DecidableEq

/-- Judge an anomaly; a confirmed one goes to the executor. -/
def evaluateAndExecute (F : FloatArith) (S : DetectionSettings) (job : AnomalyJob) (cache : C) :
    Except PyError Evaluation := do
  let tick := job.tick
  match ← dreApprovalReason F tick cache job.baseline with
  | none => return .rejectedByDre
  | some rule =>
      let baseline := (job.baseline.or (fetchBaseline tick cache)).getD .empty
      let estimate ← estimateNetProfitCents tick baseline
      if belowFeeFloor S rule estimate then
        return .belowFeeFloor rule estimate
      return .confirmed rule
        { venue := tick.venue
          marketHashName := tick.marketHashName
          purchasePriceCents := tick.priceCents
          estimatedProfitCents := estimate
          zScore := job.zScore
          listingId := tick.listingId
          floatValue := tick.floatValue }

/-- Push the tick into its window and hand an outlier over to the rules engine. -/
def updateWindowAndDetect (F : FloatArith) (S : DetectionSettings) (faults : Faults)
    (tick : PricedTick) (cache : C) : C × Except PyError (Option AnomalyJob) :=
  match pushToWindow S faults tick cache with
  | (cache, .error e) => (cache, .error e)
  | (cache, .ok ()) =>
      match scoreWindow F S faults tick cache with
      | .error e => (cache, .error e)
      | .ok none => (cache, .ok none)
      | .ok (some score) =>
          if shouldTriggerAnomaly F S.zscore score.zScore score.meanCents tick score.source then
            (cache, .ok (some
              { tick, zScore := score.zScore, baseline := score.baseline, source := score.source }))
          else (cache, .ok none)

end

end BrandSniper
