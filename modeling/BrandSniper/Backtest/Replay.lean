import BrandSniper.Backtest.Store
import BrandSniper.Listener.Detection

/-!
# The replay loop

`apps/listener/backtest/strategy.py` and `harness.py`: the decision of the
Z-score strategy on a tick whose window has been scored, and the loop that
routes recorded items, keeps the dedup cache and the windows, and writes the
decision log.

An exception is not caught here: it ends the replay.
-/

namespace BrandSniper

open Kit

/-! ## Decisions -/

def reasonDuplicate : String := "duplicate"

def reasonUnchangedSnapshot : String := "unchanged_snapshot"

def reasonInsufficientHistory : String := "insufficient_history"

def reasonBelowThreshold : String := "below_threshold"

/-- `REASON_DRE_REJECTED`, the listener's `REJECTED_BY_DRE`. -/
def reasonDreRejected : String := "dre_rejected"

/-- `REASON_BELOW_FEE_FLOOR`, the listener's `REJECTED_BELOW_FEE_FLOOR`. -/
def reasonBelowFeeFloor : String := "below_fee_floor"

def reasonMacroOnly : String := "macro_only"

/-- The features of a decision: `none` where the key is absent. -/
structure DecisionFeatures where
  meanCents : Option ℚ
  windowSize : Option Nat
  zSource : Option ZScoreSource
  stickerCount : Option Nat
  dreReason : Option (Option ApprovalReason)
  belowFeeFloor : Option Bool
  estimatedNetProfitCents : Option (Option Int)
  dreRule : Option ApprovalReason
  deriving DecidableEq

def DecisionFeatures.empty : DecisionFeatures :=
  ⟨none, none, none, none, none, none, none, none⟩

structure Decision where
  approve : Bool
  reason : String
  score : Option Double
  features : DecisionFeatures
  deriving DecidableEq

/-- A decision that never looked at the window. -/
def Decision.unscored (reason : String) : Decision := ⟨false, reason, none, .empty⟩

/-! ## The Z-score strategy -/

section

variable {C : Type} [EdgeCache C]

/-- What a threshold sweep needs of a tick above the threshold: the verdict of the rules. -/
def ZScoreDreStrategy.sweepInputs (F : FloatArith) (S : DetectionSettings) (tick : PricedTick)
    (cache : C) (baseline : Option Baseline) (features : DecisionFeatures) :
    Except PyError DecisionFeatures := do
  let dreReason ← dreApprovalReason F tick cache baseline
  let features := { features with dreReason := some dreReason }
  match dreReason with
  | none => return features
  | some rule =>
      let estimate ← estimateNetProfitCents tick (baseline.getD .empty)
      return { features with belowFeeFloor := some (belowFeeFloor S rule estimate) }

/-- The decision on a tick whose window has been scored. -/
def ZScoreDreStrategy.decideScored (F : FloatArith) (S : DetectionSettings)
    (recordsSweepInputs : Bool) (tick : PricedTick) (cache : C) (windowScore : Option WindowScore) :
    Except PyError Decision :=
  match windowScore with
  | none => return .unscored reasonInsufficientHistory
  | some score => do
      let features : DecisionFeatures :=
        { DecisionFeatures.empty with
          meanCents := some score.meanCents
          windowSize := some score.windowSize
          zSource := some score.source
          stickerCount := if recordsSweepInputs then some tick.stickers.length else none }
      if ¬ sourceCanTrigger S.zscore score.source then
        return ⟨false, reasonMacroOnly, some score.zScore, features⟩
      if ¬ shouldTriggerAnomaly F S.zscore score.zScore score.meanCents tick score.source then
        let features ← if recordsSweepInputs then
            ZScoreDreStrategy.sweepInputs F S tick cache score.baseline features
          else pure features
        return ⟨false, reasonBelowThreshold, some score.zScore, features⟩
      match ← dreApprovalReason F tick cache score.baseline with
      | none => return ⟨false, reasonDreRejected, some score.zScore, features⟩
      | some rule =>
          let estimate ← estimateNetProfitCents tick (score.baseline.getD .empty)
          let features := { features with estimatedNetProfitCents := some estimate }
          if belowFeeFloor S rule estimate then
            return ⟨false, reasonBelowFeeFloor, some score.zScore,
              { features with dreRule := some rule }⟩
          return ⟨true, rule.label, some score.zScore, features⟩

/-- `ZScoreDreStrategy.decide` -/
def ZScoreDreStrategy.decide (F : FloatArith) (S : DetectionSettings) (tick : PricedTick)
    (cache : C) :
    Except PyError Decision := do
  let windowScore ← scoreWindow F S .none tick cache
  ZScoreDreStrategy.decideScored F S false tick cache windowScore

end

/-! ## The loop -/

/-- What the replay keeps between items. -/
structure ReplayEdge where
  dedup : DedupCache
  store : InMemoryEdgeStore

/-- What the replay did with an item. -/
inductive ReplayRoute where
  | feedEvent
  | outcome
  | duplicate
  | unchanged (windowed : Bool)
  | scored (decision : Decision)

/-- The decision on an item that has one. -/
def ReplayRoute.decision? : ReplayRoute → Option Decision
  | feedEvent => none
  | outcome => none
  | duplicate => some (.unscored reasonDuplicate)
  | unchanged _ => some (.unscored reasonUnchangedSnapshot)
  | scored decision => some decision

/-- One item of the loop. -/
def replayItem (F : FloatArith) (S : DetectionSettings) (edge : ReplayEdge) (item : StreamItem) :
    Except PyError (ReplayEdge × ReplayRoute) :=
  match item with
  | .feedEvent _ => .ok (edge, .feedEvent)
  | .tick tick =>
      if ¬ tick.feedsPriceWindow then .ok (edge, .outcome)
      else if isDuplicate tick edge.dedup then .ok (edge, .duplicate)
      else if isUnchangedSnapshot tick edge.dedup then do
        let entersWindow ← unchangedSnapshotEntersPriceWindow S .none tick edge.dedup edge.store
        let dedup := updateDedupCache S tick edge.dedup entersWindow
        if entersWindow then
          let (store, pushed) := pushToWindow S .none tick edge.store
          pushed
          return (⟨dedup, store⟩, .unchanged true)
        return (⟨dedup, edge.store⟩, .unchanged false)
      else do
        let dedup := updateDedupCache S tick edge.dedup true
        let (store, pushed) := pushToWindow S .none tick edge.store
        pushed
        let decision ← ZScoreDreStrategy.decide F S tick store
        return (⟨dedup, store⟩, .scored decision)
  | .unpriced tick =>
      -- an outcome's price is not read
      if ¬ tick.feedsPriceWindow then .ok (edge, .outcome) else .error .overflowError

structure ReplaySummary where
  events : Nat
  feedEvents : Nat
  ticks : Nat
  outcomeTicks : Nat
  duplicates : Nat
  unchangedSnapshots : Nat
  unchangedSnapshotsWindowed : Nat
  decisions : Nat
  logged : Nat
  approved : Nat
  deriving DecidableEq

def ReplaySummary.zero : ReplaySummary := ⟨0, 0, 0, 0, 0, 0, 0, 0, 0, 0⟩

/-- The counters an item of this route moves before it is logged. -/
def ReplaySummary.count (summary : ReplaySummary) : ReplayRoute → ReplaySummary
  | .feedEvent => { summary with feedEvents := summary.feedEvents + 1 }
  | .outcome =>
      { summary with ticks := summary.ticks + 1, outcomeTicks := summary.outcomeTicks + 1 }
  | .duplicate =>
      { summary with ticks := summary.ticks + 1, duplicates := summary.duplicates + 1 }
  | .unchanged windowed =>
      { summary with
        ticks := summary.ticks + 1
        unchangedSnapshots := summary.unchangedSnapshots + 1
        unchangedSnapshotsWindowed :=
          summary.unchangedSnapshotsWindowed + if windowed then 1 else 0 }
  | .scored _ =>
      { summary with ticks := summary.ticks + 1, decisions := summary.decisions + 1 }

/-- A `decision` row of the log: its sequence number, the tick, and the decision. -/
structure DecisionRecord where
  sequence : Nat
  tick : PricedTick
  decision : Decision

/-- Listing-level ticks are always logged, REST snapshots only when approved. -/
def shouldLog (tick : PricedTick) (decision : Decision) : Bool :=
  tick.listingId.isSome || decision.approve

structure ReplayState where
  edge : ReplayEdge
  summary : ReplaySummary
  log : List DecisionRecord

/-- Count an item, and log its decision within the logged period. -/
def ReplayState.account (st : ReplayState) (isLoggedPeriod : Bool) (item : StreamItem)
    (edge : ReplayEdge) (route : ReplayRoute) : ReplayState :=
  let summary := st.summary.count route
  match item, route.decision? with
  | .tick tick, some decision =>
      if isLoggedPeriod && shouldLog tick decision then
        let summary :=
          { summary with
            logged := summary.logged + 1
            approved := summary.approved + if decision.approve then 1 else 0 }
        ⟨edge, summary, st.log ++ [⟨summary.logged, tick, decision⟩]⟩
      else ⟨edge, summary, st.log⟩
  | _, _ => ⟨edge, summary, st.log⟩

def replayStep (F : FloatArith) (S : DetectionSettings) (isLoggedPeriod : Bool)
    (st : ReplayState) (item : StreamItem) : Except PyError ReplayState := do
  let (edge, route) ← replayItem F S st.edge item
  return st.account isLoggedPeriod item edge route

/-- A recorded event: its replay time and the stream items it expands to. -/
structure RecordedEvent where
  timeMs : Int
  items : List StreamItem

/-- One fixed set of baselines and sticker prices. -/
structure BaselineSnapshot where
  baselines : OrderedDict String Baseline
  stickerPrices : OrderedDict String (Option Int)

/-- The replay's state before the first event: the venue of `load_baselines` is its default. -/
def ReplayEdge.start (snapshot : BaselineSnapshot) : ReplayEdge :=
  ⟨.empty, InMemoryEdgeStore.empty.loadBaselines snapshot.baselines snapshot.stickerPrices
    skinportFees.venue⟩

/-- Events before `logFromMs` only warm up the caches. -/
def isLoggedPeriod (logFromMs : Option Int) (event : RecordedEvent) : Bool :=
  match logFromMs with
  | none => true
  | some start => start ≤ event.timeMs

/-- One event of the loop. -/
def replayEvent (F : FloatArith) (S : DetectionSettings) (logFromMs : Option Int)
    (st : ReplayState) (event : RecordedEvent) : Except PyError ReplayState :=
  event.items.foldlM (replayStep F S (isLoggedPeriod logFromMs event))
    { st with summary := { st.summary with events := st.summary.events + 1 } }

/-- Replay the events through the Z-score strategy. -/
def runReplay (F : FloatArith) (S : DetectionSettings) (snapshot : BaselineSnapshot)
    (logFromMs : Option Int) (events : List RecordedEvent) : Except PyError ReplayState :=
  events.foldlM (replayEvent F S logFromMs) ⟨.start snapshot, .zero, []⟩

end BrandSniper
