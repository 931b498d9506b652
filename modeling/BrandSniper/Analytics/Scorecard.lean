import BrandSniper.Shared.Purchases
import Mathlib.Data.Rat.Defs

/-!
# Trades of a decision log

`collect_trades` of `apps/analytics/baseline_scorecard.py`: the approvals of a
decision log as trades, each purchase once.
-/

namespace BrandSniper

open Kit

/-- `utc_fromtimestamp_naive` of a whole second. -/
def utcFromtimestampNaive (timestamp : Int) : Moment := Moment.ofEpochSeconds timestamp

/-- A decision record of the log. -/
structure DecisionRow where
  timestamp : Int
  venue : String
  listingId : Option String
  marketHashName : String
  priceCents : Int
  approve : Bool
  reason : String
  /-- `features.z_source` -/
  zSource : Option String
  deriving DecidableEq

/-- One decision row, with the baseline build that was in effect when it was made. -/
structure LoggedDecision where
  row : DecisionRow
  buildId : Option Int
  lookAhead : Bool
  deriving DecidableEq

namespace LoggedDecision

def decidedAt (decision : LoggedDecision) : Moment :=
  utcFromtimestampNaive decision.row.timestamp

def tickKind (decision : LoggedDecision) : String :=
  if decision.row.listingId.isSome then "listing" else "rest_snapshot"

def isScorable (decision : LoggedDecision) (start : Moment) : Bool :=
  !decision.lookAhead && start.le decision.decidedAt

end LoggedDecision

/-- One approval the live rules would have paper traded, and what the market did afterwards. -/
structure Trade where
  decidedAt : Moment
  tickKind : String
  listingId : Option String
  marketHashName : String
  priceCents : Int
  rule : String
  zSource : Option String
  buildId : Option Int
  outcome : String
  netMarginCents : Option Int
  isProfitable : Option Bool
  avgVolume30d : Option ℚ
  deriving DecidableEq

def Trade.fromDecision (decision : LoggedDecision) : Trade where
  decidedAt := decision.decidedAt
  tickKind := decision.tickKind
  listingId := decision.row.listingId
  marketHashName := decision.row.marketHashName
  priceCents := decision.row.priceCents
  rule := decision.row.reason
  zSource := decision.row.zSource
  buildId := decision.buildId
  outcome := "pending"
  netMarginCents := none
  isProfitable := none
  avgVolume30d := none

/-- One pass of the loop over the trades so far and the set of keys bought. -/
def collectTrade (start : Moment) : List Trade × List String → LoggedDecision →
    List Trade × List String
  | (trades, bought), decision =>
      if !decision.row.approve || !decision.isScorable start then (trades, bought)
      else
        let (key, snapshotKey) := purchaseKeys decision.row.venue decision.row.marketHashName
          decision.row.priceCents decision.row.listingId decision.decidedAt.date
        if key ∈ bought then (trades, bought)
        else (trades ++ [Trade.fromDecision decision], key :: snapshotKey :: bought)

def collectTrades (decisions : List LoggedDecision) (start : Moment) : List Trade :=
  (decisions.foldl (collectTrade start) ([], [])).1

end BrandSniper
