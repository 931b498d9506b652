import BrandSniper.Kit.Calendar
import BrandSniper.Kit.Text
import Mathlib.Algebra.Order.Ring.Unbundled.Rat

/-!
# Simulated trades

The `SimulatedTrade` table with its unique indexes, and what one
`ingest_simulated_trade` request of `apps/backend/main.py` does with the rows
it sees. The payload is the validated one. `ingestSimulatedTrade` is a request
that no other one runs beside; requests that overlap are in
`Backend.TradeRequests`.
-/

namespace BrandSniper

open Kit

/-! ## The table -/

structure SimulatedTradePayload where
  marketHashName : String
  venue : String
  purchasePriceCents : Int
  estimatedProfitCents : Option Int
  profitEstimateBasis : Option String
  triggerZScore : ℚ
  listingId : Option String
  floatValue : Option ℚ
  deriving DecidableEq

/-- What the schema makes of a posted payload: the venue is a `NonEmptyText`, which is stripped.
`none` is the answer 422. -/
def SimulatedTradePayload.validate (posted : SimulatedTradePayload) :
    Option SimulatedTradePayload :=
  let venue := Text.strip posted.venue
  if 1 ≤ venue.length ∧ venue.length ≤ 32
      ∧ posted.profitEstimateBasis.all (fun basis => basis.length ≤ 32)
      ∧ posted.listingId.all (fun listingId => listingId.length ≤ 64)
      ∧ posted.floatValue.all (fun value => 0 ≤ value && value ≤ 1) then
    some { posted with venue := venue }
  else none

theorem SimulatedTradePayload.validate_eq_some {posted payload : SimulatedTradePayload}
    (h : posted.validate = some payload) :
    payload = { posted with venue := Text.strip posted.venue } := by
  unfold validate at h
  dsimp only at h
  split at h
  · exact (Option.some.inj h).symm
  · cases h

structure SimulatedTrade where
  itemId : Nat
  venue : String
  purchasePriceCents : Int
  estimatedProfitCents : Option Int
  profitEstimateBasis : Option String
  triggerZScore : ℚ
  listingId : Option String
  floatValue : Option ℚ
  simulatedBuyTimestamp : Moment
  deriving DecidableEq

namespace SimulatedTrade

/-- One item at one price on one venue on one UTC day. -/
def samePurchaseDay (a b : SimulatedTrade) : Bool :=
  a.venue = b.venue && a.itemId = b.itemId && a.purchasePriceCents = b.purchasePriceCents
    && a.simulatedBuyTimestamp.date = b.simulatedBuyTimestamp.date

/-- `uq_simulated_trades_venue_listing_id` -/
def sameListing (a b : SimulatedTrade) : Bool :=
  a.listingId.isSome && b.listingId.isSome && a.venue = b.venue && a.listingId = b.listingId

/-- `uq_simulated_trades_snapshot_buy_day` -/
def sameSnapshotBuy (a b : SimulatedTrade) : Bool :=
  a.listingId.isNone && b.listingId.isNone && a.samePurchaseDay b

/-- The unique indexes do not hold both rows. -/
def conflicts (a b : SimulatedTrade) : Bool := a.sameListing b || a.sameSnapshotBuy b

theorem samePurchaseDay_iff {a b : SimulatedTrade} : a.samePurchaseDay b = true ↔
    a.venue = b.venue ∧ a.itemId = b.itemId ∧ a.purchasePriceCents = b.purchasePriceCents ∧
      a.simulatedBuyTimestamp.date = b.simulatedBuyTimestamp.date := by
  simp only [samePurchaseDay, Bool.and_eq_true, decide_eq_true_eq, and_assoc]

theorem samePurchaseDay_comm (a b : SimulatedTrade) :
    a.samePurchaseDay b = b.samePurchaseDay a := by
  rw [Bool.eq_iff_iff, samePurchaseDay_iff, samePurchaseDay_iff]
  constructor
  · intro h
    exact ⟨h.1.symm, h.2.1.symm, h.2.2.1.symm, h.2.2.2.symm⟩
  · intro h
    exact ⟨h.1.symm, h.2.1.symm, h.2.2.1.symm, h.2.2.2.symm⟩

theorem conflicts_comm (a b : SimulatedTrade) : a.conflicts b = b.conflicts a := by
  have hlisting : a.sameListing b = b.sameListing a := by
    rw [Bool.eq_iff_iff]
    simp only [sameListing, Bool.and_eq_true, decide_eq_true_eq]
    constructor
    · intro h
      exact ⟨⟨⟨h.1.1.2, h.1.1.1⟩, h.1.2.symm⟩, h.2.symm⟩
    · intro h
      exact ⟨⟨⟨h.1.1.2, h.1.1.1⟩, h.1.2.symm⟩, h.2.symm⟩
  rw [conflicts, conflicts, hlisting, sameSnapshotBuy, sameSnapshotBuy, samePurchaseDay_comm a b,
    Bool.and_comm a.listingId.isNone]

theorem conflicts_of_sameListing {a b : SimulatedTrade} (hvenue : a.venue = b.venue)
    (hlisting : a.listingId = b.listingId) (hsome : a.listingId ≠ none) :
    a.conflicts b = true := by
  have hlistingb : b.listingId ≠ none := hlisting ▸ hsome
  simp [conflicts, sameListing, hvenue, hlisting, Option.isSome_iff_ne_none.mpr hlistingb]

theorem conflicts_of_sameSnapshotBuy {a b : SimulatedTrade} (ha : a.listingId = none)
    (hb : b.listingId = none) (h : a.samePurchaseDay b = true) : a.conflicts b = true := by
  simp [conflicts, sameSnapshotBuy, ha, hb, h]

end SimulatedTrade

/-! ## The statements of a request -/

/-- The text whose hash `lock_purchase` locks. -/
def purchaseLockText (venue : String) (itemId : Nat) (purchasePriceCents : Int) : String :=
  "purchase:" ++ venue ++ ":" ++ toString itemId ++ ":" ++ toString purchasePriceCents

/-- `snapshot_already_bought`, over the rows the transaction sees. -/
def snapshotAlreadyBought (rows : List SimulatedTrade) (payload : SimulatedTradePayload)
    (itemId : Nat) (boughtAt : Moment) : Bool :=
  let dayStart := Moment.midnight boughtAt.date
  let dayEnd := Moment.midnight boughtAt.date.next
  rows.any fun row =>
    row.venue = payload.venue && row.itemId = itemId
      && row.purchasePriceCents = payload.purchasePriceCents
      && (dayStart.le row.simulatedBuyTimestamp && row.simulatedBuyTimestamp.lt dayEnd)

/-- The row a request inserts. -/
def SimulatedTradePayload.toRow (payload : SimulatedTradePayload) (itemId : Nat)
    (boughtAt : Moment) : SimulatedTrade where
  itemId := itemId
  venue := payload.venue
  purchasePriceCents := payload.purchasePriceCents
  estimatedProfitCents := payload.estimatedProfitCents
  profitEstimateBasis := payload.profitEstimateBasis
  triggerZScore := payload.triggerZScore
  listingId := payload.listingId
  floatValue := payload.floatValue
  simulatedBuyTimestamp := boughtAt

/-- The lookup goes by the venue, item, price and UTC day of the row it would insert. -/
theorem snapshotAlreadyBought_iff {rows : List SimulatedTrade} {payload : SimulatedTradePayload}
    {itemId : Nat} {boughtAt : Moment} :
    snapshotAlreadyBought rows payload itemId boughtAt = true ↔
      ∃ row ∈ rows, row.samePurchaseDay (payload.toRow itemId boughtAt) = true := by
  simp only [snapshotAlreadyBought, List.any_eq_true, SimulatedTrade.samePurchaseDay_iff]
  refine exists_congr fun row => and_congr_right fun _ => ?_
  rw [Bool.and_eq_true, Moment.sameDay_iff]
  simp only [SimulatedTradePayload.toRow, Bool.and_eq_true, decide_eq_true_eq, and_assoc]

inductive TradeAnswer where
  | success
  | alreadyRecorded
  deriving DecidableEq

def TradeAnswer.statusCode : TradeAnswer → Nat
  | success => 201
  | alreadyRecorded => 200

def TradeAnswer.status : TradeAnswer → String
  | success => "SUCCESS"
  | alreadyRecorded => "ALREADY_RECORDED"

/-- The paper trading metrics. -/
structure TradeMetrics where
  paperTradesExecutedTotal : Nat
  paperTradingEstimatedProfitTotal : Int
  deriving DecidableEq

def TradeMetrics.count (metrics : TradeMetrics) (payload : SimulatedTradePayload) :
    TradeMetrics where
  paperTradesExecutedTotal := metrics.paperTradesExecutedTotal + 1
  paperTradingEstimatedProfitTotal := match payload.estimatedProfitCents with
    | some cents => metrics.paperTradingEstimatedProfitTotal + cents
    | none => metrics.paperTradingEstimatedProfitTotal

/-! ## One request at a time -/

/-- The insert over rows that all committed. -/
def insertTrade (rows : List SimulatedTrade) (row : SimulatedTrade) :
    List SimulatedTrade × TradeAnswer :=
  if rows.any fun r => r.conflicts row then (rows, .alreadyRecorded)
  else (rows ++ [row], .success)

/-- The rows after a request and its answer, when no other request runs beside it. -/
def ingestSimulatedTrade (rows : List SimulatedTrade) (payload : SimulatedTradePayload)
    (itemId : Nat) (boughtAt : Moment) : List SimulatedTrade × TradeAnswer :=
  -- only a snapshot is looked up
  if payload.listingId.isNone && snapshotAlreadyBought rows payload itemId boughtAt then
    (rows, .alreadyRecorded)
  else insertTrade rows (payload.toRow itemId boughtAt)

end BrandSniper
