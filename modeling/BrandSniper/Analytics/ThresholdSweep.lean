import BrandSniper.Analytics.DecisionLog

/-!
# The threshold sweep

`sweep_thresholds` of `apps/analytics/baseline_scorecard.py`: which listings
other Z thresholds and savings floors approve, from one log of the sweep
strategy. A cell keeps the first approved decision of each listing; a row
without the features a cell reads raises, which is `none` here.
-/

namespace BrandSniper

open Kit

/-- `SWEEP_Z_THRESHOLDS` -/
def sweepZThresholds : List ℚ := [-3 / 2, -2, -5 / 2, -3]

/-- `SWEEP_MIN_SAVINGS_CENTS` -/
def sweepMinSavingsCents : List Int := [25, 50, 100, 200]

/-- `SWEEP_STRATEGIES` -/
def sweepStrategies : List StrategyName := [.zscoreDreSweep, .zscoreDreFeatures]

/-- `should_trigger_anomaly` with the thresholds as arguments. -/
def wouldTrigger (F : FloatArith) (zScore : Double) (meanCents : ℚ) (priceCents : Int)
    (stickerCount : Nat) (zThreshold stickerZThreshold : ℚ) (minSavingsCents : Int) : Bool :=
  let threshold := if stickerCount > 0 then stickerZThreshold else zThreshold
  if .finite threshold ≤ zScore then false
  else if stickerCount = 0 ∧
      F.sub meanCents (F.ofRat priceCents) < .finite minSavingsCents then false
  else true

/-- It is the listener's test, but for the sources that never trigger. -/
theorem shouldTriggerAnomaly_eq (F : FloatArith) (S : ZScoreSettings) (zScore : Double)
    (meanCents : ℚ) (tick : PricedTick) (source : ZScoreSource) :
    shouldTriggerAnomaly F S zScore meanCents tick source
      = (sourceCanTrigger S source
        && wouldTrigger F zScore meanCents tick.priceCents tick.stickers.length S.zScoreThreshold
          S.zScoreStickerThreshold S.minSavingsCents) := by
  unfold shouldTriggerAnomaly wouldTrigger
  cases sourceCanTrigger S source with
  | false => rfl
  | true => simp

/-- The verdict of the rules on a scored tick, fee floor included. -/
def dreWouldApprove (approve : Bool) (reason : String) (features : DecisionFeatures) : Bool :=
  if approve then true
  else if reason = reasonBelowThreshold then
    (features.dreReason.getD none).isSome && !features.belowFeeFloor.getD false
  else false

/-- The scored listings of the sweep. -/
def scoredListings (decisions : List ReadDecision) (start : Moment) : List ReadDecision :=
  decisions.filter fun decision =>
    decision.row.listingId.isSome && decision.score.isSome && decision.isScorable start

/-- The listings whose decisions are approved. -/
def approvedListings (scored : List ReadDecision) : List String :=
  (scored.filter fun decision => decision.row.approve).filterMap fun decision =>
    decision.row.listingId

/-- One decision of a cell. -/
def sweepDecision (F : FloatArith) (zThreshold stickerZThreshold : ℚ) (minSavingsCents : Int)
    (approved : OrderedDict String ReadDecision) (decision : ReadDecision) :
    Option (OrderedDict String ReadDecision) := do
  let score ← decision.score
  let meanCents ← decision.features.meanCents
  let stickerCount ← decision.features.stickerCount
  let listingId ← decision.row.listingId
  let triggered := wouldTrigger F score meanCents decision.row.priceCents stickerCount zThreshold
    stickerZThreshold minSavingsCents
  if triggered && dreWouldApprove decision.row.approve decision.row.reason decision.features
      && !approved.contains listingId then
    return approved.set listingId decision
  else return approved

def sweepCell (F : FloatArith) (scored : List ReadDecision) (zThreshold stickerZThreshold : ℚ)
    (minSavingsCents : Int) : Option (OrderedDict String ReadDecision) :=
  scored.foldlM (sweepDecision F zThreshold stickerZThreshold minSavingsCents) .empty

/-- A row of the sweep: its cell, and the listings it approves. -/
structure SweepRow where
  zThreshold : ℚ
  minSavingsCents : Int
  live : Bool
  approved : OrderedDict String ReadDecision

structure Sweep where
  stickerZThreshold : ℚ
  liveZ : ℚ
  liveSavings : Int
  liveInGrid : Bool
  liveMatchesLog : Bool
  rows : List SweepRow

inductive SweepReport where
  | unavailable
  | available (sweep : Sweep)

/-- Two lists are the same set. -/
def sameIds (a b : List String) : Bool := a.all (· ∈ b) && b.all (· ∈ a)

def sweepRow (F : FloatArith) (config : StrategyConfig) (scored : List ReadDecision)
    (cell : ℚ × Int) : Option SweepRow := do
  let approved ← sweepCell F scored cell.1 config.zScoreStickerThreshold cell.2
  return {
    zThreshold := cell.1
    minSavingsCents := cell.2
    live := decide (cell.1 = config.zScoreThreshold ∧ cell.2 = config.minSavingsCents)
    approved := approved }

/-- The grid, row by row. -/
def sweepGrid : List (ℚ × Int) :=
  sweepZThresholds.flatMap fun zThreshold => sweepMinSavingsCents.map fun minSavings =>
    (zThreshold, minSavings)

def sweepThresholds (F : FloatArith) (log : DecisionLog) (start : Moment) : Option SweepReport :=
  if log.header.strategy ∉ sweepStrategies then some .unavailable
  else do
    let config := log.header.config
    let scored := scoredListings log.decisions start
    let loggedApprovals := approvedListings scored
    let rows ← sweepGrid.mapM (sweepRow F config scored)
    return .available {
      stickerZThreshold := config.zScoreStickerThreshold
      liveZ := config.zScoreThreshold
      liveSavings := config.minSavingsCents
      liveInGrid := rows.any SweepRow.live
      -- The last live row decides; the grid has each cell once.
      liveMatchesLog := ((rows.filter SweepRow.live).getLast?.map fun row =>
        sameIds row.approved.keys loggedApprovals).getD false
      rows := rows }

/-! ## What a cell approves -/

/-- The decision has what a cell reads of it. -/
def Swept (decision : ReadDecision) : Prop :=
  decision.score.isSome ∧ decision.features.meanCents.isSome ∧
    decision.features.stickerCount.isSome ∧ decision.row.listingId.isSome

/-- The cell approves the decision. -/
def CellApproves (F : FloatArith) (zThreshold stickerZThreshold : ℚ) (minSavingsCents : Int)
    (decision : ReadDecision) : Prop :=
  dreWouldApprove decision.row.approve decision.row.reason decision.features = true ∧
    ∃ score ∈ decision.score, ∃ meanCents ∈ decision.features.meanCents,
      ∃ stickerCount ∈ decision.features.stickerCount,
        wouldTrigger F score meanCents decision.row.priceCents stickerCount zThreshold
          stickerZThreshold minSavingsCents = true

section

variable (F : FloatArith) (zThreshold stickerZThreshold : ℚ) (minSavingsCents : Int)

theorem sweepDecision_spec (approved : OrderedDict String ReadDecision) {decision : ReadDecision}
    (h : Swept decision) :
    ∃ approved', sweepDecision F zThreshold stickerZThreshold minSavingsCents approved decision
        = some approved' ∧
      ∀ listingId, approved'.contains listingId = true ↔
        approved.contains listingId = true ∨ (decision.row.listingId = some listingId ∧
          CellApproves F zThreshold stickerZThreshold minSavingsCents decision) := by
  obtain ⟨hscore, hmean, hstickers, hlisting⟩ := h
  obtain ⟨score, hscore⟩ := Option.isSome_iff_exists.mp hscore
  obtain ⟨meanCents, hmean⟩ := Option.isSome_iff_exists.mp hmean
  obtain ⟨stickerCount, hstickers⟩ := Option.isSome_iff_exists.mp hstickers
  obtain ⟨listing, hlisting⟩ := Option.isSome_iff_exists.mp hlisting
  have hcell : CellApproves F zThreshold stickerZThreshold minSavingsCents decision ↔
      dreWouldApprove decision.row.approve decision.row.reason decision.features = true ∧
        wouldTrigger F score meanCents decision.row.priceCents stickerCount zThreshold
          stickerZThreshold minSavingsCents = true := by
    simp [CellApproves, hscore, hmean, hstickers]
  rw [hcell]
  simp only [sweepDecision, hscore, hmean, hstickers, hlisting, Option.bind_eq_bind,
    Option.bind_some, Option.pure_def, Option.some.injEq]
  split
  · rename_i htaken
    simp only [Bool.and_eq_true, Bool.not_eq_true'] at htaken
    refine ⟨_, rfl, fun listingId => ?_⟩
    rw [OrderedDict.contains_set]
    by_cases hid : listing = listingId <;> simp [hid, htaken.1.1, htaken.1.2]
  · rename_i hskipped
    refine ⟨_, rfl, fun listingId => ?_⟩
    simp only [Bool.and_eq_true, Bool.not_eq_true', not_and, Bool.not_eq_false] at hskipped
    constructor
    · exact .inl
    · rintro (h | ⟨rfl, hverdict, htriggered⟩)
      · exact h
      · exact hskipped ⟨htriggered, hverdict⟩

theorem foldlM_sweepDecision (approved : OrderedDict String ReadDecision)
    {scored : List ReadDecision} (h : ∀ decision ∈ scored, Swept decision) :
    ∃ approved', scored.foldlM
        (sweepDecision F zThreshold stickerZThreshold minSavingsCents) approved = some approved' ∧
      ∀ listingId, approved'.contains listingId = true ↔
        approved.contains listingId = true ∨ ∃ decision ∈ scored,
          decision.row.listingId = some listingId ∧
          CellApproves F zThreshold stickerZThreshold minSavingsCents decision := by
  induction scored generalizing approved with
  | nil => exact ⟨approved, rfl, fun listingId => by simp⟩
  | cons decision scored ih =>
      obtain ⟨next, hstep, hnext⟩ := sweepDecision_spec F zThreshold stickerZThreshold
        minSavingsCents approved (h decision List.mem_cons_self)
      obtain ⟨last, hrest, hlast⟩ := ih next
        fun other hmem => h other (List.mem_cons_of_mem _ hmem)
      refine ⟨last, ?_, fun listingId => ?_⟩
      · rw [List.foldlM_cons, hstep]
        exact hrest
      · rw [hlast, hnext]
        simp only [List.mem_cons, exists_eq_or_imp, or_assoc]

/-- A cell approves the listings that have a decision it approves. -/
theorem sweepCell_spec {scored : List ReadDecision} (h : ∀ decision ∈ scored, Swept decision) :
    ∃ approved, sweepCell F scored zThreshold stickerZThreshold minSavingsCents = some approved ∧
      ∀ listingId, listingId ∈ approved.keys ↔ ∃ decision ∈ scored,
        decision.row.listingId = some listingId ∧
          CellApproves F zThreshold stickerZThreshold minSavingsCents decision := by
  obtain ⟨approved, hfold, happroved⟩ := foldlM_sweepDecision F zThreshold stickerZThreshold
    minSavingsCents .empty h
  refine ⟨approved, hfold, fun listingId => ?_⟩
  rw [← OrderedDict.contains_iff_mem, happroved]
  simp

end

end BrandSniper
