import BrandSniper.Analytics.ThresholdSweep
import BrandSniper.Backtest.Shadow

/-!
# The sweep against replays

A cell of the threshold sweep against a replay of the same stream with the
cell's thresholds as the live ones. The thresholds move no window and no
cache, and the sweep strategy logs the verdict of the rules on every tick
that could trigger, so the two differ only in what is compared with the
thresholds: the replay compares the scores, the sweep their values in the
log, which are rounded to six digits (`sweepIsReplay_iff`).
-/

namespace BrandSniper

open Kit

/-- The settings with another Z threshold and savings floor. -/
def DetectionSettings.withThresholds (S : DetectionSettings) (zThreshold : ℚ)
    (minSavingsCents : Int) : DetectionSettings :=
  { S with
    zscore := { S.zscore with
      zScoreThreshold := zThreshold
      minSavingsCents := minSavingsCents } }

/-! ## One decision -/

section

variable {C : Type} [EdgeCache C] (F : FloatArith) (S : DetectionSettings) (tick : PricedTick)

/-- The verdict of the rules on a tick, and whether the fee floor rejects it. -/
structure Judged (cache : C) (baseline : Option Baseline) (rule : Option ApprovalReason)
    (belowFloor : Bool) : Prop where
  dre : dreApprovalReason F tick cache baseline = .ok rule
  floor : ∀ reason, rule = some reason → ∃ estimate,
    estimateNetProfitCents tick (baseline.getD .empty) = .ok estimate ∧
      belowFeeFloor S reason estimate = belowFloor

variable {F S tick} {cache : C} {score : WindowScore}

theorem sweepInputs_judged {features features' : DecisionFeatures}
    (h : ZScoreDreStrategy.sweepInputs F S tick cache score.baseline features = .ok features') :
    ∃ rule belowFloor, Judged F S tick cache score.baseline rule belowFloor ∧
      features'.dreReason = some rule ∧ features'.meanCents = features.meanCents ∧
      features'.stickerCount = features.stickerCount ∧
      (rule.isSome = true → features'.belowFeeFloor = some belowFloor) := by
  obtain ⟨rule, hdre, h⟩ := bind_eq_ok h
  cases rule with
  | none =>
      cases h
      exact ⟨none, false, ⟨hdre, by simp⟩, rfl, rfl, rfl, by simp⟩
  | some reason =>
      obtain ⟨estimate, hestimate, h⟩ := bind_eq_ok h
      cases h
      refine ⟨some reason, belowFeeFloor S reason estimate, ⟨hdre, ?_⟩, rfl, rfl, rfl,
        fun _ => rfl⟩
      rintro _ ⟨⟩
      exact ⟨estimate, hestimate, rfl⟩

/-- The sweep inputs are there whenever the rules can judge the tick. -/
theorem sweepInputs_of_judged {rule : Option ApprovalReason} {belowFloor : Bool}
    (h : Judged F S tick cache score.baseline rule belowFloor) (features : DecisionFeatures) :
    ∃ features',
      ZScoreDreStrategy.sweepInputs F S tick cache score.baseline features = .ok features' := by
  unfold ZScoreDreStrategy.sweepInputs
  rw [h.dre]
  cases rule with
  | none => exact ⟨_, rfl⟩
  | some reason =>
      obtain ⟨estimate, hestimate, _⟩ := h.floor reason rfl
      simp only [bind, Except.bind, hestimate]
      exact ⟨_, rfl⟩

/-- What the sweep strategy logs of a scored tick: its score, and the verdict of the rules
unless its source never triggers. -/
structure SweptDecision (F : FloatArith) (S : DetectionSettings) (tick : PricedTick) (cache : C)
    (score : WindowScore) (decision : Decision) : Prop where
  zScore : decision.score = some score.zScore
  meanCents : decision.features.meanCents = some score.meanCents
  stickerCount : decision.features.stickerCount = some tick.stickers.length
  verdict : (sourceCanTrigger S.zscore score.source = false ∧
      dreWouldApprove decision.approve decision.reason decision.features = false) ∨
    (sourceCanTrigger S.zscore score.source = true ∧ ∃ rule belowFloor,
      Judged F S tick cache score.baseline rule belowFloor ∧
      dreWouldApprove decision.approve decision.reason decision.features
        = (rule.isSome && !belowFloor))

theorem dreWouldApprove_of_approve (reason : String) (features : DecisionFeatures) :
    dreWouldApprove true reason features = true := rfl

theorem dreWouldApprove_of_reason (reason : String) (h : reason ≠ reasonBelowThreshold)
    (features : DecisionFeatures) : dreWouldApprove false reason features = false := by
  rw [dreWouldApprove, if_neg Bool.false_ne_true, if_neg h]

theorem dreWouldApprove_belowThreshold (features : DecisionFeatures) :
    dreWouldApprove false reasonBelowThreshold features
      = ((features.dreReason.getD none).isSome && !features.belowFeeFloor.getD false) := rfl

theorem sweptDecision_of_decideScored {decision : Decision}
    (h : ZScoreDreStrategy.decideScored F S true tick cache (some score) = .ok decision) :
    SweptDecision F S tick cache score decision := by
  unfold ZScoreDreStrategy.decideScored at h
  by_cases hsource : sourceCanTrigger S.zscore score.source = true
  · simp only [hsource, not_true, if_false, if_true] at h
    by_cases htrigger : shouldTriggerAnomaly F S.zscore score.zScore score.meanCents tick
        score.source = true
    · simp only [htrigger, not_true, if_false] at h
      cases hdre : dreApprovalReason F tick cache score.baseline with
      | error e =>
          rw [hdre] at h
          cases h
      | ok rule =>
          rw [hdre] at h
          cases rule with
          | none =>
              cases h
              refine ⟨rfl, rfl, rfl, .inr ⟨hsource, none, false, ⟨hdre, by simp⟩, ?_⟩⟩
              exact dreWouldApprove_of_reason reasonDreRejected (by decide) _
          | some reason =>
              cases hestimate : estimateNetProfitCents tick (score.baseline.getD .empty) with
              | error e =>
                  simp only [bind, Except.bind, hestimate] at h
                  cases h
              | ok estimate =>
                  have hjudged : Judged F S tick cache score.baseline (some reason)
                      (belowFeeFloor S reason estimate) := by
                    refine ⟨hdre, ?_⟩
                    rintro _ ⟨⟩
                    exact ⟨estimate, hestimate, rfl⟩
                  simp only [bind, Except.bind, hestimate] at h
                  by_cases hfloor : belowFeeFloor S reason estimate = true
                  · rw [if_pos hfloor] at h
                    cases h
                    refine ⟨rfl, rfl, rfl, .inr ⟨hsource, _, _, hjudged, ?_⟩⟩
                    rw [hfloor]
                    exact dreWouldApprove_of_reason reasonBelowFeeFloor (by decide) _
                  · rw [if_neg hfloor] at h
                    cases h
                    refine ⟨rfl, rfl, rfl, .inr ⟨hsource, _, _, hjudged, ?_⟩⟩
                    rw [Bool.not_eq_true] at hfloor
                    rw [hfloor]
                    exact dreWouldApprove_of_approve _ _
    · simp only [htrigger] at h
      cases hinputs : ZScoreDreStrategy.sweepInputs F S tick cache score.baseline
          { DecisionFeatures.empty with
            meanCents := some score.meanCents
            windowSize := some score.windowSize
            zSource := some score.source
            stickerCount := some tick.stickers.length } with
      | error e =>
          simp only [bind, Except.bind, hinputs] at h
          cases h
      | ok features =>
          simp only [bind, Except.bind, hinputs, pure, Except.pure] at h
          cases h
          obtain ⟨rule, belowFloor, hjudged, hreason, hmean, hstickers, hfloor⟩ :=
            sweepInputs_judged hinputs
          refine ⟨rfl, hmean, hstickers, .inr ⟨hsource, rule, belowFloor, hjudged, ?_⟩⟩
          rw [dreWouldApprove_belowThreshold, hreason]
          cases rule with
          | none => rfl
          | some reason =>
              rw [hfloor rfl]
              rfl
  · simp only [hsource, if_true] at h
    cases h
    rw [Bool.not_eq_true] at hsource
    refine ⟨rfl, rfl, rfl, .inl ⟨hsource, ?_⟩⟩
    exact dreWouldApprove_of_reason reasonMacroOnly (by decide) _

/-- Any settings with the same rules decide a judged tick: they approve it when it triggers and
the rules and the floor let it pass. -/
theorem decideScored_of_judged (S' : DetectionSettings) (hfee : S'.feeFloor = S.feeFloor)
    {rule : Option ApprovalReason} {belowFloor : Bool}
    (hjudged : Judged F S tick cache score.baseline rule belowFloor)
    (hsource : sourceCanTrigger S'.zscore score.source = true) (recordsSweepInputs : Bool) :
    ∃ decision, ZScoreDreStrategy.decideScored F S' recordsSweepInputs tick cache (some score)
        = .ok decision ∧ decision.score = some score.zScore ∧
      decision.approve = (shouldTriggerAnomaly F S'.zscore score.zScore score.meanCents tick
        score.source && (rule.isSome && !belowFloor)) := by
  have hjudged : Judged F S' tick cache score.baseline rule belowFloor := by
    refine ⟨hjudged.dre, fun reason hreason => ?_⟩
    obtain ⟨estimate, hestimate, hfloor⟩ := hjudged.floor reason hreason
    refine ⟨estimate, hestimate, ?_⟩
    rw [← hfloor]
    simp only [belowFeeFloor, hfee]
  unfold ZScoreDreStrategy.decideScored
  simp only [hsource, not_true, if_false]
  by_cases htrigger : shouldTriggerAnomaly F S'.zscore score.zScore score.meanCents tick
      score.source = true
  · simp only [htrigger, not_true, if_false, hjudged.dre]
    cases rule with
    | none => exact ⟨_, rfl, rfl, rfl⟩
    | some reason =>
        obtain ⟨estimate, hestimate, hfloor⟩ := hjudged.floor reason rfl
        simp only [bind, Except.bind, hestimate, hfloor]
        cases belowFloor with
        | true => exact ⟨_, rfl, rfl, rfl⟩
        | false => exact ⟨_, rfl, rfl, rfl⟩
  · simp only [htrigger]
    cases recordsSweepInputs with
    | false => exact ⟨_, rfl, rfl, rfl⟩
    | true =>
        obtain ⟨features, hinputs⟩ := sweepInputs_of_judged hjudged
          { DecisionFeatures.empty with
            meanCents := some score.meanCents
            windowSize := some score.windowSize
            zSource := some score.source
            stickerCount := some tick.stickers.length }
        simp only [bind, Except.bind, if_true, hinputs]
        exact ⟨_, rfl, rfl, rfl⟩

theorem decideScored_of_source (S' : DetectionSettings)
    (hsource : sourceCanTrigger S'.zscore score.source = false) (recordsSweepInputs : Bool) :
    ∃ decision, ZScoreDreStrategy.decideScored F S' recordsSweepInputs tick cache (some score)
        = .ok decision ∧ decision.score = some score.zScore ∧ decision.approve = false := by
  unfold ZScoreDreStrategy.decideScored
  simp only [hsource, Bool.false_eq_true, not_false_iff, if_true]
  exact ⟨_, rfl, rfl, rfl⟩

end

/-! ## Two replays -/

/-- A decision of the sweep strategy, and the one of a replay with the cell's thresholds: that
one approves when the rules do and the unrounded score triggers. -/
structure CellVerdict (F : FloatArith) (S : DetectionSettings) (cell : ℚ × Int)
    (tick : PricedTick) (swept decision : Decision) : Prop where
  inputs : swept.score.isSome = true → swept.features.meanCents.isSome = true ∧
    swept.features.stickerCount = some tick.stickers.length
  scored : decision.approve = true → decision.score.isSome = true
  approves : decision.approve = true ↔
    dreWouldApprove swept.approve swept.reason swept.features = true ∧
      ∃ score ∈ swept.score, ∃ meanCents ∈ swept.features.meanCents,
        wouldTrigger F score meanCents tick.priceCents tick.stickers.length cell.1
          S.zscore.zScoreStickerThreshold cell.2 = true

theorem CellVerdict.unscored (F : FloatArith) (S : DetectionSettings) (cell : ℚ × Int)
    (tick : PricedTick) (reason : String) :
    CellVerdict F S cell tick (.unscored reason) (.unscored reason) where
  inputs h := absurd h Bool.false_ne_true
  scored h := absurd h Bool.false_ne_true
  approves := by
    constructor
    · exact fun h => absurd h Bool.false_ne_true
    · rintro ⟨_, score, hscore, _⟩
      cases hscore

theorem sourceCanTrigger_withThresholds (S : DetectionSettings) (cell : ℚ × Int)
    (source : ZScoreSource) :
    sourceCanTrigger (S.withThresholds cell.1 cell.2).zscore source
      = sourceCanTrigger S.zscore source := rfl

section

variable {C : Type} [EdgeCache C] {F : FloatArith} {S : DetectionSettings} {tick : PricedTick}
  {cache : C}

theorem decideScored_cell (cell : ℚ × Int) (recordsSweepInputs : Bool)
    {windowScore : Option WindowScore} {swept : Decision}
    (h : ZScoreDreStrategy.decideScored F S true tick cache windowScore = .ok swept) :
    ∃ decision, ZScoreDreStrategy.decideScored F (S.withThresholds cell.1 cell.2)
        recordsSweepInputs tick cache windowScore = .ok decision ∧
      CellVerdict F S cell tick swept decision := by
  cases windowScore with
  | none =>
      cases h
      exact ⟨_, rfl, .unscored F S cell tick reasonInsufficientHistory⟩
  | some score =>
      have hswept := sweptDecision_of_decideScored h
      have hinputs : swept.score.isSome = true → swept.features.meanCents.isSome = true ∧
          swept.features.stickerCount = some tick.stickers.length := fun _ =>
        ⟨by rw [hswept.meanCents]; rfl, hswept.stickerCount⟩
      have htriggers : (∃ score' ∈ swept.score, ∃ meanCents ∈ swept.features.meanCents,
          wouldTrigger F score' meanCents tick.priceCents tick.stickers.length cell.1
            S.zscore.zScoreStickerThreshold cell.2 = true) ↔
          wouldTrigger F score.zScore score.meanCents tick.priceCents tick.stickers.length cell.1
            S.zscore.zScoreStickerThreshold cell.2 = true := by
        simp [hswept.zScore, hswept.meanCents]
      rcases hswept.verdict with ⟨hsource, hverdict⟩ | ⟨hsource, rule, belowFloor, hjudged, hverdict⟩
      · rw [← sourceCanTrigger_withThresholds S cell] at hsource
        obtain ⟨decision, hdecide, hscore, happrove⟩ : ∃ decision,
            ZScoreDreStrategy.decideScored F (S.withThresholds cell.1 cell.2) recordsSweepInputs
              tick cache (some score) = .ok decision ∧
            decision.score = some score.zScore ∧ decision.approve = false :=
          decideScored_of_source _ hsource recordsSweepInputs
        have hscored : decision.approve = true → decision.score.isSome = true := fun _ =>
          hscore ▸ rfl
        refine ⟨decision, hdecide, hinputs, hscored, ?_⟩
        rw [happrove, hverdict]
        simp
      · rw [← sourceCanTrigger_withThresholds S cell] at hsource
        have hfee : (S.withThresholds cell.1 cell.2).feeFloor = S.feeFloor := rfl
        obtain ⟨decision, hdecide, hscore, happrove⟩ :=
          decideScored_of_judged _ hfee hjudged hsource recordsSweepInputs
        have hscored : decision.approve = true → decision.score.isSome = true := fun _ =>
          hscore ▸ rfl
        refine ⟨decision, hdecide, hinputs, hscored, ?_⟩
        rw [happrove, htriggers, hverdict, shouldTriggerAnomaly_eq, hsource, Bool.true_and,
          Bool.and_eq_true, and_comm]
        rfl

end

/-- The thresholds route no item and score no window. -/
theorem replayItem_withThresholds {M : Type} (strategy : Strategy M) (S : DetectionSettings)
    (cell : ℚ × Int) :
    strategy.replayItem (S.withThresholds cell.1 cell.2) = strategy.replayItem S := rfl

theorem scoreWindow_withThresholds (F : FloatArith) (S : DetectionSettings) (cell : ℚ × Int)
    (tick : PricedTick) (store : InMemoryEdgeStore) :
    scoreWindow F (S.withThresholds cell.1 cell.2) .none tick store
      = scoreWindow F S .none tick store := rfl

/-- A replay with the cell's thresholds follows the one of the sweep strategy. -/
theorem cell_shadows (F : FloatArith) (S : DetectionSettings) (cell : ℚ × Int)
    (recordsSweepInputs : Bool) :
    Shadows (ZScoreDreStrategy.strategy F S true)
      (ZScoreDreStrategy.strategy F (S.withThresholds cell.1 cell.2) recordsSweepInputs)
      (fun _ _ => True) (CellVerdict F S cell) where
  start := trivial
  decide m n tick store m' swept _ h := by
    unfold ZScoreDreStrategy.strategy at h ⊢
    simp only [scoreWindow_withThresholds] at h ⊢
    obtain ⟨windowScore, hscore, h⟩ := bind_eq_ok h
    obtain ⟨decision, hdecide, h⟩ := bind_eq_ok h
    cases h
    obtain ⟨decision', hdecide', hverdict⟩ := decideScored_cell cell recordsSweepInputs hdecide
    refine ⟨(), decision', ?_, trivial, hverdict⟩
    simp only [hscore, bind, Except.bind, hdecide', pure, Except.pure]
  unscored tick reason := .unscored F S cell tick reason

theorem replayEvents_withThresholds {M : Type} (strategy : Strategy M) (S : DetectionSettings)
    (cell : ℚ × Int) (schedule : BaselineSchedule) (logFromMs : Option Int)
    (st : ScheduledReplay M) (events : List RecordedEvent) :
    strategy.replayEvents (S.withThresholds cell.1 cell.2) schedule logFromMs st events
      = strategy.replayEvents S schedule logFromMs st events := by
  have hevent : strategy.replayEvent (S.withThresholds cell.1 cell.2) schedule logFromMs
      = strategy.replayEvent S schedule logFromMs := rfl
  induction events generalizing st with
  | nil => rfl
  | cons event events ih => simp only [Strategy.replayEvents, hevent, ih]

theorem runReplay_withThresholds {M : Type} (strategy : Strategy M) (S : DetectionSettings)
    (cell : ℚ × Int) (schedule : BaselineSchedule) (source : ReplaySource)
    (logFromMs : Option Int) (events : List RecordedEvent) :
    strategy.runReplay (S.withThresholds cell.1 cell.2) schedule source logFromMs events
      = strategy.runReplay S schedule source logFromMs events := by
  unfold Strategy.runReplay
  rw [replayEvents_withThresholds]

/-! ## The scored listings of two logs -/

/-- A logged decision of a listing in two logs: the tick, the mark, and the two decisions. -/
structure Twin (V : PricedTick → Decision → Decision → Prop) (a b : MarkedRecord) : Prop where
  tick : a.record.tick = b.record.tick
  lookAhead : a.lookAhead = b.lookAhead
  verdict : V a.record.tick a.record.decision b.record.decision

theorem exists_of_forall₂ {α β : Type} {R : α → β → Prop} {a : List α} {b : List β}
    (h : List.Forall₂ R a b) :
    (∀ x ∈ a, ∃ y ∈ b, R x y) ∧ ∀ y ∈ b, ∃ x ∈ a, R x y := by
  induction h with
  | nil => simp
  | cons hhead _ ih =>
      constructor
      · rintro x (_ | ⟨_, hmem⟩)
        · exact ⟨_, List.mem_cons_self, hhead⟩
        · obtain ⟨y, hy, hrel⟩ := ih.1 x hmem
          exact ⟨y, List.mem_cons_of_mem _ hy, hrel⟩
      · rintro y (_ | ⟨_, hmem⟩)
        · exact ⟨_, List.mem_cons_self, hhead⟩
        · obtain ⟨x, hx, hrel⟩ := ih.2 y hmem
          exact ⟨x, List.mem_cons_of_mem _ hx, hrel⟩

theorem mem_listingDecisions {records : List DecisionRecord} {pair : PricedTick × Decision} :
    pair ∈ listingDecisions records ↔ ∃ record ∈ records,
      record.tick.listingId.isSome = true ∧ (record.tick, record.decision) = pair := by
  simp [listingDecisions, and_assoc]

section

variable {V : PricedTick → Decision → Decision → Prop}

theorem mark_of_sameEvent {a b : EventLog} (h : SameEvent V a b) (mark : Option Int × Bool) :
    a.mark mark = b.mark mark := by
  rw [EventLog.mark, EventLog.mark, h.2.1]

/-- Every listing's record has its twin in the other log. -/
theorem exists_twin {entries entries' : List EventLog}
    (h : List.Forall₂ (SameEvent V) entries entries') (mark : Option Int × Bool) :
    (∀ a ∈ markedRecords mark entries, a.record.tick.listingId.isSome = true →
        ∃ b ∈ markedRecords mark entries', Twin V a b) ∧
      ∀ b ∈ markedRecords mark entries', b.record.tick.listingId.isSome = true →
        ∃ a ∈ markedRecords mark entries, Twin V a b := by
  induction h generalizing mark with
  | nil => simp [markedRecords]
  | cons hevent _ ih =>
      obtain ⟨hforth, hback⟩ := exists_of_forall₂ hevent.2.2
      obtain ⟨ihforth, ihback⟩ := ih (EventLog.mark _ mark)
      rw [markedRecords, markedRecords, ← mark_of_sameEvent hevent mark]
      constructor
      · intro a hmem hlisting
        rcases List.mem_append.mp hmem with hhere | hlater
        · obtain ⟨record, hrecord, rfl⟩ := List.mem_map.mp hhere
          obtain ⟨pair, hpair, htick, hverdict⟩ :=
            hforth _ (mem_listingDecisions.mpr ⟨record, hrecord, hlisting, rfl⟩)
          obtain ⟨record', hrecord', _, rfl⟩ := mem_listingDecisions.mp hpair
          exact ⟨_, List.mem_append_left _ (List.mem_map_of_mem hrecord'), htick, rfl, hverdict⟩
        · obtain ⟨b, hb, htwin⟩ := ihforth a hlater hlisting
          exact ⟨b, List.mem_append_right _ hb, htwin⟩
      · intro b hmem hlisting
        rcases List.mem_append.mp hmem with hhere | hlater
        · obtain ⟨record', hrecord', rfl⟩ := List.mem_map.mp hhere
          obtain ⟨pair, hpair, htick, hverdict⟩ :=
            hback _ (mem_listingDecisions.mpr ⟨record', hrecord', hlisting, rfl⟩)
          obtain ⟨record, hrecord, _, rfl⟩ := mem_listingDecisions.mp hpair
          exact ⟨_, List.mem_append_left _ (List.mem_map_of_mem hrecord), htick, rfl, hverdict⟩
        · obtain ⟨a, ha, htwin⟩ := ihback b hlater hlisting
          exact ⟨a, List.mem_append_right _ ha, htwin⟩

end

/-! ## Rounded and unrounded triggers -/

/-- A logged decision is scorable from this start on. -/
def MarkedRecord.isScorable (marked : MarkedRecord) (start : Moment) : Bool :=
  !marked.lookAhead && start.le (utcFromtimestampNaive marked.record.tick.timestamp)

/-- Some scorable decision of the listing has the verdict of the rules, and its score and mean,
as `view` shows them, trigger. -/
def TriggersListing (F : FloatArith) (view : ℚ → ℚ) (marked : List MarkedRecord) (start : Moment)
    (zThreshold stickerZThreshold : ℚ) (minSavingsCents : Int) (listingId : String) : Prop :=
  ∃ m ∈ marked, m.record.tick.listingId = some listingId ∧ m.isScorable start = true ∧
    dreWouldApprove m.record.decision.approve m.record.decision.reason m.record.decision.features
      = true ∧
    ∃ score ∈ m.record.decision.score, ∃ meanCents ∈ m.record.decision.features.meanCents,
      wouldTrigger F (score.map view) (view meanCents) m.record.tick.priceCents
        m.record.tick.stickers.length zThreshold stickerZThreshold minSavingsCents = true

theorem mem_scoredListings {F : FloatArith} {marked : List MarkedRecord} {start : Moment}
    {decision : ReadDecision} :
    decision ∈ scoredListings (marked.map (MarkedRecord.read F)) start ↔
      ∃ m ∈ marked, m.read F = decision ∧ m.record.tick.listingId.isSome = true ∧
        m.record.decision.score.isSome = true ∧ m.isScorable start = true := by
  simp only [scoredListings, List.mem_filter, List.mem_map, Bool.and_eq_true]
  constructor
  · rintro ⟨⟨m, hmem, rfl⟩, ⟨hlisting, hscore⟩, hscorable⟩
    exact ⟨m, hmem, rfl, hlisting, (Option.isSome_map ▸ hscore :), hscorable⟩
  · rintro ⟨m, hmem, rfl, hlisting, hscore, hscorable⟩
    exact ⟨⟨m, hmem, rfl⟩, ⟨hlisting, (Option.isSome_map.symm ▸ hscore :)⟩, hscorable⟩

/-- The approvals of a log are the triggers of its twin's unrounded scores. -/
theorem mem_approvedListings (F : FloatArith) (start : Moment) {S : DetectionSettings}
    {cell : ℚ × Int} {marked marked' : List MarkedRecord}
    (hforth : ∀ a ∈ marked, a.record.tick.listingId.isSome = true →
      ∃ b ∈ marked', Twin (CellVerdict F S cell) a b)
    (hback : ∀ b ∈ marked', b.record.tick.listingId.isSome = true →
      ∃ a ∈ marked, Twin (CellVerdict F S cell) a b) (listingId : String) :
    listingId ∈ approvedListings (scoredListings (marked'.map (MarkedRecord.read F)) start) ↔
      TriggersListing F id marked start cell.1 S.zscore.zScoreStickerThreshold cell.2
        listingId := by
  simp only [approvedListings, List.mem_filterMap, List.mem_filter, mem_scoredListings]
  constructor
  · rintro ⟨_, ⟨⟨b, hb, rfl, hsome, hscore, hscorable⟩, happrove⟩, hlisting⟩
    obtain ⟨a, ha, htwin⟩ := hback b hb hsome
    obtain ⟨hdre, htriggers⟩ := htwin.verdict.approves.mp happrove
    refine ⟨a, ha, ?_, ?_, hdre, by simpa only [Double.map_id, id_eq] using htriggers⟩
    · rw [htwin.tick]
      exact hlisting
    · rw [MarkedRecord.isScorable, htwin.tick, htwin.lookAhead]
      exact hscorable
  · rintro ⟨a, ha, hlisting, hscorable, hdre, htriggers⟩
    obtain ⟨b, hb, htwin⟩ := hforth a ha (by rw [hlisting]; rfl)
    simp only [Double.map_id, id_eq] at htriggers
    have happrove := htwin.verdict.approves.mpr ⟨hdre, htriggers⟩
    have hscorable' : b.isScorable start = true := by
      rw [MarkedRecord.isScorable, ← htwin.tick, ← htwin.lookAhead]
      exact hscorable
    rw [htwin.tick] at hlisting
    exact ⟨b.read F, ⟨⟨b, hb, rfl, by rw [hlisting]; rfl, htwin.verdict.scored happrove,
      hscorable'⟩, happrove⟩, hlisting⟩

/-- The scored listings of a sweep log have what a cell reads. -/
theorem swept_of_scored {F : FloatArith} {S : DetectionSettings} {cell : ℚ × Int}
    {marked marked' : List MarkedRecord} {start : Moment}
    (hforth : ∀ a ∈ marked, a.record.tick.listingId.isSome = true →
      ∃ b ∈ marked', Twin (CellVerdict F S cell) a b) :
    ∀ decision ∈ scoredListings (marked.map (MarkedRecord.read F)) start, Swept decision := by
  intro decision hdecision
  obtain ⟨a, ha, rfl, hlisting, hscore, _⟩ := mem_scoredListings.mp hdecision
  obtain ⟨b, _, htwin⟩ := hforth a ha hlisting
  obtain ⟨hmean, hstickers⟩ := htwin.verdict.inputs hscore
  refine ⟨?_, ?_, ?_, hlisting⟩
  · exact (Option.isSome_map.symm ▸ hscore :)
  · exact (Option.isSome_map.symm ▸ hmean :)
  · show a.record.decision.features.stickerCount.isSome = true
    rw [hstickers]
    rfl

/-- A cell approves the triggers of the rounded scores. -/
theorem mem_cell_iff {F : FloatArith} {S : DetectionSettings} {cell : ℚ × Int}
    {marked marked' : List MarkedRecord} {start : Moment} {stickerZThreshold : ℚ}
    (hforth : ∀ a ∈ marked, a.record.tick.listingId.isSome = true →
      ∃ b ∈ marked', Twin (CellVerdict F S cell) a b) (listingId : String) :
    (∃ decision ∈ scoredListings (marked.map (MarkedRecord.read F)) start,
        decision.row.listingId = some listingId ∧
          CellApproves F cell.1 stickerZThreshold cell.2 decision) ↔
      TriggersListing F (roundFloat F) marked start cell.1 stickerZThreshold cell.2
        listingId := by
  constructor
  · rintro ⟨decision, hdecision, hlisting, hdre, score, hscore, meanCents, hmean, stickers,
      hstickers, htriggered⟩
    obtain ⟨a, ha, rfl, hsome, hscored, hscorable⟩ := mem_scoredListings.mp hdecision
    obtain ⟨b, _, htwin⟩ := hforth a ha hsome
    have hcount := (htwin.verdict.inputs hscored).2
    obtain ⟨score, hraw, rfl⟩ := Option.map_eq_some_iff.mp hscore
    obtain ⟨meanCents, hraw', rfl⟩ := Option.map_eq_some_iff.mp hmean
    have hstickers : a.record.decision.features.stickerCount = some stickers := hstickers
    rw [hcount] at hstickers
    cases hstickers
    exact ⟨a, ha, hlisting, hscorable, hdre, score, hraw, meanCents, hraw', htriggered⟩
  · rintro ⟨a, ha, hlisting, hscorable, hdre, score, hscore, meanCents, hmean, htriggered⟩
    have hsome : a.record.tick.listingId.isSome = true := by
      rw [hlisting]
      rfl
    have hscored : a.record.decision.score.isSome = true := Option.isSome_of_mem hscore
    obtain ⟨b, _, htwin⟩ := hforth a ha hsome
    have hcount := (htwin.verdict.inputs hscored).2
    exact ⟨a.read F, mem_scoredListings.mpr ⟨a, ha, rfl, hsome, hscored, hscorable⟩, hlisting,
      hdre, _, Option.mem_map_of_mem _ hscore, _, Option.mem_map_of_mem _ hmean, _, hcount,
      htriggered⟩

/-! ## The rows of the sweep -/

theorem mapM_some {α β : Type} {f : α → Option β} {l : List α}
    (h : ∀ a ∈ l, ∃ b, f a = some b) :
    ∃ bs, l.mapM f = some bs ∧ ∀ b, b ∈ bs ↔ ∃ a ∈ l, f a = some b := by
  induction l with
  | nil => exact ⟨[], rfl, by simp⟩
  | cons a l ih =>
      obtain ⟨b, hb⟩ := h a List.mem_cons_self
      obtain ⟨bs, hbs, hmem⟩ := ih fun x hx => h x (List.mem_cons_of_mem _ hx)
      refine ⟨b :: bs, by rw [List.mapM_cons, hb, hbs]; rfl, fun c => ?_⟩
      rw [List.mem_cons, hmem]
      simp [hb, eq_comm]

/-- The row of a cell, in a log of the sweep strategy. -/
theorem sweepRow_spec (F : FloatArith) (config : StrategyConfig) {scored : List ReadDecision}
    (h : ∀ decision ∈ scored, Swept decision) (cell : ℚ × Int) :
    ∃ row, sweepRow F config scored cell = some row ∧
      (row.zThreshold, row.minSavingsCents) = cell ∧
      (row.live = true ↔ cell = (config.zScoreThreshold, config.minSavingsCents)) ∧
      ∀ listingId, listingId ∈ row.approved.keys ↔ ∃ decision ∈ scored,
        decision.row.listingId = some listingId ∧
          CellApproves F cell.1 config.zScoreStickerThreshold cell.2 decision := by
  obtain ⟨approved, hcell, happroved⟩ :=
    sweepCell_spec F cell.1 config.zScoreStickerThreshold cell.2 h
  refine ⟨_, by rw [sweepRow, hcell]; rfl, rfl, ?_, happroved⟩
  rw [decide_eq_true_iff, Prod.ext_iff]

/-- The sweep of a log, row by row. -/
theorem sweepThresholds_spec (F : FloatArith) {log : DecisionLog} {start : Moment}
    (hstrategy : log.header.strategy ∈ sweepStrategies)
    (h : ∀ decision ∈ scoredListings log.decisions start, Swept decision) :
    ∃ sweep, sweepThresholds F log start = some (.available sweep) ∧
      ∀ row, row ∈ sweep.rows ↔ ∃ cell ∈ sweepGrid,
        sweepRow F log.header.config (scoredListings log.decisions start) cell = some row := by
  have hcells : ∀ cell ∈ sweepGrid, ∃ row,
      sweepRow F log.header.config (scoredListings log.decisions start) cell = some row := by
    intro cell _
    obtain ⟨row, hrow, _⟩ := sweepRow_spec F log.header.config h cell
    exact ⟨row, hrow⟩
  obtain ⟨rows, hrows, hmem⟩ := mapM_some hcells
  unfold sweepThresholds
  rw [if_neg (not_not.mpr hstrategy)]
  simp only [hrows]
  exact ⟨_, rfl, hmem⟩

/-! ## The sweep against a replay -/

/-- The header of a replay. -/
theorem runReplay_header {M : Type} {S : DetectionSettings} {strategy : Strategy M}
    {schedule : BaselineSchedule} {source : ReplaySource} {logFromMs : Option Int}
    {events : List RecordedEvent} {log : ReplayLog}
    (h : strategy.runReplay S schedule source logFromMs events = .ok log) :
    log.header.strategy = strategy.name ∧ log.header.config = strategy.config ∧
      log.header.source = source := by
  obtain ⟨_, -, hheader⟩ := Strategy.runReplay_ok h
  exact hheader

/-- The decisions of a log, marked as a reader marks them. -/
def ReplayLog.marked (log : ReplayLog) : List MarkedRecord := markedRecords (none, false) log.events

/-- The listings a log approves, among its scorable decisions on listings. -/
def ReplayLog.approvedListings (F : FloatArith) (start : Moment) (log : ReplayLog) : List String :=
  BrandSniper.approvedListings (scoredListings (log.marked.map (MarkedRecord.read F)) start)

/-- The cell's row of the sweep approves the listings that the replay with the cell's thresholds
approves, and the live row those that the log itself approves. -/
def SweepIsReplay (F : FloatArith) (path : String) (start : Moment) (cell : ℚ × Int)
    (log cellLog : ReplayLog) : Prop :=
  ∃ read sweep, readDecisionLog path (log.records F) = .ok read ∧
    sweepThresholds F read start = some (.available sweep) ∧
    ∃ row ∈ sweep.rows, (row.zThreshold, row.minSavingsCents) = cell ∧
      (∀ listingId, listingId ∈ row.approved.keys ↔
        listingId ∈ cellLog.approvedListings F start) ∧
      (row.live = true → ∀ listingId, listingId ∈ row.approved.keys ↔
        listingId ∈ log.approvedListings F start)

/-- Rounding the scores and means (and the thresholds of the header) to six digits changes for no
listing whether one of its decisions triggers. -/
structure RoundingKeepsTriggers (F : FloatArith) (S : DetectionSettings) (start : Moment)
    (cell : ℚ × Int) (log : ReplayLog) : Prop where
  /-- No logged text ends its line early. -/
  oneLine : ∀ record ∈ log.records F, record.isOneLine = true
  triggers : ∀ listingId,
    TriggersListing F (roundFloat F) log.marked start cell.1
        (roundFloat F S.zscore.zScoreStickerThreshold) cell.2 listingId ↔
      TriggersListing F id log.marked start cell.1 S.zscore.zScoreStickerThreshold cell.2
        listingId
  liveTriggers : cell = (roundFloat F S.zscore.zScoreThreshold, S.zscore.minSavingsCents) →
    ∀ listingId,
      TriggersListing F (roundFloat F) log.marked start cell.1
          (roundFloat F S.zscore.zScoreStickerThreshold) cell.2 listingId ↔
        TriggersListing F id log.marked start S.zscore.zScoreThreshold
          S.zscore.zScoreStickerThreshold S.zscore.minSavingsCents listingId

/-- What the sweep makes of a readable log: the cell's row, and what it approves. -/
theorem sweep_of_log (path : String) (start : Moment) {F : FloatArith} {S : DetectionSettings}
    {source : DatabaseSource} {cell : ℚ × Int} {log : ReplayLog} {marked' : List MarkedRecord}
    (hstrategy : log.header.strategy = .zscoreDreSweep)
    (hconfig : log.header.config = (ZScoreDreStrategy.strategy F S true).config)
    (hsource : log.header.source = .database source)
    (hlines : ∀ record ∈ log.records F, record.isOneLine = true)
    (hforth : ∀ a ∈ log.marked, a.record.tick.listingId.isSome = true →
      ∃ b ∈ marked', Twin (CellVerdict F S cell) a b) (hcell : cell ∈ sweepGrid) :
    ∃ read sweep row, readDecisionLog path (log.records F) = .ok read ∧
      sweepThresholds F read start = some (.available sweep) ∧ row ∈ sweep.rows ∧
      (row.zThreshold, row.minSavingsCents) = cell ∧
      (∀ row' ∈ sweep.rows, (row'.zThreshold, row'.minSavingsCents) = cell → row' = row) ∧
      (row.live = true ↔
        cell = (roundFloat F S.zscore.zScoreThreshold, S.zscore.minSavingsCents)) ∧
      ∀ listingId, listingId ∈ row.approved.keys ↔
        TriggersListing F (roundFloat F) log.marked start cell.1
          (roundFloat F S.zscore.zScoreStickerThreshold) cell.2 listingId := by
  obtain ⟨read, hread, hheader, hdecisions⟩ : ∃ read,
      readDecisionLog path (log.records F) = .ok read ∧
      read.header = log.header.roundFloats F ∧
      read.decisions = log.marked.map (MarkedRecord.read F) :=
    ⟨_, readDecisionLog_eq hsource hlines, rfl, rfl⟩
  have hreadConfig : read.header.config = ⟨roundFloat F S.zscore.zScoreThreshold,
      roundFloat F S.zscore.zScoreStickerThreshold, S.zscore.minSavingsCents⟩ := by
    rw [hheader, RunHeader.roundFloats, hconfig]
    rfl
  have hsweepStrategy : read.header.strategy ∈ sweepStrategies := by
    rw [hheader]
    show log.header.strategy ∈ sweepStrategies
    rw [hstrategy]
    decide
  have hswept : ∀ decision ∈ scoredListings read.decisions start, Swept decision := by
    rw [hdecisions]
    exact swept_of_scored hforth
  obtain ⟨sweep, hsweep, hrows⟩ := sweepThresholds_spec F hsweepStrategy hswept
  obtain ⟨row, hrow, hkey, hlive, hids⟩ := sweepRow_spec F read.header.config hswept cell
  refine ⟨read, sweep, row, hread, hsweep, (hrows row).mpr ⟨cell, hcell, hrow⟩, hkey, ?_, ?_, ?_⟩
  · intro row' hrow' hkey'
    obtain ⟨cell', _, hfound⟩ := (hrows row').mp hrow'
    obtain ⟨other, hother, hotherKey, _⟩ := sweepRow_spec F read.header.config hswept cell'
    rw [hother] at hfound
    cases hfound
    rw [← hotherKey, hkey', hrow] at hother
    exact (Option.some.inj hother).symm
  · rw [hlive, hreadConfig]
  · intro listingId
    rw [hids, hdecisions, hreadConfig]
    exact mem_cell_iff hforth listingId

/-- **The threshold sweep.** A replay with the cell's thresholds completes whenever the sweep
strategy's does, and the cell's row agrees with it exactly when rounding changes no trigger. -/
theorem sweepIsReplay_iff (F : FloatArith) (S : DetectionSettings) (schedule : BaselineSchedule)
    (source : DatabaseSource) (logFromMs : Option Int) (path : String) (start : Moment)
    (events : List RecordedEvent) (recordsSweepInputs : Bool) {log : ReplayLog} {cell : ℚ × Int}
    (hrun : (ZScoreDreStrategy.strategy F S true).runReplay S schedule (.database source)
      logFromMs events = .ok log) (hcell : cell ∈ sweepGrid) :
    ∃ cellLog,
      (ZScoreDreStrategy.strategy F (S.withThresholds cell.1 cell.2)
          recordsSweepInputs).runReplay (S.withThresholds cell.1 cell.2) schedule
        (.database source) logFromMs events = .ok cellLog ∧
      (SweepIsReplay F path start cell log cellLog ↔ RoundingKeepsTriggers F S start cell log) := by
  obtain ⟨cellLog, hcellRun, hevents⟩ :=
    runReplay_shadows (cell_shadows F S cell recordsSweepInputs) hrun
  obtain ⟨hforth, hback⟩ := exists_twin hevents (none, false)
  -- The log is also the replay with its own thresholds.
  obtain ⟨liveLog, hliveRun, hliveEvents⟩ := runReplay_shadows
    (cell_shadows F S (S.zscore.zScoreThreshold, S.zscore.minSavingsCents) true) hrun
  have hlive : liveLog = log := Except.ok.inj (hliveRun.symm.trans hrun)
  rw [hlive] at hliveEvents
  obtain ⟨hforthLive, hbackLive⟩ := exists_twin hliveEvents (none, false)
  obtain ⟨hstrategy, hconfig, hsource⟩ := runReplay_header hrun
  have happroved := mem_approvedListings F start hforth hback
  have hlogged := mem_approvedListings F start hforthLive hbackLive
  rw [runReplay_withThresholds]
  refine ⟨cellLog, hcellRun, ?_⟩
  constructor
  · rintro ⟨read, sweep, hread, hsweep, row, hrow, hkey, hcellIds, hliveIds⟩
    have hlines := isOneLine_of_readDecisionLog hread
    obtain ⟨read', sweep', row', hread', hsweep', _, _, hunique, hliveRow, hids⟩ :=
      sweep_of_log path start hstrategy hconfig hsource hlines hforth hcell
    rw [hread'] at hread
    cases hread
    rw [hsweep'] at hsweep
    cases hsweep
    have hsame := hunique row hrow hkey
    subst hsame
    refine ⟨hlines, fun listingId => ?_, fun hcellLive listingId => ?_⟩
    · exact (hids listingId).symm.trans ((hcellIds listingId).trans (happroved listingId))
    · exact (hids listingId).symm.trans
        ((hliveIds (hliveRow.mpr hcellLive) listingId).trans (hlogged listingId))
  · rintro ⟨hlines, htriggers, hliveTriggers⟩
    obtain ⟨read, sweep, row, hread, hsweep, hrow, hkey, _, hliveRow, hids⟩ :=
      sweep_of_log path start hstrategy hconfig hsource hlines hforth hcell
    refine ⟨read, sweep, hread, hsweep, row, hrow, hkey, fun listingId => ?_,
      fun hisLive listingId => ?_⟩
    · exact (hids listingId).trans ((htriggers listingId).trans (happroved listingId).symm)
    · exact (hids listingId).trans
        ((hliveTriggers (hliveRow.mp hisLive) listingId).trans (hlogged listingId).symm)

/-! ## A price on the edge of the threshold -/

/-- One build, effective from the epoch on, in which the knife has a high support floor. -/
def knifeSchedule : BaselineSchedule where
  builds := [⟨1, "1970-01-01T00:00:00", 0⟩]
  load _ := ⟨OrderedDict.empty.set "Knife"
    { Baseline.empty with
      supportFloorCents := .value 95000000
      latestPriceCents := .value 150000000 }, .empty⟩
  nonempty := List.cons_ne_nil _ _
  oldestFirst := List.pairwise_singleton _ _

/-- A knife listed on the feed, the listing named after its second. -/
def knifeListing (second : Nat) (priceCents : Nat) : RecordedEvent :=
  ⟨second * 1000, [.tick (.listing "skinport" "Knife" priceCents second (toString second)
    isVenueName_skinport)]⟩

/-- Three knives at one price, then a cheaper one. -/
def knifeEvents (priceCents : Nat) : List RecordedEvent :=
  [knifeListing 1 100000000, knifeListing 2 100000000, knifeListing 3 100000000,
    knifeListing 4 priceCents]

def knifeReplay (S : DetectionSettings) (priceCents : Nat) : Except PyError ReplayLog :=
  (ZScoreDreStrategy.strategy .exact S true).runReplay S knifeSchedule
    (.database ⟨"skinport", 0, 60000000, isVenueName_skinport⟩) none (knifeEvents priceCents)

/-- A score of -2.5 rounds to itself. -/
theorem sweepIsReplay_iff_cheapKnife :
    ∃ log cellLog, knifeReplay .default 90000000 = .ok log ∧
      knifeReplay (DetectionSettings.default.withThresholds (-3 / 2) 100) 90000000 = .ok cellLog ∧
      (SweepIsReplay .exact "decisions.jsonl" (.ofEpochSeconds 0) (-3 / 2, 100) log cellLog ↔
        RoundingKeepsTriggers .exact .default (.ofEpochSeconds 0) (-3 / 2, 100) log) := by
  have hcompletes : (knifeReplay .default 90000000).isOk = true := by decide +kernel
  cases hrun : knifeReplay .default 90000000 with
  | error e =>
      rw [hrun] at hcompletes
      cases hcompletes
  | ok log =>
      have hgrid : ((-3 / 2, 100) : ℚ × Int) ∈ sweepGrid := by decide +kernel
      obtain ⟨cellLog, hcell, hiff⟩ := sweepIsReplay_iff .exact .default knifeSchedule
        ⟨"skinport", 0, 60000000, isVenueName_skinport⟩ none "decisions.jsonl" (.ofEpochSeconds 0)
        (knifeEvents 90000000) true hrun hgrid
      exact ⟨log, cellLog, rfl, hcell, hiff⟩

/-- No row of the cell approves the listing. -/
def leavesOut (listingId : String) (cell : ℚ × Int) : SweepReport → Bool
  | .unavailable => true
  | .available sweep => sweep.rows.all fun row =>
      decide ((row.zThreshold, row.minSavingsCents) = cell → listingId ∉ row.approved.keys)

/-- A knife at -2.00000025 is approved live, and its score is logged as -2. -/
theorem not_sweepIsReplay_edgeKnife :
    ∃ log, knifeReplay .default 91999999 = .ok log ∧
      knifeReplay (DetectionSettings.default.withThresholds (-2) 50) 91999999 = .ok log ∧
      ¬ SweepIsReplay .exact "decisions.jsonl" (.ofEpochSeconds 0) (-2, 50) log log := by
  have hobserved : ((knifeReplay .default 91999999).toOption.any fun log =>
      decide ("4" ∈ log.approvedListings .exact (.ofEpochSeconds 0)) &&
        (readDecisionLog "decisions.jsonl" (log.records .exact)).toOption.all fun read =>
          (sweepThresholds .exact read (.ofEpochSeconds 0)).all (leavesOut "4" (-2, 50))) = true := by
    decide +kernel
  cases hrun : knifeReplay .default 91999999 with
  | error e =>
      rw [hrun] at hobserved
      cases hobserved
  | ok log =>
      refine ⟨log, rfl, hrun, ?_⟩
      rintro ⟨read, sweep, hread, hsweep, row, hrow, hkey, hids, _⟩
      rw [hrun, Except.toOption, Option.any_some, Bool.and_eq_true, decide_eq_true_iff] at hobserved
      obtain ⟨happroved, hrows⟩ := hobserved
      simp only [hread, Except.toOption, Option.all_some, hsweep, leavesOut, List.all_eq_true,
        decide_eq_true_iff] at hrows
      exact hrows row hrow hkey ((hids "4").mpr happroved)

end BrandSniper
