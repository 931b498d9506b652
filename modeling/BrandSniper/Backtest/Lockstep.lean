import BrandSniper.Backtest.Replay
import BrandSniper.Listener.Consumer

/-!
# The replay follows the listener

Two loops over two window stores: the consumer over the edge Redis, the
replay over its in-memory store. `SameEdge` relates their states: equal
dedup caches, the same sorted set behind every window key, and equal hashes.
One item keeps it, and the two loops say the same about the tick, as long as
the item's scoring raises nothing (`replayItem_lockstep`). Where it raises,
the consumer logs the error and goes on, and the replay ends.
-/

namespace BrandSniper

open Kit

/-! ## Functions of the caches -/

section

variable {C D : Type} [EdgeCache C] [LawfulEdgeCache C] [EdgeCache D] [LawfulEdgeCache D]

/-- Two caches answer every command of the decision path alike. -/
structure SameCache (c : C) (d : D) : Prop where
  windows : ∀ key, LawfulEdgeCache.window c key = LawfulEdgeCache.window d key
  hashes : SameHashes c d

theorem SameCache.pushToWindow {c : C} {d : D} (h : SameCache c d) (S : DetectionSettings)
    (tick : PricedTick) :
    SameCache (pushToWindow S .none tick c).1 (BrandSniper.pushToWindow S .none tick d).1 := by
  refine ⟨fun key => ?_, ?_⟩
  · rw [window_pushToWindow, window_pushToWindow, h.windows]
  · exact (hashes_pushToWindow S .none tick c).trans
      (h.hashes.trans (hashes_pushToWindow S .none tick d).symm)

theorem SameCache.unchangedEnters {c : C} {d : D} (h : SameCache c d) (S : DetectionSettings)
    (faults : Faults) (tick : PricedTick) (dedup : DedupCache) :
    unchangedSnapshotEntersPriceWindow S faults tick dedup c
      = unchangedSnapshotEntersPriceWindow S faults tick dedup d := by
  simp only [unchangedSnapshotEntersPriceWindow, LawfulEdgeCache.zcard_eq, h.windows]

theorem SameCache.scoreWindow {c : C} {d : D} (h : SameCache c d) (F : FloatArith)
    (S : DetectionSettings) (faults : Faults) (tick : PricedTick) :
    scoreWindow F S faults tick c = BrandSniper.scoreWindow F S faults tick d := by
  simp only [BrandSniper.scoreWindow, windowPrices_eq, h.windows, fetchBaseline_congr h.hashes]

end

section

variable {C D : Type} [EdgeCache C] [EdgeCache D]

theorem evaluateAndExecute_congr {c : C} {d : D} (h : SameHashes c d) (F : FloatArith)
    (S : DetectionSettings) (job : AnomalyJob) :
    evaluateAndExecute F S job c = evaluateAndExecute F S job d := by
  simp only [evaluateAndExecute, dreApprovalReason_congr h, fetchBaseline_congr h]

theorem decideScored_congr {c : C} {d : D} (h : SameHashes c d) (F : FloatArith)
    (S : DetectionSettings) (tick : PricedTick) (score : Option WindowScore) :
    ZScoreDreStrategy.decideScored F S false tick c score
      = ZScoreDreStrategy.decideScored F S false tick d score := by
  simp only [ZScoreDreStrategy.decideScored, dreApprovalReason_congr h, Bool.false_eq_true,
    if_false]

end

/-! ## Verdicts -/

/-- Approved or not, by which reason, and the net profit estimate where there is one. -/
structure Verdict where
  approve : Bool
  reason : String
  estimate : Option (Option Int)
  deriving DecidableEq

def Decision.verdict (d : Decision) : Verdict :=
  ⟨d.approve, d.reason, d.features.estimatedNetProfitCents⟩

/-- The listener's verdict on an anomaly: the labels of its counters. -/
def Evaluation.verdict : Evaluation → Verdict
  | rejectedByDre => ⟨false, reasonDreRejected, none⟩
  | belowFeeFloor _ estimate => ⟨false, reasonBelowFeeFloor, some estimate⟩
  | confirmed rule order => ⟨true, rule.label, some order.estimatedProfitCents⟩

/-- The reasons of a tick that never reaches the rules engine. -/
def unjudgedReasons : List String :=
  [reasonInsufficientHistory, reasonMacroOnly, reasonBelowThreshold]

/-- The two paths did the same with an item. An anomaly is judged by a worker of its own,
so its evaluation may run over any later cache; only the hashes count. -/
def Agree {C : Type} [EdgeCache C] (F : FloatArith) (S : DetectionSettings) (cache : C) :
    Route → ReplayRoute → Prop
  | .feedEvent, .feedEvent => True
  | .outcome, .outcome => True
  -- a sale is not scored, with a price in cents or without
  | .unpriced, .outcome => True
  | .duplicate, .duplicate => True
  | .unchanged windowed, .unchanged windowed' => windowed = .ok windowed'
  | .detected (.ok none), .scored decision =>
      decision.approve = false ∧ decision.reason ∈ unjudgedReasons
  | .detected (.ok (some job)), .scored decision =>
      ∀ later : C, SameHashes later cache →
        ∃ evaluation, evaluateAndExecute F S job later = .ok evaluation ∧
          evaluation.verdict = decision.verdict
  | _, _ => False

/-! ## When an item raises -/

section

variable {C : Type} [EdgeCache C]

/-- Scoring the tick's window raises. -/
def ScoringRaises (F : FloatArith) (S : DetectionSettings) (tick : PricedTick) (cache : C) :
    Prop :=
  let baseline := fetchBaseline tick cache
  ∀ prices, windowPrices cache tick.windowKey = .ok prices →
    ScoreRaises F S.zscore prices (baseline.bind (·.rolling30dAvgCents.get))
      (baseline.bind (·.volatilityCents.get)) (baseline.bind (·.coefficientOfVariation.get))

/-- Judging an anomaly raises: the rules do, or the estimate of what they approve. -/
def JudgingRaises (F : FloatArith) (tick : PricedTick) (cache : C) (baseline : Option Baseline) :
    Prop :=
  (∃ e, dreApprovalReason F tick cache baseline = .error e) ∨
    ∃ rule, dreApprovalReason F tick cache baseline = .ok (some rule) ∧
      ∃ e, estimateNetProfitCents tick (baseline.getD .empty) = .error e

/-- Scoring raises, or what it takes for an anomaly raises when it is judged. -/
def DetectionRaises (F : FloatArith) (S : DetectionSettings) (tick : PricedTick) (cache : C) :
    Prop :=
  ScoringRaises F S tick cache ∨ ∃ score, scoreWindow F S .none tick cache = .ok (some score) ∧
    shouldTriggerAnomaly F S.zscore score.zScore score.meanCents tick score.source = true ∧
    JudgingRaises F tick cache score.baseline

/-- The item is an offer whose `price_cents` raises, or one that is scored, and its detection
raises on the window with its price. -/
def ItemRaises (F : FloatArith) (S : DetectionSettings) (st : Consumer C) :
    StreamItem → Prop
  | .feedEvent _ => False
  | .tick tick => tick.feedsPriceWindow = true ∧ isDuplicate tick st.dedup = false ∧
      isUnchangedSnapshot tick st.dedup = false ∧
      DetectionRaises F S tick (pushToWindow S .none tick st.cache).1
  | .unpriced tick => tick.feedsPriceWindow = true

theorem scoreWindow_eq (F : FloatArith) (S : DetectionSettings) {tick : PricedTick} {cache : C}
    {prices : List Int} (h : windowPrices cache tick.windowKey = .ok prices) :
    scoreWindow F S .none tick cache
      = (calculateZScore F S.zscore prices
          ((fetchBaseline tick cache).bind (·.rolling30dAvgCents.get))
          ((fetchBaseline tick cache).bind (·.volatilityCents.get))
          ((fetchBaseline tick cache).bind (·.coefficientOfVariation.get))).map
        (Option.map fun (zScore, meanCents, source) =>
          { zScore, meanCents, source, windowSize := prices.length
            baseline := fetchBaseline tick cache }) := by
  simp only [scoreWindow, Faults.none, h, bind, Except.bind, pure, Except.pure,
    Bool.false_eq_true, if_false]
  cases calculateZScore F S.zscore prices
    ((fetchBaseline tick cache).bind (·.rolling30dAvgCents.get))
    ((fetchBaseline tick cache).bind (·.volatilityCents.get))
    ((fetchBaseline tick cache).bind (·.coefficientOfVariation.get)) <;> rfl

theorem scoringRaises_iff {F : FloatArith} {S : DetectionSettings} {tick : PricedTick}
    {cache : C} {prices : List Int} (h : windowPrices cache tick.windowKey = .ok prices) :
    ScoringRaises F S tick cache ↔ ∃ e, scoreWindow F S .none tick cache = .error e := by
  have hscore : (∃ e, scoreWindow F S .none tick cache = .error e) ↔
      ∃ e, calculateZScore F S.zscore prices
        ((fetchBaseline tick cache).bind (·.rolling30dAvgCents.get))
        ((fetchBaseline tick cache).bind (·.volatilityCents.get))
        ((fetchBaseline tick cache).bind (·.coefficientOfVariation.get)) = .error e := by
    rw [scoreWindow_eq F S h]
    cases calculateZScore F S.zscore prices
      ((fetchBaseline tick cache).bind (·.rolling30dAvgCents.get))
      ((fetchBaseline tick cache).bind (·.volatilityCents.get))
      ((fetchBaseline tick cache).bind (·.coefficientOfVariation.get)) <;> simp [Except.map]
  rw [hscore, calculateZScore_error_iff]
  constructor
  · exact fun hraises => hraises prices h
  · intro hraises read hread
    rw [h] at hread
    cases hread
    exact hraises

theorem scoreWindow_baseline {F : FloatArith} {S : DetectionSettings} {tick : PricedTick}
    {cache : C} {prices : List Int} (h : windowPrices cache tick.windowKey = .ok prices)
    {score : WindowScore} (hscore : scoreWindow F S .none tick cache = .ok (some score)) :
    score.baseline = fetchBaseline tick cache := by
  rw [scoreWindow_eq F S h] at hscore
  cases hz : calculateZScore F S.zscore prices
      ((fetchBaseline tick cache).bind (·.rolling30dAvgCents.get))
      ((fetchBaseline tick cache).bind (·.volatilityCents.get))
      ((fetchBaseline tick cache).bind (·.coefficientOfVariation.get)) with
  | error e => simp [hz, Except.map] at hscore
  | ok result =>
      cases result with
      | none => simp [hz, Except.map] at hscore
      | some r =>
          simp only [hz, Except.map, Option.map_some, Except.ok.injEq, Option.some.injEq] at hscore
          rw [← hscore]

/-- On an anomaly, either judging raises and the replay's decision with it, or the listener's
evaluation and the replay's decision are both there and have one verdict. -/
theorem decideScored_judged {F : FloatArith} {S : DetectionSettings} {tick : PricedTick}
    {cache : C} {score : WindowScore} (hbaseline : score.baseline = fetchBaseline tick cache)
    (htrigger : shouldTriggerAnomaly F S.zscore score.zScore score.meanCents tick score.source
      = true) :
    (JudgingRaises F tick cache score.baseline →
      ∃ e, ZScoreDreStrategy.decideScored F S false tick cache (some score) = .error e) ∧
    (¬ JudgingRaises F tick cache score.baseline →
      ∃ decision evaluation,
        ZScoreDreStrategy.decideScored F S false tick cache (some score) = .ok decision ∧
        evaluateAndExecute F S ⟨tick, score.zScore, score.baseline, score.source⟩ cache
          = .ok evaluation ∧ evaluation.verdict = decision.verdict) := by
  have hsource := shouldTrigger_sourceCanTrigger htrigger
  have hor : score.baseline.or (fetchBaseline tick cache) = score.baseline := by
    rw [hbaseline, Option.or_self]
  simp only [ZScoreDreStrategy.decideScored, evaluateAndExecute, hor, hsource, htrigger,
    not_true_eq_false, if_false, Bool.false_eq_true, JudgingRaises, bind, Except.bind, pure,
    Except.pure]
  cases hdre : dreApprovalReason F tick cache score.baseline with
  | error e => simp
  | ok reason =>
      cases reason with
      | none => simp [Evaluation.verdict, Decision.verdict, DecisionFeatures.empty]
      | some rule =>
          cases hestimate : estimateNetProfitCents tick (score.baseline.getD .empty) with
          | error e => simp
          | ok estimate =>
              by_cases hfloor : belowFeeFloor S rule estimate = true <;>
                simp [hfloor, Evaluation.verdict, Decision.verdict]

/-- A score that triggers nothing is decided by the threshold or by its source. -/
theorem decideScored_unjudged (F : FloatArith) (S : DetectionSettings) {tick : PricedTick}
    (cache : C) {score : WindowScore}
    (htrigger : ¬ shouldTriggerAnomaly F S.zscore score.zScore score.meanCents tick score.source
      = true) :
    ∃ decision, ZScoreDreStrategy.decideScored F S false tick cache (some score) = .ok decision ∧
      decision.approve = false ∧ decision.reason ∈ unjudgedReasons := by
  by_cases hsource : sourceCanTrigger S.zscore score.source = true
  · simp [ZScoreDreStrategy.decideScored, hsource, htrigger, unjudgedReasons, pure, Except.pure,
      bind, Except.bind]
  · simp [ZScoreDreStrategy.decideScored, hsource, unjudgedReasons, pure, Except.pure]

/-- The anomaly that a score is, if it is one. -/
def triggered (F : FloatArith) (S : DetectionSettings) (tick : PricedTick)
    (score : Option WindowScore) : Option AnomalyJob :=
  score.bind fun score =>
    if shouldTriggerAnomaly F S.zscore score.zScore score.meanCents tick score.source then
      some ⟨tick, score.zScore, score.baseline, score.source⟩
    else none

/-- Without faults, detection is a push and a decision on the score. -/
theorem updateWindowAndDetect_eq (F : FloatArith) (S : DetectionSettings) (tick : PricedTick)
    (cache : C) : updateWindowAndDetect F S .none tick cache
      = ((pushToWindow S .none tick cache).1,
          (scoreWindow F S .none tick (pushToWindow S .none tick cache).1).map
            (triggered F S tick)) := by
  have hpush : pushToWindow S .none tick cache
      = ((pushToWindow S .none tick cache).1, .ok ()) :=
    Prod.ext rfl (pushToWindow_ok S tick cache)
  rw [updateWindowAndDetect, hpush]
  cases hscore : scoreWindow F S .none tick (pushToWindow S .none tick cache).1 with
  | error e => simp [hscore, Except.map]
  | ok score =>
      cases score with
      | none => simp [hscore, triggered, Except.map]
      | some score =>
          by_cases htrigger : shouldTriggerAnomaly F S.zscore score.zScore score.meanCents tick
              score.source = true <;> simp [hscore, triggered, htrigger, Except.map]

end

/-! ## One item -/

/-- The states of the two loops agree. -/
structure SameEdge {C : Type} [EdgeCache C] [LawfulEdgeCache C] (st : Consumer C)
    (edge : ReplayEdge) : Prop where
  dedup : st.dedup = edge.dedup
  cache : SameCache st.cache edge.store

section

variable {C : Type} [EdgeCache C] [LawfulEdgeCache C]

/-- On the window with the tick's price, detection and the replay's decision agree, or both
raise. -/
theorem decide_lockstep (F : FloatArith) (S : DetectionSettings) {tick : PricedTick} {c : C}
    {d : InMemoryEdgeStore} (h : SameCache c d)
    (hread : Readable (LawfulEdgeCache.window c tick.windowKey)) :
    (DetectionRaises F S tick c →
      ∃ e, ZScoreDreStrategy.decide F S tick d = .error e) ∧
    (¬ DetectionRaises F S tick c →
      ∃ decision, ZScoreDreStrategy.decide F S tick d = .ok decision ∧
        Agree F S c (.detected ((scoreWindow F S .none tick c).map (triggered F S tick)))
          (.scored decision)) := by
  obtain ⟨prices, hprices⟩ := hread.read
  rw [← windowPrices_eq] at hprices
  have hdecide : ZScoreDreStrategy.decide F S tick d = (do
      let windowScore ← scoreWindow F S .none tick c
      ZScoreDreStrategy.decideScored F S false tick c windowScore) := by
    rw [ZScoreDreStrategy.decide, ← h.scoreWindow]
    simp only [decideScored_congr h.hashes]
  rw [hdecide, DetectionRaises, scoringRaises_iff hprices]
  cases hscore : scoreWindow F S .none tick c with
  | error e => simp [bind, Except.bind]
  | ok score =>
      cases score with
      | none =>
          simp [bind, Except.bind, ZScoreDreStrategy.decideScored, pure, Except.pure, Except.map,
            triggered, Agree, Decision.unscored, unjudgedReasons]
      | some score =>
          by_cases htrigger : shouldTriggerAnomaly F S.zscore score.zScore score.meanCents tick
              score.source = true
          · obtain ⟨hraise, hjudge⟩ :=
              decideScored_judged (scoreWindow_baseline hprices hscore) htrigger
            simp only [bind, Except.bind, Except.map, triggered, Option.bind_some, htrigger, if_true]
            constructor
            · rintro (⟨e, he⟩ | ⟨score', hscore', -, hraises⟩)
              · cases he
              · cases hscore'
                exact hraise hraises
            · intro hraises
              obtain ⟨decision, evaluation, hdecision, hevaluation, hverdict⟩ := hjudge
                (fun hj => hraises (.inr ⟨score, rfl, htrigger, hj⟩))
              refine ⟨decision, hdecision, fun later hlater => ⟨evaluation, ?_, hverdict⟩⟩
              rw [evaluateAndExecute_congr hlater]
              exact hevaluation
          · obtain ⟨decision, hdecision, hunjudged⟩ :=
              decideScored_unjudged F S c htrigger
            simp only [bind, Except.bind, Except.map, triggered, Option.bind_some, htrigger]
            constructor
            · rintro (⟨e, he⟩ | ⟨score', hscore', htrigger', -⟩)
              · cases he
              · cases hscore'
                exact absurd htrigger' htrigger
            · exact fun _ => ⟨decision, hdecision, hunjudged⟩

omit [LawfulEdgeCache C] in
theorem Agree.congr {F : FloatArith} {S : DetectionSettings} {c c' : C} (h : SameHashes c c')
    {route : Route} {replayed : ReplayRoute} (hagree : Agree F S c route replayed) :
    Agree F S c' route replayed := by
  cases route with
  | detected result =>
      cases result with
      | error e => cases replayed <;> exact hagree
      | ok job =>
          cases job with
          | none => cases replayed <;> exact hagree
          | some job =>
              cases replayed with
              | scored decision =>
                  exact fun later hlater => hagree later (hlater.trans h.symm)
              | _ => exact hagree
  | _ => cases replayed <;> exact hagree

omit [LawfulEdgeCache C] in
/-- Without faults the question whether an unchanged snapshot enters is answered. -/
theorem unchangedEnters_ok (S : DetectionSettings) (tick : PricedTick) (dedup : DedupCache)
    (cache : C) :
    ∃ enters, unchangedSnapshotEntersPriceWindow S .none tick dedup cache = .ok enters := by
  by_cases hdue : hourlySnapshotDue tick.timestamp
      ((dedup.get tick).bind (·.snapshotWindowedAt)) = true
  · exact ⟨true, by simp only [unchangedSnapshotEntersPriceWindow, if_pos hdue]⟩
  · refine ⟨unchangedSnapshotEntersWindow tick.timestamp
      ((dedup.get tick).bind (·.snapshotWindowedAt)) (EdgeCache.zcard cache tick.windowKey)
      S.zscore.minHistoryPoints, ?_⟩
    simp only [unchangedSnapshotEntersPriceWindow, if_neg hdue]
    rfl

/-- An unchanged snapshot: both loops keep it out of the window, or both push it. -/
theorem unchanged_lockstep {F : FloatArith} {S : DetectionSettings} {st : Consumer C}
    {edge : ReplayEdge} (h : SameEdge st edge) {tick : PricedTick}
    (hfeeds : tick.feedsPriceWindow = true) (hdup : isDuplicate tick st.dedup = false)
    (hunchanged : isUnchangedSnapshot tick st.dedup = true) :
    ∃ edge' route, replayItem F S edge (.tick tick) = .ok (edge', route) ∧
      SameEdge (consumeItem F S .none st (.tick tick)).1 edge' ∧
      Agree F S st.cache (consumeItem F S .none st (.tick tick)).2 route := by
  obtain ⟨enters, henters⟩ := unchangedEnters_ok S tick st.dedup st.cache
  have henters' := (h.cache.unchangedEnters S .none tick st.dedup).symm.trans henters
  simp only [consumeItem, replayItem, ← h.dedup, hfeeds, hdup, hunchanged, consumeOffer, henters,
    henters', not_true_eq_false, Bool.false_eq_true, if_false, if_true, bind, Except.bind]
  cases enters with
  | false => exact ⟨_, _, rfl, ⟨rfl, h.cache⟩, rfl⟩
  | true =>
      simp only [if_true, pushToWindow_ok]
      exact ⟨_, _, rfl, ⟨rfl, h.cache.pushToWindow S tick⟩, rfl⟩

/-- A tick that is scored: both loops push it and decide alike, or the replay ends. -/
theorem scored_lockstep (F : FloatArith) (S : DetectionSettings) {st : Consumer C}
    {edge : ReplayEdge} (h : SameEdge st edge)
    (hread : ∀ key, Readable (LawfulEdgeCache.window st.cache key)) {tick : PricedTick}
    (hfeeds : tick.feedsPriceWindow = true) (hdup : isDuplicate tick st.dedup = false)
    (hunchanged : isUnchangedSnapshot tick st.dedup = false) :
    (DetectionRaises F S tick (pushToWindow S .none tick st.cache).1 →
      ∃ e, replayItem F S edge (.tick tick) = .error e) ∧
    (¬ DetectionRaises F S tick (pushToWindow S .none tick st.cache).1 →
      ∃ edge' route, replayItem F S edge (.tick tick) = .ok (edge', route) ∧
        SameEdge (consumeItem F S .none st (.tick tick)).1 edge' ∧
        Agree F S st.cache (consumeItem F S .none st (.tick tick)).2 route) := by
  have hpushed := h.cache.pushToWindow S tick
  have hreadable : Readable (LawfulEdgeCache.window (pushToWindow S .none tick st.cache).1
      tick.windowKey) := by
    rw [window_pushToWindow, if_pos rfl]
    exact (hread _).pushWindow _ _
  obtain ⟨hraise, hagree⟩ := decide_lockstep F S hpushed hreadable
  simp only [consumeItem, replayItem, ← h.dedup, hfeeds, hdup, hunchanged, consumeOffer,
    updateWindowAndDetect_eq, pushToWindow_ok, not_true_eq_false, Bool.false_eq_true, if_false,
    bind, Except.bind]
  constructor
  · intro hraises
    obtain ⟨e, he⟩ := hraise hraises
    exact ⟨e, by simp only [he]⟩
  · intro hraises
    obtain ⟨decision, hdecision, hscored⟩ := hagree hraises
    simp only [hdecision]
    exact ⟨_, _, rfl, ⟨rfl, hpushed⟩, hscored.congr (hashes_pushToWindow S .none tick st.cache)⟩

/-- One item keeps the states in agreement and is treated alike, unless it raises: then the
replay ends. -/
theorem replayItem_lockstep {F : FloatArith} {S : DetectionSettings} {st : Consumer C}
    {edge : ReplayEdge} (h : SameEdge st edge)
    (hread : ∀ key, Readable (LawfulEdgeCache.window st.cache key)) (item : StreamItem) :
    (ItemRaises F S st item → ∃ e, replayItem F S edge item = .error e) ∧
    (¬ ItemRaises F S st item → ∃ edge' route, replayItem F S edge item = .ok (edge', route) ∧
      SameEdge (consumeItem F S .none st item).1 edge' ∧
      Agree F S st.cache (consumeItem F S .none st item).2 route) := by
  have hquiet : ∀ (route : Route) (replayed : ReplayRoute),
      (¬ ItemRaises F S st item) → consumeItem F S .none st item = (st, route) →
      replayItem F S edge item = .ok (edge, replayed) → Agree F S st.cache route replayed →
      (ItemRaises F S st item → ∃ e, replayItem F S edge item = .error e) ∧
      (¬ ItemRaises F S st item → ∃ edge' route, replayItem F S edge item = .ok (edge', route) ∧
        SameEdge (consumeItem F S .none st item).1 edge' ∧
        Agree F S st.cache (consumeItem F S .none st item).2 route) := by
    intro route replayed hno hlive hreplay hagree
    refine ⟨fun hraises => absurd hraises hno, fun _ => ⟨edge, replayed, hreplay, ?_⟩⟩
    rw [hlive]
    exact ⟨h, hagree⟩
  cases item with
  | feedEvent event => exact hquiet .feedEvent .feedEvent id rfl rfl trivial
  | unpriced tick =>
      by_cases hfeeds : tick.feedsPriceWindow = true
      · refine ⟨fun _ => ⟨.overflowError, ?_⟩, fun hraises => absurd hfeeds hraises⟩
        simp [replayItem, hfeeds]
      · refine hquiet .unpriced .outcome hfeeds rfl ?_ trivial
        simp [replayItem, hfeeds]
  | tick tick =>
      by_cases hfeeds : tick.feedsPriceWindow = true
      · by_cases hdup : isDuplicate tick st.dedup = true
        · refine hquiet .duplicate .duplicate ?_ ?_ ?_ trivial
          · rintro ⟨-, hnot, -⟩
            rw [hdup] at hnot
            cases hnot
          · simp [consumeItem, hfeeds, hdup]
          · simp [replayItem, hfeeds, ← h.dedup, hdup]
        · rw [Bool.not_eq_true] at hdup
          by_cases hunchanged : isUnchangedSnapshot tick st.dedup = true
          · refine ⟨?_, fun _ => unchanged_lockstep h hfeeds hdup hunchanged⟩
            rintro ⟨-, -, hnot, -⟩
            rw [hunchanged] at hnot
            cases hnot
          · rw [Bool.not_eq_true] at hunchanged
            obtain ⟨hraise, hagree⟩ := scored_lockstep F S h hread hfeeds hdup hunchanged
            constructor
            · rintro ⟨-, -, -, hraises⟩
              exact hraise hraises
            · exact fun hraises => hagree (fun hd => hraises ⟨hfeeds, hdup, hunchanged, hd⟩)
      · refine hquiet .outcome .outcome ?_ ?_ ?_ trivial
        · rintro ⟨hfeeds', -⟩
          exact hfeeds hfeeds'
        · simp [consumeItem, hfeeds]
        · simp [replayItem, hfeeds]

end

/-! ## Runs -/

/-- The replay of a list of items: the last state, and what was done with each. -/
def replayItems (F : FloatArith) (S : DetectionSettings) (edge : ReplayEdge) :
    List StreamItem → Except PyError (ReplayEdge × List ReplayRoute)
  | [] => .ok (edge, [])
  | item :: rest => do
      let (edge, route) ← replayItem F S edge item
      let (edge, routes) ← replayItems F S edge rest
      return (edge, route :: routes)

/-- A run of items on which no Redis command raises. -/
def faultless (items : List StreamItem) : List (Faults × StreamItem) :=
  items.map fun item => (.none, item)

section

variable {C : Type} [EdgeCache C]

/-- What the consumer did with each item of a run. -/
def consumeRoutes (F : FloatArith) (S : DetectionSettings) (st : Consumer C) :
    List StreamItem → List Route
  | [] => []
  | item :: rest =>
      let (st, route) := consumeItem F S .none st item
      route :: consumeRoutes F S st rest

theorem consumeRoutes_concat (F : FloatArith) (S : DetectionSettings) (st : Consumer C)
    (items : List StreamItem) (item : StreamItem) :
    consumeRoutes F S st (items ++ [item]) = consumeRoutes F S st items
      ++ [(consumeItem F S .none (consume F S st (faultless items)) item).2] := by
  induction items generalizing st with
  | nil => rfl
  | cons x rest ih => simp [consumeRoutes, ih, faultless, consume]

end

theorem replayItems_append (F : FloatArith) (S : DetectionSettings) (edge : ReplayEdge)
    (a b : List StreamItem) :
    replayItems F S edge (a ++ b) = (do
      let (edge, routes) ← replayItems F S edge a
      let (edge, routes') ← replayItems F S edge b
      return (edge, routes ++ routes')) := by
  induction a generalizing edge with
  | nil =>
      cases hb : replayItems F S edge b <;>
        simp [replayItems, bind, Except.bind, pure, Except.pure, hb]
  | cons item rest ih =>
      cases hitem : replayItem F S edge item with
      | error e => simp [replayItems, hitem, bind, Except.bind]
      | ok next =>
          simp only [List.cons_append, replayItems, hitem, bind, Except.bind, ih]
          cases replayItems F S next.1 rest with
          | error e => rfl
          | ok done =>
              cases hb : replayItems F S done.1 b <;>
                simp [pure, Except.pure, hb]

/-! ## The decision log -/

/-- The decisions the loop logs, of items and what was done with them. -/
def loggedDecisions (items : List StreamItem) (routes : List ReplayRoute) :
    List (PricedTick × Decision) :=
  (items.zip routes).filterMap fun (item, route) =>
    match item, route.decision? with
    | .tick tick, some decision =>
        if shouldLog tick decision then some (tick, decision) else none
    | _, _ => none

def ReplayState.logged (st : ReplayState) : List (PricedTick × Decision) :=
  st.log.map fun record => (record.tick, record.decision)

theorem logged_account (st : ReplayState) (item : StreamItem) (edge : ReplayEdge)
    (route : ReplayRoute) :
    (st.account true item edge route).logged = st.logged ++ loggedDecisions [item] [route] := by
  cases item with
  | feedEvent event => simp [ReplayState.account, ReplayState.logged, loggedDecisions]
  | unpriced tick => simp [ReplayState.account, ReplayState.logged, loggedDecisions]
  | tick tick =>
      cases hdecision : route.decision? with
      | none =>
          simp [ReplayState.account, ReplayState.logged, loggedDecisions, hdecision]
      | some decision =>
          by_cases hlog : shouldLog tick decision = true <;>
            simp [ReplayState.account, ReplayState.logged, loggedDecisions, hdecision, hlog]

theorem loggedDecisions_append {a b : List StreamItem} {ra rb : List ReplayRoute}
    (h : a.length = ra.length) :
    loggedDecisions (a ++ b) (ra ++ rb) = loggedDecisions a ra ++ loggedDecisions b rb := by
  rw [loggedDecisions, List.zip_append h, List.filterMap_append]
  rfl

/-- The inner loop of `run_replay` is `replayItems`, and logs in the logged period. -/
theorem foldlM_replayStep (F : FloatArith) (S : DetectionSettings) (period : Bool)
    (items : List StreamItem) (st : ReplayState) :
    (∀ e, replayItems F S st.edge items = .error e →
      items.foldlM (replayStep F S period) st = .error e) ∧
    (∀ edge routes, replayItems F S st.edge items = .ok (edge, routes) →
      ∃ st', items.foldlM (replayStep F S period) st = .ok st' ∧ st'.edge = edge ∧
        (period = true → st'.logged = st.logged ++ loggedDecisions items routes)) := by
  induction items generalizing st with
  | nil =>
      refine ⟨fun e he => (by cases he), fun edge routes h => ?_⟩
      cases h
      exact ⟨st, rfl, rfl, fun _ => by simp [loggedDecisions]⟩
  | cons item rest ih =>
      simp only [replayItems, List.foldlM_cons, replayStep]
      cases hitem : replayItem F S st.edge item with
      | error e => simp [bind, Except.bind]
      | ok next =>
          have hedge : ∀ route, (st.account period item next.1 route).edge = next.1 := by
            intro route
            unfold ReplayState.account
            split
            · split <;> rfl
            · rfl
          have hrest := ih (st.account period item next.1 next.2)
          rw [hedge] at hrest
          simp only [bind, Except.bind, pure, Except.pure]
          cases hreplay : replayItems F S next.1 rest with
          | error e => exact ⟨fun e' he => (by cases he; exact hrest.1 e hreplay), by simp⟩
          | ok done =>
              refine ⟨by simp, fun edge routes h => ?_⟩
              cases h
              obtain ⟨st', hst', hlast, hlogged⟩ := hrest.2 done.1 done.2 hreplay
              refine ⟨st', hst', hlast, fun hperiod => ?_⟩
              rw [hlogged hperiod, hperiod, logged_account, List.append_assoc]
              exact congrArg _ (@loggedDecisions_append [item] rest [next.2] done.2 rfl).symm

theorem replayItems_length {F : FloatArith} {S : DetectionSettings} {edge edge' : ReplayEdge}
    {items : List StreamItem} {routes : List ReplayRoute}
    (h : replayItems F S edge items = .ok (edge', routes)) : items.length = routes.length := by
  induction items generalizing edge edge' routes with
  | nil => cases h; rfl
  | cons item rest ih =>
      simp only [replayItems, bind, Except.bind] at h
      cases hitem : replayItem F S edge item with
      | error e => simp [hitem] at h
      | ok next =>
          cases hrest : replayItems F S next.1 rest with
          | error e => simp [hitem, hrest] at h
          | ok done =>
              simp only [hitem, hrest, pure, Except.pure, Except.ok.injEq, Prod.mk.injEq] at h
              rw [← h.2, List.length_cons, List.length_cons, ih hrest]

/-- `run_replay` over events is `replayItems` over their items, however they are grouped. -/
theorem foldlM_replayEvent (F : FloatArith) (S : DetectionSettings) (logFromMs : Option Int)
    (events : List RecordedEvent) (st : ReplayState) :
    (∀ e, replayItems F S st.edge (events.flatMap RecordedEvent.items) = .error e →
      events.foldlM (replayEvent F S logFromMs) st = .error e) ∧
    (∀ edge routes,
      replayItems F S st.edge (events.flatMap RecordedEvent.items) = .ok (edge, routes) →
      ∃ st', events.foldlM (replayEvent F S logFromMs) st = .ok st' ∧ st'.edge = edge ∧
        (logFromMs = none → st'.logged
          = st.logged ++ loggedDecisions (events.flatMap RecordedEvent.items) routes)) := by
  induction events generalizing st with
  | nil =>
      refine ⟨fun e he => (by cases he), fun edge routes h => ?_⟩
      cases h
      exact ⟨st, rfl, rfl, fun _ => by simp [loggedDecisions]⟩
  | cons event rest ih =>
      have hinner := foldlM_replayStep F S (isLoggedPeriod logFromMs event) event.items
        { st with summary := { st.summary with events := st.summary.events + 1 } }
      simp only [List.flatMap_cons, replayItems_append, List.foldlM_cons, replayEvent]
      cases hfirst : replayItems F S st.edge event.items with
      | error e =>
          have hstop := hinner.1 e hfirst
          simp only [hstop, bind, Except.bind]
          exact ⟨fun e' he => (by cases he; rfl), by simp⟩
      | ok done =>
          obtain ⟨st', hst', hedge, hlogged⟩ := hinner.2 done.1 done.2 hfirst
          have hrest := ih st'
          rw [hedge] at hrest
          simp only [hst', bind, Except.bind, pure, Except.pure]
          cases hreplay : replayItems F S done.1 (rest.flatMap RecordedEvent.items) with
          | error e => exact ⟨fun e' he => (by cases he; exact hrest.1 e hreplay), by simp⟩
          | ok last =>
              refine ⟨by simp, fun edge routes h => ?_⟩
              cases h
              obtain ⟨st'', hst'', hlast, hlogged'⟩ := hrest.2 last.1 last.2 hreplay
              refine ⟨st'', hst'', hlast, fun hnone => ?_⟩
              rw [hlogged' hnone, hlogged (by simp [isLoggedPeriod, hnone]),
                loggedDecisions_append (replayItems_length hfirst), List.append_assoc]
              rfl

/-! ## The two runs -/

section

variable {C : Type} [EdgeCache C] [LawfulEdgeCache C]

omit [LawfulEdgeCache C] in
/-- An item pushes at most one tick, and touches the cache in no other way. -/
theorem consumeItem_cache (F : FloatArith) (S : DetectionSettings) (st : Consumer C)
    (item : StreamItem) : (consumeItem F S .none st item).1.cache = st.cache ∨
      ∃ tick, (consumeItem F S .none st item).1.cache
        = (pushToWindow S .none tick st.cache).1 := by
  cases item with
  | feedEvent event => exact .inl rfl
  | unpriced tick => exact .inl rfl
  | tick tick =>
      by_cases hfeeds : tick.feedsPriceWindow = true
      · by_cases hdup : isDuplicate tick st.dedup = true
        · exact .inl (by simp [consumeItem, hfeeds, hdup])
        · by_cases hunchanged : isUnchangedSnapshot tick st.dedup = true
          · obtain ⟨enters, henters⟩ := unchangedEnters_ok S tick st.dedup st.cache
            cases enters with
            | false =>
                exact .inl (by simp [consumeItem, hfeeds, hdup, consumeOffer, hunchanged, henters])
            | true =>
                exact .inr ⟨tick, by
                  simp [consumeItem, hfeeds, hdup, consumeOffer, hunchanged, henters]⟩
          · exact .inr ⟨tick, by
              simp [consumeItem, hfeeds, hdup, consumeOffer, hunchanged,
                updateWindowAndDetect_eq]⟩
      · exact .inl (by simp [consumeItem, hfeeds])

omit [LawfulEdgeCache C] in
theorem consume_faultless_concat (F : FloatArith) (S : DetectionSettings) (st : Consumer C)
    (items : List StreamItem) (item : StreamItem) :
    consume F S st (faultless (items ++ [item]))
      = (consumeItem F S .none (consume F S st (faultless items)) item).1 := by
  rw [faultless, List.map_append]
  exact consume_concat F S st _ .none item

/-- The baselines and sticker prices stay as they are through a run. -/
theorem hashes_consume (F : FloatArith) (S : DetectionSettings) (st : Consumer C)
    (items : List StreamItem) : SameHashes (consume F S st (faultless items)).cache st.cache := by
  induction items using List.reverseRecOn with
  | nil => exact SameHashes.refl _
  | append_singleton before item ih =>
      rw [consume_faultless_concat]
      rcases consumeItem_cache F S (consume F S st (faultless before)) item with hc | ⟨tick, hc⟩
      · rw [hc]; exact ih
      · rw [hc]; exact (hashes_pushToWindow S .none tick _).trans ih

/-- Every window holds entries that ticks pushed. -/
theorem readable_consume (F : FloatArith) (S : DetectionSettings) {st : Consumer C}
    (h : ∀ key, Readable (LawfulEdgeCache.window st.cache key)) (items : List StreamItem) :
    ∀ key, Readable (LawfulEdgeCache.window (consume F S st (faultless items)).cache key) := by
  induction items using List.reverseRecOn with
  | nil => exact h
  | append_singleton before item ih =>
      intro key
      rw [consume_faultless_concat]
      rcases consumeItem_cache F S (consume F S st (faultless before)) item with hc | ⟨tick, hc⟩
      · rw [hc]; exact ih key
      · rw [hc, window_pushToWindow]
        split
        · exact (ih key).pushWindow _ _
        · exact ih key

/-- No item of the run raises in the state the listener is in when it comes. -/
def NeverRaises (F : FloatArith) (S : DetectionSettings) (cache : C) (items : List StreamItem) :
    Prop :=
  ∀ before item, before ++ [item] <+: items →
    ¬ ItemRaises F S (consume F S (.start cache) (faultless before)) item

theorem replayItems_lockstep {F : FloatArith} {S : DetectionSettings} {cache : C}
    {edge : ReplayEdge} (hstart : SameEdge (.start cache) edge)
    (hread : ∀ key, Readable (LawfulEdgeCache.window cache key)) {items : List StreamItem}
    (hraises : NeverRaises F S cache items) :
    ∃ edge' routes, replayItems F S edge items = .ok (edge', routes) ∧
      SameEdge (consume F S (.start cache) (faultless items)) edge' ∧
      List.Forall₂ (Agree F S cache) (consumeRoutes F S (.start cache) items) routes := by
  induction items using List.reverseRecOn with
  | nil => exact ⟨edge, [], rfl, hstart, List.Forall₂.nil⟩
  | append_singleton before item ih =>
      obtain ⟨edge', routes, hreplay, hsame, hroutes⟩ :=
        ih (fun b i hb => hraises b i (hb.trans (List.prefix_append _ _)))
      have hstep := (replayItem_lockstep hsame (readable_consume F S hread before) item).2
        (hraises before item (List.prefix_refl _))
      obtain ⟨edge'', route, hitem, hsame', hagree⟩ := hstep
      refine ⟨edge'', routes ++ [route], ?_, ?_, ?_⟩
      · rw [replayItems_append, hreplay]
        simp [replayItems, hitem, bind, Except.bind, pure, Except.pure]
      · rw [consume_faultless_concat]
        exact hsame'
      · rw [consumeRoutes_concat]
        refine List.rel_append hroutes (List.Forall₂.cons ?_ List.Forall₂.nil)
        exact hagree.congr (hashes_consume F S _ before)

/-- The replay of the items, however they are grouped into events, ends with the listener's
dedup cache and windows, treats every item as the listener did, and logs its decisions. -/
def Tracks (F : FloatArith) (S : DetectionSettings) (cache : C) (snapshot : BaselineSnapshot)
    (items : List StreamItem) : Prop :=
  let live := consume F S (.start cache) (faultless items)
  ∃ edge routes, live.dedup = edge.dedup ∧
    (∀ key, LawfulEdgeCache.window live.cache key = LawfulEdgeCache.window edge.store key) ∧
    List.Forall₂ (Agree F S cache) (consumeRoutes F S (.start cache) items) routes ∧
    ∀ events logFromMs, events.flatMap RecordedEvent.items = items →
      ∃ st, runReplay F S snapshot logFromMs events = .ok st ∧ st.edge = edge ∧
        (logFromMs = none → st.logged = loggedDecisions items routes)

/-- Over the same baselines and sticker prices, and from empty windows, the replay keeps in
step with the listener after every item exactly when no item raises. -/
theorem tracks_iff_neverRaises (F : FloatArith) (S : DetectionSettings) (cache : C)
    (snapshot : BaselineSnapshot) (items : List StreamItem)
    (hwindows : ∀ key, LawfulEdgeCache.window cache key = .empty)
    (hhashes : SameHashes cache (ReplayEdge.start snapshot).store) :
    (∀ p, p <+: items → Tracks F S cache snapshot p) ↔ NeverRaises F S cache items := by
  have hstart : SameEdge (.start cache) (ReplayEdge.start snapshot) :=
    ⟨rfl, fun key => (hwindows key).trans InMemoryEdgeStore.ranking_empty.symm, hhashes⟩
  have hread : ∀ key, Readable (LawfulEdgeCache.window cache key) := fun key => by
    rw [hwindows]; exact readable_empty
  constructor
  · intro htracks
    induction items using List.reverseRecOn with
    | nil =>
        intro before item hprefix
        simp at hprefix
    | append_singleton before item ih =>
        have hbefore := ih (fun p hp => htracks p (hp.trans (List.prefix_append _ _)))
        intro b i hprefix
        rcases List.prefix_concat_iff.mp hprefix with heq | hb
        · obtain ⟨rfl, hlast⟩ := List.append_inj' heq rfl
          cases hlast
          intro hraises
          obtain ⟨edge, routes, hreplay, hsame, -⟩ := replayItems_lockstep hstart hread hbefore
          obtain ⟨e, he⟩ := (replayItem_lockstep hsame (readable_consume F S hread b) item).1 hraises
          obtain ⟨_, _, -, -, -, hrun⟩ := htracks _ (List.prefix_refl _)
          obtain ⟨st, hst, -, -⟩ := hrun [⟨0, b ++ [item]⟩] none (by simp)
          have hstop := (foldlM_replayEvent F S none [⟨0, b ++ [item]⟩]
            ⟨.start snapshot, .zero, []⟩).1 e (by
              simp [replayItems_append, hreplay, replayItems, he, bind, Except.bind])
          rw [runReplay, hstop] at hst
          cases hst
        · exact hbefore b i hb
  · intro hraises p hp
    obtain ⟨edge, routes, hreplay, hsame, hroutes⟩ := replayItems_lockstep hstart hread
      (fun b i hb => hraises b i (hb.trans hp))
    refine ⟨edge, routes, hsame.dedup, hsame.cache.windows, hroutes, ?_⟩
    rintro events logFromMs rfl
    obtain ⟨st, hst, hedge, hlogged⟩ := (foldlM_replayEvent F S logFromMs events
      ⟨.start snapshot, .zero, []⟩).2 edge routes hreplay
    exact ⟨st, hst, hedge, hlogged⟩

end

/-! ### A window without spread -/

/-- A replay without baselines. -/
def noBaselines : BaselineSnapshot := ⟨.empty, .empty⟩

/-- An edge Redis without windows, over the same hashes. -/
def freshEdgeRedis (snapshot : BaselineSnapshot) : EdgeRedis :=
  ⟨.empty, (ReplayEdge.start snapshot).store.hashes⟩

/-- Listings below half a cent, which round to 0 cents, ten seconds apart. -/
def zeroCentListings (n : Nat) : List StreamItem :=
  (List.range n).map fun i =>
    .tick (.listing "skinport" "AK-47" 0 (10 * i) (toString i) isVenueName_skinport)

theorem tracks_iff_neverRaises_zeroCentListings :
    (∀ p, p <+: zeroCentListings 4 →
        Tracks .exact .default (freshEdgeRedis noBaselines) noBaselines p)
      ↔ NeverRaises .exact .default (freshEdgeRedis noBaselines) (zeroCentListings 4) :=
  tracks_iff_neverRaises .exact .default (freshEdgeRedis noBaselines) noBaselines
    (zeroCentListings 4) (fun _ => rfl) ⟨fun _ _ => rfl, fun _ _ => rfl⟩

/-- The fourth listing has three zero prices to be measured against: the listener logs the
division by zero, and the replay ends. -/
theorem not_tracks_zeroCentListings :
    ¬ Tracks .exact .default (freshEdgeRedis noBaselines) noBaselines (zeroCentListings 4) := by
  rintro ⟨edge, routes, -, -, -, hrun⟩
  obtain ⟨st, hst, -, -⟩ := hrun [⟨0, zeroCentListings 4⟩] none (by simp)
  have hstop : (runReplay .exact .default noBaselines none
      [⟨0, zeroCentListings 4⟩]).toOption.isNone = true := by decide +kernel
  rw [hst] at hstop
  cases hstop

end BrandSniper
