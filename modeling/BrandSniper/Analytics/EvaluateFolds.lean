import BrandSniper.Analytics.TrainModel

/-!
# The student's evaluation

`size_rule` and `evaluate_folds` of `apps/analytics/train_student.py`: one model
for each walk forward fold, and the predictions of the evaluated folds pooled.

The evaluation never looks ahead. What it reports and predicts for a fold
depends on the listings decided before the fold's end, without their labels, and
on the labels available by its cutoff (`known`): a listing decided later, a
label that comes later and the outcome a listing turns out to have change
nothing (`evaluateFolds_causal`).
-/

namespace BrandSniper.Student

open Kit

/-- `MIN_TRAIN_ROWS` -/
def minTrainRows : Nat := 1000

/-- `MIN_MINORITY_CLASS` -/
def minMinorityClass : Nat := 100

inductive FoldOutcome where
  | skipped (why : String)
  | evaluated (threshold : ℚ)
  deriving DecidableEq

structure FoldReport where
  cutoff : Datetime
  «end» : Datetime
  trainRows : Nat
  trainProfitable : Nat
  validationRows : Nat
  outcome : FoldOutcome
  deriving DecidableEq

section
variable {α B : Type}

def sizeRule (rows : List (StudentRow α)) : Option String :=
  let positives := rows.countP fun row => row.isProfitable
  let minority := min positives (rows.length - positives)
  if rows.length < minTrainRows then
    some (toString rows.length ++ " labeled listings, fewer than " ++ toString minTrainRows)
  else if minority < minMinorityClass then
    some (toString minority ++ " listings of the rarer outcome, fewer than "
      ++ toString minMinorityClass)
  else none

/-- The reports of the folds and, pooled over the evaluated ones, the listings out of sample,
their predictions and what each fold's model approved. -/
structure Evaluation (α : Type) where
  reports : List FoldReport
  rows : List (StudentRow α)
  probabilities : List ℚ
  approves : List Bool

def Evaluation.empty : Evaluation α := ⟨[], [], [], []⟩

def Evaluation.append (a b : Evaluation α) : Evaluation α :=
  ⟨a.reports ++ b.reports, a.rows ++ b.rows, a.probabilities ++ b.probabilities,
    a.approves ++ b.approves⟩

/-- `fold.train` -/
def foldTrain (rows : List (StudentRow α)) (exploratory : Bool) (cutoff : Datetime) :
    List (StudentRow α) :=
  rows.filter fun row => trainsOn exploratory cutoff row.toLabeledListing

/-- `fold.validation` -/
def foldValidation (rows : List (StudentRow α)) (cutoff «end» : Datetime) : List (StudentRow α) :=
  rows.filter fun row => inWindow cutoff «end» row.toLabeledListing

/-- What a window adds, given its rows. -/
def partOf (learner : Learner α B) (cutoff «end» : Datetime)
    (train validation : List (StudentRow α)) : Evaluation α :=
  let report := FoldReport.mk cutoff «end» train.length (train.countP fun row => row.isProfitable)
    validation.length
  match sizeRule train with
  | some why => ⟨[report (.skipped why)], [], [], []⟩
  | none =>
      let model := trainModel learner train
      let probabilities := validation.map fun row => model.predict learner row.features
      ⟨[report (.evaluated model.threshold)], validation, probabilities,
        probabilities.map fun probability => decide (model.threshold ≤ probability)⟩

/-- What a fold of the rows adds. -/
def foldPart (learner : Learner α B) (rows : List (StudentRow α)) (exploratory : Bool)
    (fold : Fold) : Evaluation α :=
  partOf learner fold.cutoff fold.end (foldTrain rows exploratory fold.cutoff)
    (foldValidation rows fold.cutoff fold.end)

/-- The body of the loop over the folds. -/
def evaluateFold (learner : Learner α B) (rows : List (StudentRow α)) (exploratory : Bool)
    (pooled : Evaluation α) (fold : Fold) : Except FoldError (Evaluation α) := do
  checkNoLookAhead fold exploratory
  return pooled.append (foldPart learner rows exploratory fold)

def evaluateFolds (learner : Learner α B) (rows : List (StudentRow α)) (foldHours : Int)
    (exploratory : Bool) : Except FoldError (Evaluation α) := do
  let folds ← walkForwardFolds (rows.map StudentRow.toLabeledListing) foldHours exploratory
  folds.foldlM (evaluateFold learner rows exploratory) .empty

/-! ## What is known -/

/-- What is known of a listing at a time: its label if it is available. -/
structure Known (α : Type) where
  listingId : String
  decidedAt : Datetime
  features : α
  label : Option (Datetime × Bool × Int)

/-- What is known of a listing when the labels up to a time are available. -/
def StudentRow.known (labels : Datetime) (row : StudentRow α) : Known α where
  listingId := row.listingId
  decidedAt := row.decidedAt
  features := row.features
  label := if row.labelAvailableAt ≤ labels then
    some (row.labelAvailableAt, row.isProfitable, row.netMarginCents) else none

/-- The listings decided before `until`, with the labels available by `labels`. -/
def known (labels decided : Datetime) (rows : List (StudentRow α)) : List (Known α) :=
  (rows.filter fun row => decide (row.decidedAt < decided)).map (StudentRow.known labels)

theorem known_append (labels decided : Datetime) (rows others : List (StudentRow α)) :
    known labels decided (rows ++ others)
      = known labels decided rows ++ known labels decided others := by
  rw [known, List.filter_append, List.map_append, known, known]

/-- A listing whose label is available by then, as known. -/
def Known.labeled (listing : Known α) : Option (StudentRow α) :=
  listing.label.map fun label =>
    { listingId := listing.listingId
      decidedAt := listing.decidedAt
      labelAvailableAt := label.1
      features := listing.features
      isProfitable := label.2.1
      netMarginCents := label.2.2 }

theorem labeled_known (labels : Datetime) (row : StudentRow α) :
    (row.known labels).labeled = if row.labelAvailableAt ≤ labels then some row else none := by
  by_cases h : row.labelAvailableAt ≤ labels
  · simp [Known.labeled, StudentRow.known, h]
  · simp [Known.labeled, StudentRow.known, h]

/-- The training rows of a fold are known at its cutoff. -/
theorem foldTrain_eq {cutoff decided : Datetime} (h : cutoff ≤ decided)
    (rows : List (StudentRow α)) :
    foldTrain rows false cutoff = (known cutoff decided rows).filterMap fun listing =>
      if listing.decidedAt < cutoff then listing.labeled else none := by
  induction rows with
  | nil => rfl
  | cons row rows ih =>
      rw [foldTrain, known] at ih ⊢
      rw [List.filter_cons, List.filter_cons, ih]
      by_cases hearly : row.decidedAt < cutoff
      · have hdecided : row.decidedAt < decided := Int.lt_of_lt_of_le hearly h
        rw [if_pos (decide_eq_true hdecided), List.map_cons]
        have hat : (row.known cutoff).decidedAt < cutoff := hearly
        have hlabeled := labeled_known cutoff row
        by_cases hlabel : row.labelAvailableAt ≤ cutoff
        · rw [if_pos hlabel] at hlabeled
          rw [List.filterMap_cons, if_pos hat, hlabeled, if_pos (by simp [trainsOn, hearly, hlabel])]
        · rw [if_neg hlabel] at hlabeled
          rw [List.filterMap_cons, if_pos hat, hlabeled, if_neg (by simp [trainsOn, hlabel])]
      · rw [if_neg (by simp [trainsOn, hearly])]
        have hat : ¬ (row.known cutoff).decidedAt < cutoff := hearly
        split
        · rw [List.map_cons, List.filterMap_cons, if_neg hat]
        · rfl

/-- Of the validated listings, all but the labels is known. -/
theorem known_foldValidation {cutoff «end» : Datetime} (rows : List (StudentRow α)) :
    (foldValidation rows cutoff «end»).map (StudentRow.known cutoff)
      = (known cutoff «end» rows).filter fun listing => decide (cutoff ≤ listing.decidedAt) := by
  rw [known, List.filter_map, List.filter_filter]
  rfl

/-! ## The folds -/

theorem datetime_eq {a b : Datetime} (h : a.micros = b.micros) : a = b := by
  obtain ⟨micros, _⟩ := a
  obtain ⟨_, _⟩ := b
  obtain rfl : micros = _ := h
  rfl

/-- The windows of the loop: those a number of steps after the cutoff in which something was
decided. By induction on the time left to the last decision. -/
theorem mem_foldsFrom {listings : List LabeledListing} {exploratory : Bool} {step : FoldStep}
    {last : Datetime} (hlast : ∀ row ∈ listings, row.decidedAt ≤ last) {cutoff : Datetime}
    {folds : List Fold} (h : foldsFrom listings exploratory step last cutoff = .ok folds)
    {fold : Fold} : fold ∈ folds ↔
      fold = foldAt listings exploratory fold.cutoff fold.end ∧ fold.validation ≠ [] ∧
      (∃ k : Nat, fold.cutoff.micros = cutoff.micros + k * step.micros) ∧
      fold.end.micros = fold.cutoff.micros + step.micros := by
  induction cutoff using foldsFrom.induct step last generalizing folds with
  | case1 cutoff hle e hadd =>
      rw [foldsFrom_overflow hle hadd] at h
      cases h
  | case2 cutoff hle «end» hadd _ ih =>
      have hmove := Datetime.micros_of_add hadd
      rw [foldsFrom_window hle hadd] at h
      cases hrest : foldsFrom listings exploratory step last «end» with
      | error e =>
          rw [hrest] at h
          cases h
      | ok rest =>
          rw [hrest] at h
          obtain rfl := Except.ok.inj h
          have hmem : fold ∈ (if (foldAt listings exploratory cutoff «end»).validation.isEmpty
              then rest else foldAt listings exploratory cutoff «end» :: rest) ↔
              (fold = foldAt listings exploratory cutoff «end» ∧ fold.validation ≠ []) ∨
                fold ∈ rest := by
            split
            · rename_i hempty
              refine ⟨.inr, fun hor => hor.resolve_left fun hthis => hthis.2 ?_⟩
              rw [hthis.1]
              exact List.isEmpty_iff.mp hempty
            · rename_i hsome
              rw [List.mem_cons]
              refine or_congr_left ⟨fun heq => ⟨heq, fun hnil => hsome ?_⟩, And.left⟩
              rw [← heq, hnil]
              rfl
          rw [hmem, ih hrest, hmove]
          constructor
          · rintro (⟨rfl, hsome⟩ | ⟨hmade, hsome, ⟨k, hk⟩, hend⟩)
            · exact ⟨rfl, hsome, ⟨0, by simp [foldAt]⟩, hmove⟩
            · refine ⟨hmade, hsome, ⟨k + 1, ?_⟩, hend⟩
              rw [hk, Nat.cast_succ, Int.add_mul]
              omega
          · rintro ⟨hmade, hsome, ⟨k, hk⟩, hend⟩
            cases k with
            | zero =>
                have hcutoff : fold.cutoff = cutoff := datetime_eq (by simpa using hk)
                have hends : fold.end = «end» := datetime_eq (by rw [hend, hmove, hcutoff])
                rw [hcutoff, hends] at hmade
                exact .inl ⟨hmade, hsome⟩
            | succ k =>
                refine .inr ⟨hmade, hsome, ⟨k, ?_⟩, hend⟩
                rw [hk, Nat.cast_succ, Int.add_mul]
                omega
  | case3 cutoff hgt =>
      rw [foldsFrom_past hgt] at h
      cases h
      refine iff_of_false List.not_mem_nil ?_
      rintro ⟨hmade, hsome, ⟨k, hk⟩, -⟩
      obtain ⟨row, hrow⟩ := List.exists_mem_of_ne_nil _ hsome
      rw [hmade, mem_validation] at hrow
      have hle := hlast row hrow.1
      have hsteps : 0 ≤ (k : Int) * step.micros := by
        have hpos := step.pos
        positivity
      have hin := hrow.2.1
      rw [Datetime.le_iff] at hle hin hgt
      omega

/-- The folds of a walk: windows one after the other, on the grid of the first decision. -/
structure OnGrid (listings : List LabeledListing) (foldHours : Int) (exploratory : Bool)
    (folds : List Fold) : Prop where
  mem_iff : ∀ fold, fold ∈ folds ↔
    fold = foldAt listings exploratory fold.cutoff fold.end ∧ fold.validation ≠ [] ∧
    (∃ start, startsAt listings foldHours = some start ∧
      ∃ k : Nat, fold.cutoff.micros = start + k * (foldHours * 3600000000)) ∧
    fold.end.micros = fold.cutoff.micros + foldHours * 3600000000
  apart : folds.Pairwise fun a b => a.end ≤ b.cutoff

theorem hours_of_ok {listings : List LabeledListing} {foldHours : Int} {exploratory : Bool}
    {folds : List Fold} (h : walkForwardFolds listings foldHours exploratory = .ok folds) :
    1 ≤ foldHours := by
  unfold walkForwardFolds at h
  split at h
  · cases h
  · rename_i hhours
    exact Int.not_lt.mp hhours

theorem onGrid_of_ok {listings : List LabeledListing} {foldHours : Int} {exploratory : Bool}
    {folds : List Fold} (h : walkForwardFolds listings foldHours exploratory = .ok folds) :
    OnGrid listings foldHours exploratory folds := by
  have hhours := hours_of_ok h
  by_cases hlistings : listings = []
  · subst hlistings
    rw [walkForwardFolds_nil hhours] at h
    cases h
    refine ⟨fun fold => iff_of_false List.not_mem_nil ?_, List.Pairwise.nil⟩
    rintro ⟨-, -, ⟨start, hstart, -⟩, -⟩
    cases hstart
  · obtain ⟨first, hfirst⟩ := firstDecided_isSome hlistings
    obtain ⟨last, hlast⟩ := lastDecided_isSome hlistings
    rw [walkForwardFolds_eq hhours hfirst hlast] at h
    obtain ⟨step, hstep, h⟩ := bind_eq_ok h
    obtain ⟨cutoff, hcutoff, h⟩ := bind_eq_ok h
    have hmicros := ((foldStep_ok_iff hhours).mp hstep).2
    have hstart : startsAt listings foldHours = some cutoff.micros := by
      rw [startsAt, hfirst, Datetime.micros_of_add hcutoff, hmicros]
      rfl
    refine ⟨fun fold => ?_, (foldsFrom_tiles (lastDecided_spec hlast).2 h).apart⟩
    rw [mem_foldsFrom (lastDecided_spec hlast).2 h, hmicros]
    simp only [hstart, Option.some.injEq, exists_eq_left']

/-! ## Predictions -/

/-- What an evaluation says of a listing out of sample. -/
structure Prediction (α : Type) where
  listingId : String
  decidedAt : Datetime
  features : α
  probability : ℚ
  approve : Bool

def predictionOf (row : StudentRow α) (probability : ℚ) (approve : Bool) : Prediction α :=
  ⟨row.listingId, row.decidedAt, row.features, probability, approve⟩

/-- The pooled predictions, one for each pooled row. -/
def Evaluation.predictions (e : Evaluation α) : List (Prediction α) :=
  (e.rows.zip (e.probabilities.zip e.approves)).map fun entry =>
    predictionOf entry.1 entry.2.1 entry.2.2

/-- The pooled predictions for the listings decided in a window. -/
def Evaluation.predictionsIn (e : Evaluation α) (cutoff «end» : Datetime) : List (Prediction α) :=
  e.predictions.filter fun prediction =>
    decide (cutoff ≤ prediction.decidedAt) && decide (prediction.decidedAt < «end»)

/-- Every pooled row has its probability and its approval. -/
structure Evaluation.Aligned (e : Evaluation α) : Prop where
  probabilities : e.probabilities.length = e.rows.length
  approves : e.approves.length = e.rows.length

theorem aligned_empty : (Evaluation.empty : Evaluation α).Aligned := ⟨rfl, rfl⟩

theorem Evaluation.Aligned.append {a b : Evaluation α} (ha : a.Aligned) (hb : b.Aligned) :
    (a.append b).Aligned := by
  constructor
  · simp only [Evaluation.append, List.length_append, ha.probabilities, hb.probabilities]
  · simp only [Evaluation.append, List.length_append, ha.approves, hb.approves]

theorem predictions_append {a : Evaluation α} (ha : a.Aligned) (b : Evaluation α) :
    (a.append b).predictions = a.predictions ++ b.predictions := by
  have hinner : a.probabilities.length = a.approves.length :=
    ha.probabilities.trans ha.approves.symm
  have houter : a.rows.length = (a.probabilities.zip a.approves).length := by
    rw [List.length_zip, ha.probabilities, ha.approves, Nat.min_self]
  simp only [Evaluation.predictions, Evaluation.append]
  rw [List.zip_append hinner, List.zip_append houter, List.map_append]

section
variable (learner : Learner α B) (cutoff «end» : Datetime) (train validation : List (StudentRow α))

theorem aligned_partOf : (partOf learner cutoff «end» train validation).Aligned := by
  unfold partOf
  cases sizeRule train with
  | some why => exact ⟨rfl, rfl⟩
  | none =>
      constructor
      · exact List.length_map _
      · exact (List.length_map _).trans (List.length_map _)

/-- The predictions of a fold's model. -/
def modelPredictions (model : StudentModel B) (listings : List (Known α)) : List (Prediction α) :=
  listings.map fun listing =>
    let probability := model.predict learner listing.features
    ⟨listing.listingId, listing.decidedAt, listing.features, probability,
      decide (model.threshold ≤ probability)⟩

/-- What a fold predicts reads what is known of the validated listings. -/
theorem predictions_partOf (labels : Datetime) :
    (partOf learner cutoff «end» train validation).predictions
      = match sizeRule train with
        | some _ => []
        | none => modelPredictions learner (trainModel learner train)
            (validation.map (StudentRow.known labels)) := by
  unfold partOf
  cases sizeRule train with
  | some why => rfl
  | none =>
      simp only [Evaluation.predictions, modelPredictions, List.map_map]
      induction validation with
      | nil => rfl
      | cons row validation ih =>
          simp only [List.map_cons, List.zip_cons_cons, ih]
          rfl

end

/-- What an evaluation collects is what its folds add. -/
theorem collected_of_foldlM {learner : Learner α B} {rows : List (StudentRow α)}
    {exploratory : Bool} {folds : List Fold} {pooled e : Evaluation α} (hpooled : pooled.Aligned)
    (h : folds.foldlM (evaluateFold learner rows exploratory) pooled = .ok e) :
    e.reports = pooled.reports
        ++ folds.flatMap (fun fold => (foldPart learner rows exploratory fold).reports) ∧
      e.predictions = pooled.predictions
        ++ folds.flatMap fun fold => (foldPart learner rows exploratory fold).predictions := by
  induction folds generalizing pooled with
  | nil =>
      cases h
      exact ⟨(List.append_nil _).symm, (List.append_nil _).symm⟩
  | cons fold folds ih =>
      rw [List.foldlM_cons] at h
      obtain ⟨next, hnext, h⟩ := bind_eq_ok h
      unfold evaluateFold at hnext
      obtain ⟨-, -, hnext⟩ := bind_eq_ok hnext
      cases hnext
      obtain ⟨hreports, hpredictions⟩ := ih (hpooled.append (aligned_partOf _ _ _ _ _)) h
      rw [hreports, hpredictions, predictions_append hpooled]
      exact ⟨List.append_assoc _ _ _, List.append_assoc _ _ _⟩

/-- What an evaluation is, once it returns. -/
structure Evaluates (learner : Learner α B) (rows : List (StudentRow α)) (foldHours : Int)
    (exploratory : Bool) (folds : List Fold) (e : Evaluation α) : Prop where
  onGrid : OnGrid (rows.map StudentRow.toLabeledListing) foldHours exploratory folds
  reports : e.reports
    = folds.flatMap fun fold => (foldPart learner rows exploratory fold).reports
  predictions : e.predictions
    = folds.flatMap fun fold => (foldPart learner rows exploratory fold).predictions

theorem evaluates_of_ok {learner : Learner α B} {rows : List (StudentRow α)} {foldHours : Int}
    {exploratory : Bool} {e : Evaluation α}
    (h : evaluateFolds learner rows foldHours exploratory = .ok e) :
    ∃ folds, Evaluates learner rows foldHours exploratory folds e := by
  obtain ⟨folds, hfolds, h⟩ := bind_eq_ok h
  obtain ⟨hreports, hpredictions⟩ := collected_of_foldlM aligned_empty h
  exact ⟨folds, onGrid_of_ok hfolds, hreports, hpredictions⟩

/-- A fold predicts for listings of its window only. -/
theorem predicted_in_window {learner : Learner α B} {rows : List (StudentRow α)}
    {exploratory : Bool} {fold : Fold} {prediction : Prediction α}
    (h : prediction ∈ (foldPart learner rows exploratory fold).predictions) :
    fold.cutoff ≤ prediction.decidedAt ∧ prediction.decidedAt < fold.end := by
  rw [foldPart, predictions_partOf _ _ _ _ _ fold.cutoff, known_foldValidation] at h
  split at h
  · cases h
  · obtain ⟨listing, hlisting, rfl⟩ := List.mem_map.mp h
    obtain ⟨hmem, hcutoff⟩ := List.mem_filter.mp hlisting
    obtain ⟨row, hrow, rfl⟩ := List.mem_map.mp hmem
    have hend := (List.mem_filter.mp hrow).2
    exact ⟨of_decide_eq_true hcutoff, of_decide_eq_true hend⟩

/-- The pooled predictions of a fold's window are those of the fold. -/
theorem Evaluates.predictionsIn {learner : Learner α B} {rows : List (StudentRow α)}
    {foldHours : Int} {exploratory : Bool} {folds : List Fold} {e : Evaluation α}
    (h : Evaluates learner rows foldHours exploratory folds e) {fold : Fold}
    (hfold : fold ∈ folds) :
    e.predictionsIn fold.cutoff fold.end
      = (foldPart learner rows exploratory fold).predictions := by
  obtain ⟨before, after, rfl⟩ := List.append_of_mem hfold
  have hapart := h.onGrid.apart
  rw [List.pairwise_append, List.pairwise_cons] at hapart
  have hnone : ∀ others : List Fold, (∀ other ∈ others, other.end ≤ fold.cutoff ∨
      fold.end ≤ other.cutoff) → (others.flatMap fun other =>
        (foldPart learner rows exploratory other).predictions).filter (fun prediction =>
          decide (fold.cutoff ≤ prediction.decidedAt)
            && decide (prediction.decidedAt < fold.end)) = [] := by
    intro others hothers
    rw [List.filter_eq_nil_iff]
    intro prediction hprediction hwindow
    obtain ⟨other, hother, hof⟩ := List.mem_flatMap.mp hprediction
    have hin := predicted_in_window hof
    have hdisjoint := hothers other hother
    simp only [Bool.and_eq_true, decide_eq_true_eq, Datetime.le_iff, Datetime.lt_iff]
      at hin hdisjoint hwindow
    omega
  rw [Evaluation.predictionsIn, h.predictions, List.flatMap_append, List.flatMap_cons,
    List.filter_append, List.filter_append,
    hnone before fun other hother => .inl (hapart.2.2 other hother fold List.mem_cons_self),
    hnone after fun other hother => .inr (hapart.2.1.1 other hother), List.nil_append,
    List.append_nil, List.filter_eq_self]
  intro prediction hprediction
  obtain ⟨hcutoff, hend⟩ := predicted_in_window hprediction
  rw [decide_eq_true hcutoff, decide_eq_true hend]
  rfl

/-! ## Causality -/

section
variable {labels decided : Datetime} {rows others : List (StudentRow α)}

/-- Where two lists are known to be the same, each has a row of the other's time. -/
theorem decidedAt_of_known (h : known labels decided rows = known labels decided others)
    {row : StudentRow α} (hrow : row ∈ rows) (hdecided : row.decidedAt < decided) :
    ∃ other ∈ others, other.decidedAt = row.decidedAt := by
  have hmem : row.known labels ∈ known labels decided rows :=
    List.mem_map_of_mem (List.mem_filter.mpr ⟨hrow, decide_eq_true hdecided⟩)
  rw [h] at hmem
  obtain ⟨other, hother, heq⟩ := List.mem_map.mp hmem
  exact ⟨other, List.mem_of_mem_filter hother, congrArg Known.decidedAt heq⟩

/-- The grid of the folds is known when the first decision is. -/
theorem startsAt_of_known (h : known labels decided rows = known labels decided others)
    {row : StudentRow α} (hrow : row ∈ rows) (hdecided : row.decidedAt < decided)
    (foldHours : Int) :
    startsAt (rows.map StudentRow.toLabeledListing) foldHours
      = startsAt (others.map StudentRow.toLabeledListing) foldHours := by
  obtain ⟨other, hother, -⟩ := decidedAt_of_known h hrow hdecided
  have hne : rows.map StudentRow.toLabeledListing ≠ [] :=
    List.ne_nil_of_mem (List.mem_map_of_mem hrow)
  have hne' : others.map StudentRow.toLabeledListing ≠ [] :=
    List.ne_nil_of_mem (List.mem_map_of_mem hother)
  obtain ⟨first, hfirst⟩ := firstDecided_isSome hne
  obtain ⟨first', hfirst'⟩ := firstDecided_isSome hne'
  have hmin := firstOf_spec hfirst
  have hmin' := firstOf_spec hfirst'
  obtain ⟨earliest, hearliest, rfl⟩ := List.mem_map.mp hmin.1
  obtain ⟨earliest', hearliest', rfl⟩ := List.mem_map.mp hmin'.1
  have hbefore : earliest.decidedAt < decided :=
    Int.lt_of_le_of_lt (hmin.2 _ (List.mem_map_of_mem hrow)) hdecided
  -- each of the two first decisions is a decision of the other list
  obtain ⟨same, hsame, htime⟩ := decidedAt_of_known h hearliest hbefore
  have hle := hmin'.2 _ (List.mem_map_of_mem hsame)
  rw [htime] at hle
  obtain ⟨same', hsame', htime'⟩ :=
    decidedAt_of_known h.symm hearliest' (Int.lt_of_le_of_lt hle hbefore)
  have hge := hmin.2 _ (List.mem_map_of_mem hsame')
  rw [htime'] at hge
  have htimes : earliest.decidedAt = earliest'.decidedAt := datetime_eq (le_antisymm hge hle)
  rw [startsAt, startsAt, hfirst, hfirst', Option.map_some, Option.map_some, htimes]

theorem foldAt_validation (exploratory : Bool) (cutoff «end» : Datetime) :
    (foldAt (rows.map StudentRow.toLabeledListing) exploratory cutoff «end»).validation
      = (foldValidation rows cutoff «end»).map StudentRow.toLabeledListing := by
  show (rows.map StudentRow.toLabeledListing).filter (inWindow cutoff «end») = _
  rw [List.filter_map]
  rfl

/-- A fold of the one list whose rows are known is a fold of the other. -/
theorem OnGrid.mem_of_known {foldHours : Int} {folds folds' : List Fold}
    (h : OnGrid (rows.map StudentRow.toLabeledListing) foldHours false folds)
    (h' : OnGrid (others.map StudentRow.toLabeledListing) foldHours false folds') {fold : Fold}
    (hfold : fold ∈ folds)
    (hknown : known fold.cutoff fold.end rows = known fold.cutoff fold.end others) :
    foldAt (others.map StudentRow.toLabeledListing) false fold.cutoff fold.end ∈ folds' := by
  obtain ⟨hmade, hsome, ⟨start, hstart, k, hk⟩, hstep⟩ := (h.mem_iff fold).mp hfold
  rw [hmade, foldAt_validation] at hsome
  obtain ⟨row, hrow⟩ : ∃ row, row ∈ foldValidation rows fold.cutoff fold.end :=
    List.exists_mem_of_ne_nil _ fun hnil => hsome (by rw [hnil, List.map_nil])
  obtain ⟨hmem, hwindow⟩ := List.mem_filter.mp hrow
  simp only [inWindow, Bool.and_eq_true, decide_eq_true_eq] at hwindow
  refine (h'.mem_iff _).mpr ⟨rfl, fun hnil => ?_, ⟨start, ?_, k, hk⟩, hstep⟩
  · rw [foldAt_validation, List.map_eq_nil_iff] at hnil
    have hsame := @known_foldValidation _ fold.cutoff fold.end others
    rw [hnil, ← hknown, ← known_foldValidation, List.map_nil, eq_comm, List.map_eq_nil_iff] at hsame
    rw [hsame] at hrow
    cases hrow
  · rw [← startsAt_of_known hknown hmem hwindow.2]
    exact hstart

/-- What a window adds reads nothing but what is known. -/
theorem foldPart_of_known (learner : Learner α B) {fold fold' : Fold}
    (hfold : fold.cutoff ≤ fold.end) (hcutoff : fold'.cutoff = fold.cutoff)
    (hend : fold'.end = fold.end)
    (hknown : known fold.cutoff fold.end rows = known fold.cutoff fold.end others) :
    (foldPart learner rows false fold).reports = (foldPart learner others false fold').reports ∧
      (foldPart learner rows false fold).predictions
        = (foldPart learner others false fold').predictions := by
  have htrain : foldTrain rows false fold.cutoff = foldTrain others false fold.cutoff := by
    rw [foldTrain_eq hfold, foldTrain_eq hfold, hknown]
  have hvalidation : (foldValidation rows fold.cutoff fold.end).map (StudentRow.known fold.cutoff)
      = (foldValidation others fold.cutoff fold.end).map (StudentRow.known fold.cutoff) := by
    rw [known_foldValidation, known_foldValidation, hknown]
  have hlength := congrArg List.length hvalidation
  rw [List.length_map, List.length_map] at hlength
  rw [foldPart, foldPart, hcutoff, hend, htrain]
  constructor
  · unfold partOf
    rw [hlength]
    cases sizeRule (foldTrain others false fold.cutoff) <;> rfl
  · rw [predictions_partOf _ _ _ _ _ fold.cutoff, predictions_partOf _ _ _ _ _ fold.cutoff,
      hvalidation]

end

/-- The checks raise nothing: an evaluation returns when the walk over its folds does. -/
theorem evaluateFolds_succeeds (learner : Learner α B) {rows : List (StudentRow α)}
    {foldHours : Int} (exploratory : Bool) (hhours : 1 ≤ foldHours)
    (hfits : FoldsFit (rows.map StudentRow.toLabeledListing) foldHours) :
    ∃ e, evaluateFolds learner rows foldHours exploratory = .ok e := by
  obtain ⟨folds, hfolds⟩ : Succeeds (walkForwardFolds _ foldHours exploratory) :=
    (walkForwardFolds_ok_iff hhours).mpr hfits
  have hchecked := (walksForward_of_ok hhours hfolds).checked
  have hrun : ∀ pooled, ∃ e,
      folds.foldlM (evaluateFold learner rows exploratory) pooled = .ok e := by
    clear hfolds
    induction folds with
    | nil => exact fun pooled => ⟨pooled, rfl⟩
    | cons fold folds ih =>
        intro pooled
        have hcheck := hchecked fold List.mem_cons_self
        have hfold : evaluateFold learner rows exploratory pooled fold
            = .ok (pooled.append (foldPart learner rows exploratory fold)) := by
          rw [evaluateFold, hcheck]
          rfl
        rw [List.foldlM_cons, hfold]
        exact ih (fun other hother => hchecked other (List.mem_cons_of_mem _ hother)) _
  obtain ⟨e, he⟩ := hrun .empty
  refine ⟨e, ?_⟩
  rw [evaluateFolds, hfolds]
  exact he

theorem window_of_report {learner : Learner α B} {rows : List (StudentRow α)} {exploratory : Bool}
    {fold : Fold} {report : FoldReport}
    (h : report ∈ (foldPart learner rows exploratory fold).reports) :
    report.cutoff = fold.cutoff ∧ report.end = fold.end := by
  unfold foldPart partOf at h
  split at h
  · obtain rfl := List.mem_singleton.mp h
    exact ⟨rfl, rfl⟩
  · obtain rfl := List.mem_singleton.mp h
    exact ⟨rfl, rfl⟩

theorem exists_report (learner : Learner α B) (rows : List (StudentRow α)) (exploratory : Bool)
    (fold : Fold) : ∃ report ∈ (foldPart learner rows exploratory fold).reports,
      report.cutoff = fold.cutoff ∧ report.end = fold.end ∧
      report.trainRows = (foldTrain rows exploratory fold.cutoff).length := by
  unfold foldPart partOf
  split
  · exact ⟨_, List.mem_singleton_self _, rfl, rfl, rfl⟩
  · exact ⟨_, List.mem_singleton_self _, rfl, rfl, rfl⟩

/-- The evaluation of a fold reads nothing but what is known: two sets of listings that agree on
the listings decided before the fold's end and on the labels available by its cutoff have the
fold, its report and its predictions in common. -/
theorem evaluateFolds_causal {learner : Learner α B} {rows others : List (StudentRow α)}
    {foldHours : Int} {e e' : Evaluation α}
    (h : evaluateFolds learner rows foldHours false = .ok e)
    (h' : evaluateFolds learner others foldHours false = .ok e') {report : FoldReport}
    (hreport : report ∈ e.reports)
    (hknown : known report.cutoff report.end rows = known report.cutoff report.end others) :
    report ∈ e'.reports ∧
      e.predictionsIn report.cutoff report.end = e'.predictionsIn report.cutoff report.end := by
  obtain ⟨folds, he⟩ := evaluates_of_ok h
  obtain ⟨folds', he'⟩ := evaluates_of_ok h'
  rw [he.reports] at hreport
  obtain ⟨fold, hfold, hof⟩ := List.mem_flatMap.mp hreport
  obtain ⟨hcutoff, hend⟩ := window_of_report hof
  rw [hcutoff, hend] at hknown ⊢
  have hpos : fold.cutoff ≤ fold.end := by
    have hstep := ((he.onGrid.mem_iff fold).mp hfold).2.2.2
    have hhours : 1 ≤ foldHours := by
      obtain ⟨folds, hfolds, -⟩ := bind_eq_ok h
      exact hours_of_ok hfolds
    rw [Datetime.le_iff]
    omega
  have hfold' := he.onGrid.mem_of_known he'.onGrid hfold hknown
  obtain ⟨hreports, hpredictions⟩ := foldPart_of_known learner hpos rfl rfl hknown
  constructor
  · rw [he'.reports, List.mem_flatMap]
    rw [hreports] at hof
    exact ⟨_, hfold', hof⟩
  · rw [he.predictionsIn hfold, hpredictions]
    exact (he'.predictionsIn hfold').symm

end

/-- A learner that finds even odds everywhere. -/
def evenOdds : Learner Unit Unit where
  fitBooster _ := ()
  rawScore _ _ := 0
  fitPlatt _ := ⟨1, 0⟩
  probability _ _ := 1 / 2

theorem hour_representable (hour : Fin 25) :
    minTimestamp * 1000000 ≤ (hour : Int) * 3600000000 ∧
      (hour : Int) * 3600000000 < (maxTimestamp + 1) * 1000000 := by
  unfold minTimestamp maxTimestamp
  omega

/-- An hour of the day of the epoch. -/
def epochHour (hour : Fin 25) : Datetime := ⟨hour * 3600000000, hour_representable hour⟩

def decidedListing (decided labeled : Fin 25) (isProfitable : Bool) : StudentRow Unit where
  listingId := "a"
  decidedAt := epochHour decided
  labelAvailableAt := epochHour labeled
  features := ()
  isProfitable := isProfitable
  netMarginCents := 5

/-- A thousand listings decided at midnight, and one decided at noon. -/
def noonRows (isProfitable : Bool) : List (StudentRow Unit) :=
  List.replicate 900 (decidedListing 0 1 true) ++ List.replicate 100 (decidedListing 0 1 false)
    ++ [decidedListing 12 24 isProfitable]

/-- At noon only the listings of midnight have an outcome. -/
theorem known_noonRows (isProfitable : Bool) :
    known (epochHour 12) (epochHour 24) (noonRows isProfitable)
      = known (epochHour 12) (epochHour 24) (List.replicate 900 (decidedListing 0 1 true)
          ++ List.replicate 100 (decidedListing 0 1 false))
        ++ [⟨"a", epochHour 12, (), none⟩] := by
  rw [noonRows, known_append]
  rfl

/-- The outcome of the listing decided at noon changes no prediction for it. -/
theorem evaluateFolds_causal_noonRows :
    ∃ e e', evaluateFolds evenOdds (noonRows true) 12 false = .ok e ∧
      evaluateFolds evenOdds (noonRows false) 12 false = .ok e' ∧
      ∃ report ∈ e.reports, report ∈ e'.reports ∧ report.trainRows = 1000 ∧
        e.predictionsIn report.cutoff report.end = e'.predictionsIn report.cutoff report.end := by
  have hstart : ∀ isProfitable, startsAt ((noonRows isProfitable).map StudentRow.toLabeledListing) 12
      = some 43200000000 := by
    intro isProfitable
    cases isProfitable <;> decide +kernel
  have hfits : ∀ isProfitable,
      FoldsFit ((noonRows isProfitable).map StudentRow.toLabeledListing) 12 := by
    intro isProfitable start hstarts
    rw [hstart, Option.some.injEq] at hstarts
    subst hstarts
    refine ⟨by decide, 1, ?_, by decide⟩
    cases isProfitable <;> decide +kernel
  obtain ⟨e, he⟩ := evaluateFolds_succeeds evenOdds false (by decide) (hfits true)
  obtain ⟨e', he'⟩ := evaluateFolds_succeeds evenOdds false (by decide) (hfits false)
  obtain ⟨folds, hevaluates⟩ := evaluates_of_ok he
  have hfold : foldAt ((noonRows true).map StudentRow.toLabeledListing) false (epochHour 12)
      (epochHour 24) ∈ folds := by
    refine (hevaluates.onGrid.mem_iff _).mpr ⟨rfl, ?_, ⟨_, hstart true, 0, by decide⟩, by decide⟩
    rw [foldAt_validation]
    decide +kernel
  have hlength : (foldTrain (noonRows true) false (epochHour 12)).length = 1000 := by
    decide +kernel
  obtain ⟨report, hreport, hcutoff, hend, hrows⟩ := exists_report evenOdds (noonRows true) false
    (foldAt ((noonRows true).map StudentRow.toLabeledListing) false (epochHour 12) (epochHour 24))
  have hmem : report ∈ e.reports := by
    rw [hevaluates.reports]
    exact List.mem_flatMap.mpr ⟨_, hfold, hreport⟩
  have hknown : known report.cutoff report.end (noonRows true)
      = known report.cutoff report.end (noonRows false) := by
    rw [hcutoff, hend]
    show known (epochHour 12) (epochHour 24) _ = known (epochHour 12) (epochHour 24) _
    rw [known_noonRows, known_noonRows]
  obtain ⟨hshared, hsame⟩ := evaluateFolds_causal he he' hmem hknown
  exact ⟨e, e', he, he', report, hmem, hshared, hrows.trans hlength, hsame⟩

end BrandSniper.Student
