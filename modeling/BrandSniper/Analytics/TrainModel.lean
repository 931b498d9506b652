import BrandSniper.Analytics.ChooseThreshold
import BrandSniper.Analytics.WalkForward

/-!
# The student's model

`walk_forward_raw_scores` and `train_model` of `apps/analytics/train_student.py`.
LightGBM, the logistic regression and the sigmoid are a `Learner`: what they
compute depends on the rows they are fitted on and on the features they are
asked about.

The calibration scores cut the sorted rows into blocks; each block is scored by
a model of every row before it. A block is left out while the rows before it
hold one outcome only, and more rows never hold fewer outcomes, so the scored
rows are the last ones (`walkForwardRawScores_outOfSample`).
-/

namespace BrandSniper.Student

open Kit

/-- A labeled listing with what the student reads of it. -/
structure StudentRow (α : Type) extends LabeledListing where
  features : α
  isProfitable : Bool
  netMarginCents : Int

/-- A Platt scaling. -/
structure Platt where
  slope : ℚ
  intercept : ℚ

/-- LightGBM and the logistic regression, on features of a type `α` and with boosters of a type
`B`. -/
structure Learner (α B : Type) where
  fitBooster : List (α × Bool) → B
  rawScore : B → α → ℚ
  fitPlatt : List (ℚ × Bool) → Platt
  /-- `1.0 / (1.0 + np.exp(-(slope * raw + intercept)))` -/
  probability : Platt → ℚ → ℚ

structure StudentModel (B : Type) where
  booster : B
  platt : Platt
  threshold : ℚ
  calibrationRows : Nat

/-- `CALIBRATION_BLOCKS` -/
def calibrationBlocks : Nat := 5

section
variable {α B : Type}

/-- `len(set(outcomes(rows).tolist())) == 2` -/
def bothOutcomes (rows : List (StudentRow α)) : Bool :=
  rows.any (fun row => row.isProfitable) && rows.any fun row => !row.isProfitable

/-- `fit_booster` -/
def fitBooster (learner : Learner α B) (rows : List (StudentRow α)) : B :=
  learner.fitBooster (rows.map fun row => (row.features, row.isProfitable))

/-- `len(ordered) * index // CALIBRATION_BLOCKS` -/
def edge (ordered : List (StudentRow α)) (index : Nat) : Nat :=
  ordered.length * index / calibrationBlocks

/-- `ordered[: edges[block]]` -/
def earlier (ordered : List (StudentRow α)) (block : Nat) : List (StudentRow α) :=
  ordered.take (edge ordered block)

/-- `ordered[edges[block] : edges[block + 1]]` -/
def heldOut (ordered : List (StudentRow α)) (block : Nat) : List (StudentRow α) :=
  (ordered.take (edge ordered (block + 1))).drop (edge ordered block)

/-- The raw scores of a block. -/
def blockScores (learner : Learner α B) (ordered : List (StudentRow α)) (block : Nat) :
    List (StudentRow α × ℚ) :=
  if (heldOut ordered block).isEmpty || !bothOutcomes (earlier ordered block) then []
  else
    let booster := fitBooster learner (earlier ordered block)
    (heldOut ordered block).map fun row => (row, learner.rawScore booster row.features)

/-- The scored rows, each with its raw score. -/
def walkForwardRawScores (learner : Learner α B) (ordered : List (StudentRow α)) :
    List (StudentRow α × ℚ) :=
  (List.range' 1 (calibrationBlocks - 1)).flatMap (blockScores learner ordered)

/-- `(row.decided_at, row.listing_id)` -/
def trainingRank (row : StudentRow α) : ℤ ×ₗ String := toLex (row.decidedAt.micros, row.listingId)

/-- The Platt scaling of the calibration scores, if they hold both outcomes. -/
def plattOf (learner : Learner α B) (scores : List (StudentRow α × ℚ)) : Platt :=
  if bothOutcomes (scores.map Prod.fst) then
    learner.fitPlatt (scores.map fun score => (score.2, score.1.isProfitable))
  else ⟨1, 0⟩

def trainModel (learner : Learner α B) (rows : List (StudentRow α)) : StudentModel B :=
  let ordered := sortOn trainingRank rows
  let scores := walkForwardRawScores learner ordered
  let platt := plattOf learner scores
  { booster := fitBooster learner ordered
    platt := platt
    threshold := chooseThreshold (scores.map fun score =>
      ⟨learner.probability platt score.2, score.1.netMarginCents⟩)
    calibrationRows := scores.length }

/-- `model.predict` on the features of a row -/
def StudentModel.predict (learner : Learner α B) (model : StudentModel B) (features : α) : ℚ :=
  learner.probability model.platt (learner.rawScore model.booster features)

/-! ## Blocks -/

theorem edge_mono (ordered : List (StudentRow α)) {i j : Nat} (h : i ≤ j) :
    edge ordered i ≤ edge ordered j :=
  Nat.div_le_div_right (Nat.mul_le_mul_left _ h)

theorem edge_last (ordered : List (StudentRow α)) : edge ordered calibrationBlocks = ordered.length :=
  Nat.mul_div_cancel _ (by decide)

theorem edge_le_length (ordered : List (StudentRow α)) {i : Nat} (h : i ≤ calibrationBlocks) :
    edge ordered i ≤ ordered.length := by
  rw [← edge_last ordered]
  exact edge_mono ordered h

theorem length_heldOut (ordered : List (StudentRow α)) {block : Nat} (h : block < calibrationBlocks) :
    (heldOut ordered block).length = edge ordered (block + 1) - edge ordered block := by
  rw [heldOut, List.length_drop, List.length_take, Nat.min_eq_left (edge_le_length ordered h)]

/-- A block and the rows after it. -/
theorem heldOut_append (ordered : List (StudentRow α)) (block : Nat) :
    heldOut ordered block ++ ordered.drop (edge ordered (block + 1))
      = ordered.drop (edge ordered block) := by
  have hle : edge ordered block ≤ edge ordered (block + 1) := edge_mono ordered (Nat.le_succ block)
  obtain ⟨width, hwidth⟩ := Nat.exists_eq_add_of_le hle
  rw [heldOut, hwidth, List.drop_take, Nat.add_sub_cancel_left, ← List.drop_drop]
  exact List.take_append_drop width _

/-- More rows hold no fewer outcomes. -/
theorem bothOutcomes_mono {rows others : List (StudentRow α)} (hsub : ∀ row ∈ rows, row ∈ others)
    (h : bothOutcomes rows = true) : bothOutcomes others = true := by
  simp only [bothOutcomes, Bool.and_eq_true, List.any_eq_true] at h ⊢
  obtain ⟨⟨gain, hgain, hwon⟩, loss, hloss, hlost⟩ := h
  exact ⟨⟨gain, hsub gain hgain, hwon⟩, loss, hsub loss hloss, hlost⟩

theorem bothOutcomes_earlier_mono {ordered : List (StudentRow α)} {i j : Nat} (hij : i ≤ j)
    (h : bothOutcomes (earlier ordered i) = true) : bothOutcomes (earlier ordered j) = true := by
  refine bothOutcomes_mono (fun row hrow => ?_) h
  exact List.take_subset_take_left ordered (edge_mono ordered hij) hrow

/-- The scores of a block whose earlier rows hold both outcomes. -/
theorem blockScores_of_both {learner : Learner α B} {ordered : List (StudentRow α)} {block : Nat}
    (h : bothOutcomes (earlier ordered block) = true) :
    blockScores learner ordered block = (heldOut ordered block).map fun row =>
      (row, learner.rawScore (fitBooster learner (earlier ordered block)) row.features) := by
  unfold blockScores
  cases hheld : heldOut ordered block with
  | nil => rfl
  | cons row rest => simp [h]

theorem blockScores_of_one {learner : Learner α B} {ordered : List (StudentRow α)} {block : Nat}
    (h : bothOutcomes (earlier ordered block) = false) : blockScores learner ordered block = [] := by
  simp [blockScores, h]

/-! ## Out of sample -/

/-- What the scores of the blocks from one on are, when rows `start` and later are scored. -/
structure Scored (learner : Learner α B) (ordered : List (StudentRow α)) (start : Nat)
    (scores : List (StudentRow α × ℚ)) : Prop where
  rows : scores.map Prod.fst = ordered.drop start
  outOfSample : ∀ i row raw, scores[i]? = some (row, raw) → ∃ seen, start ≤ seen ∧ seen ≤ start + i ∧
    bothOutcomes (ordered.take seen) = true ∧
    raw = learner.rawScore (fitBooster learner (ordered.take seen)) row.features

/-- A scored block in front of scored blocks. -/
theorem Scored.cons {learner : Learner α B} {ordered : List (StudentRow α)} {block : Nat}
    {scores : List (StudentRow α × ℚ)} (hblock : block < calibrationBlocks)
    (hboth : bothOutcomes (earlier ordered block) = true)
    (hrest : Scored learner ordered (edge ordered (block + 1)) scores) :
    Scored learner ordered (edge ordered block) (blockScores learner ordered block ++ scores) := by
  have hle : edge ordered block ≤ edge ordered (block + 1) := edge_mono ordered (Nat.le_succ block)
  rw [blockScores_of_both hboth]
  constructor
  · rw [List.map_append, hrest.rows, List.map_map]
    refine Eq.trans ?_ (heldOut_append ordered block)
    congr 1
    exact List.map_id _
  · intro i row raw hi
    have hlength := length_heldOut ordered hblock
    rcases Nat.lt_or_ge i (heldOut ordered block).length with hin | hout
    · rw [List.getElem?_append_left (by rwa [List.length_map]), List.getElem?_map,
        Option.map_eq_some_iff] at hi
      obtain ⟨scored, -, heq⟩ := hi
      obtain ⟨rfl, rfl⟩ := Prod.mk.inj heq
      exact ⟨edge ordered block, Nat.le_refl _, Nat.le_add_right _ _, hboth, rfl⟩
    · rw [List.getElem?_append_right (by rwa [List.length_map]), List.length_map] at hi
      obtain ⟨seen, hstart, hseen, hmore, hraw⟩ := hrest.outOfSample _ row raw hi
      exact ⟨seen, hle.trans hstart, by omega, hmore, hraw⟩

/-- Once the rows before a block hold both outcomes, it and every later block is scored. -/
theorem scored_of_both (learner : Learner α B) (ordered : List (StudentRow α)) (count : Nat) :
    ∀ block, block + count = calibrationBlocks → bothOutcomes (earlier ordered block) = true →
      Scored learner ordered (edge ordered block)
        ((List.range' block count).flatMap (blockScores learner ordered)) := by
  induction count with
  | zero =>
      intro block hlast _
      obtain rfl : block = calibrationBlocks := hlast
      constructor
      · rw [edge_last, List.drop_length]
        rfl
      · intro i row raw hi
        cases hi
  | succ count ih =>
      intro block hlast hboth
      have hnext := bothOutcomes_earlier_mono (Nat.le_succ block) hboth
      rw [List.range'_succ, List.flatMap_cons]
      exact (ih (block + 1) (by omega) hnext).cons (by omega) hboth

/-- The blocks from one on: some are left out, and the rest is scored. -/
theorem scored_from (learner : Learner α B) (ordered : List (StudentRow α)) (count : Nat) :
    ∀ block, block + count = calibrationBlocks → ∃ first, block ≤ first ∧
      first ≤ calibrationBlocks ∧
      (∀ other, block ≤ other → other < first → bothOutcomes (earlier ordered other) = false) ∧
      Scored learner ordered (edge ordered first)
        ((List.range' block count).flatMap (blockScores learner ordered)) := by
  induction count with
  | zero =>
      intro block hlast
      obtain rfl : block = calibrationBlocks := hlast
      refine ⟨calibrationBlocks, Nat.le_refl _, Nat.le_refl _, fun other hle hlt => ?_, ?_, ?_⟩
      · omega
      · rw [edge_last, List.drop_length]
        rfl
      · intro i row raw hi
        cases hi
  | succ count ih =>
      intro block hlast
      cases hboth : bothOutcomes (earlier ordered block) with
      | true =>
          refine ⟨block, Nat.le_refl _, by omega, fun other hle hlt => by omega, ?_⟩
          exact scored_of_both learner ordered (count + 1) block hlast hboth
      | false =>
          obtain ⟨first, hle, hfirst, hone, hscored⟩ := ih (block + 1) (by omega)
          refine ⟨first, by omega, hfirst, fun other hother hlt => ?_, ?_⟩
          · rcases Nat.eq_or_lt_of_le hother with rfl | hlater
            · exact hboth
            · exact hone other hlater hlt
          · rw [List.range'_succ, List.flatMap_cons, blockScores_of_one hboth, List.nil_append]
            exact hscored

/-- Every score the threshold is chosen on is out of sample: the scored rows are the rows from
the first block on whose earlier rows hold both outcomes, each scored once, by a model of rows
that come before it in time. -/
theorem walkForwardRawScores_outOfSample (learner : Learner α B) (rows : List (StudentRow α)) :
    ∃ first, 1 ≤ first ∧ first ≤ calibrationBlocks ∧
      (∀ block, 1 ≤ block → block < first →
        bothOutcomes (earlier (sortOn trainingRank rows) block) = false) ∧
      Scored learner (sortOn trainingRank rows) (edge (sortOn trainingRank rows) first)
        (walkForwardRawScores learner (sortOn trainingRank rows)) ∧
      (sortOn trainingRank rows).Pairwise fun a b => trainingRank a ≤ trainingRank b := by
  obtain ⟨first, hle, hfirst, hone, hscored⟩ :=
    scored_from learner (sortOn trainingRank rows) (calibrationBlocks - 1) 1 rfl
  exact ⟨first, hle, hfirst, hone, hscored, pairwise_sortOn rows⟩

end

end BrandSniper.Student
