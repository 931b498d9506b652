import BrandSniper.Kit.NearestGrid
import Mathlib.Algebra.Order.Ring.Rat
import Mathlib.Tactic.NormNum

/-!
# Split thresholds in single precision

`_split_thresholds` and `round_thresholds_down` of `apps/analytics/train_student.py`.
LightGBM splits on double thresholds. The converter rounds each to single
precision, and `round_thresholds_down` moves those that were rounded up to the
value below, so that a single precision input takes the branch it took.

A node's threshold is looked up by its feature and its rounded value. Where
another threshold of the feature has the same rounded value and is not below
it, a node that was rounded up is left alone, and the value itself goes the
other way (`keepsEverySplit_iff`).

Single precision is a grid of rationals, and `⊥` is what is below all of it.
-/

namespace BrandSniper.Student

open Kit

/-! ## Trees -/

/-- A tree as `dump_model` has it. -/
inductive Tree where
  | leaf
  | split (feature : Nat) (threshold : ℚ) (left right : Tree)

namespace Tree

def size : Tree → Nat
  | leaf => 1
  | split _ _ left right => 1 + left.size + right.size

/-- The nodes from the root on, with feature and threshold where they split. -/
def nodes : Tree → List (Option (Nat × ℚ))
  | leaf => [none]
  | split feature threshold left right =>
      some (feature, threshold) :: (left.nodes ++ right.nodes)

end Tree

/-- The loop of `_split_thresholds`: the top of the stack is its head. -/
def splitThresholdsLoop : List Tree → List (Nat × ℚ) → List (Nat × ℚ)
  | [], thresholds => thresholds
  | .leaf :: stack, thresholds => splitThresholdsLoop stack thresholds
  | .split feature threshold left right :: stack, thresholds =>
      splitThresholdsLoop (right :: left :: stack) ((feature, threshold) :: thresholds)
termination_by stack => (stack.map Tree.size).sum
decreasing_by
  all_goals simp [Tree.size]
  all_goals omega

/-- The thresholds of each feature. -/
def splitThresholds (trees : List Tree) (feature : Nat) : List ℚ :=
  (splitThresholdsLoop trees.reverse []).filterMap fun split =>
    if split.1 = feature then some split.2 else none

/-! ## The exported model -/

inductive NodeMode where
  | branchLeq
  | leaf
  deriving DecidableEq

/-- A node of the exported ensemble. A branch goes left on `x ≤ value`. -/
structure OnnxNode where
  featureId : Nat
  mode : NodeMode
  value : WithBot ℚ

section
variable (grid : NearestGrid ℚ)

/-- What the converter makes of a node. -/
def exportNode : Option (Nat × ℚ) → OnnxNode
  | none => ⟨0, .leaf, (0 : ℚ)⟩
  | some (feature, threshold) => ⟨feature, .branchLeq, grid.round threshold⟩

/-- One turn of the loop: the node, and whether its value moved. -/
def roundNodeDown (thresholds : Nat → List ℚ) (node : OnnxNode) : OnnxNode × Bool :=
  if node.mode = .branchLeq then
    let stored := node.value
    let originals := (thresholds node.featureId).filter fun threshold =>
      (grid.round threshold : WithBot ℚ) = stored
    if originals ≠ [] ∧ ∀ threshold ∈ originals, (threshold : WithBot ℚ) < stored then
      ({ node with value := grid.below stored }, true)
    else (node, false)
  else (node, false)

/-- The nodes, and how many thresholds moved. -/
def roundThresholdsDown (nodes : List OnnxNode) (trees : List Tree) : List OnnxNode × Nat :=
  let rounded := nodes.map (roundNodeDown grid (splitThresholds trees))
  (rounded.map Prod.fst, rounded.countP Prod.snd)

end

/-! ## What the lookup finds -/

theorem mem_splitThresholdsLoop {stack : List Tree} {thresholds : List (Nat × ℚ)}
    {split : Nat × ℚ} : split ∈ splitThresholdsLoop stack thresholds ↔
      split ∈ thresholds ∨ ∃ tree ∈ stack, some split ∈ tree.nodes := by
  induction stack, thresholds using splitThresholdsLoop.induct with
  | case1 thresholds => simp [splitThresholdsLoop]
  | case2 thresholds stack ih =>
      rw [splitThresholdsLoop, ih]
      simp [Tree.nodes]
  | case3 thresholds feature threshold left right stack ih =>
      rw [splitThresholdsLoop, ih]
      simp only [List.mem_cons, exists_eq_or_imp, Tree.nodes, Option.some.injEq, List.mem_append]
      tauto

theorem mem_splitThresholds {trees : List Tree} {feature : Nat} {threshold : ℚ} :
    threshold ∈ splitThresholds trees feature ↔
      ∃ tree ∈ trees, some (feature, threshold) ∈ tree.nodes := by
  rw [splitThresholds, List.mem_filterMap]
  constructor
  · rintro ⟨⟨feature', threshold'⟩, hmem, hsplit⟩
    split at hsplit
    · rename_i hfeature
      cases hsplit
      obtain rfl : feature' = feature := hfeature
      simpa [mem_splitThresholdsLoop] using hmem
    · cases hsplit
  · intro h
    refine ⟨(feature, threshold), ?_, if_pos rfl⟩
    simpa [mem_splitThresholdsLoop] using h

section
variable {grid : NearestGrid ℚ} {trees : List Tree} {feature : Nat} {threshold : ℚ}

/-- The threshold was rounded up, and another one of its feature has the same rounded value
without being below it. -/
def Collides (grid : NearestGrid ℚ) (trees : List Tree) (feature : Nat) (threshold : ℚ) : Prop :=
  threshold < grid.round threshold ∧
    ∃ other ∈ splitThresholds trees feature, grid.round other = grid.round threshold ∧
      grid.round threshold ≤ other

/-- The value a branch ends up with. -/
theorem roundNodeDown_value (h : threshold ∈ splitThresholds trees feature) :
    (roundNodeDown grid (splitThresholds trees)
        (exportNode grid (some (feature, threshold)))).1.value
      = if ∀ other ∈ splitThresholds trees feature, grid.round other = grid.round threshold →
            other < grid.round threshold then grid.below (grid.round threshold)
        else (grid.round threshold : WithBot ℚ) := by
  have hne : ((splitThresholds trees feature).filter fun other =>
      decide ((grid.round other : WithBot ℚ) = (grid.round threshold : ℚ))) ≠ [] :=
    List.ne_nil_of_mem (List.mem_filter.mpr ⟨h, decide_eq_true rfl⟩)
  rw [roundNodeDown, exportNode, if_pos rfl]
  simp only [List.mem_filter, decide_eq_true_eq, WithBot.coe_inj, WithBot.coe_lt_coe, and_imp]
    at hne ⊢
  by_cases hall : ∀ other ∈ splitThresholds trees feature,
      grid.round other = grid.round threshold → other < grid.round threshold
  · rw [if_pos hall, if_pos ⟨hne, hall⟩]
  · rw [if_neg hall, if_neg fun h => hall h.2]

/-- Grid inputs take the branch they took, unless the threshold collides with another one. -/
theorem keepsSplit_iff (h : threshold ∈ splitThresholds trees feature) :
    (∀ x ∈ grid.points, (x : WithBot ℚ) ≤ (roundNodeDown grid (splitThresholds trees)
        (exportNode grid (some (feature, threshold)))).1.value ↔ x ≤ threshold) ↔
      ¬ Collides grid trees feature threshold := by
  rw [roundNodeDown_value h]
  rcases le_or_gt (grid.round threshold) threshold with hle | hlt
  · -- not rounded up: the threshold itself keeps its node from moving
    have hstay : ¬ ∀ other ∈ splitThresholds trees feature,
        grid.round other = grid.round threshold → other < grid.round threshold :=
      fun hall => not_lt.mpr hle (hall threshold h rfl)
    rw [if_neg hstay]
    refine iff_of_true (fun x hx => ?_) fun hcollides => not_lt.mpr hle hcollides.1
    rw [WithBot.coe_le_coe]
    exact grid.le_round_iff hle hx
  · by_cases hall : ∀ other ∈ splitThresholds trees feature,
        grid.round other = grid.round threshold → other < grid.round threshold
    · rw [if_pos hall]
      refine iff_of_true (fun x hx => ?_) ?_
      · rw [grid.le_below_iff hx, WithBot.coe_lt_coe]
        exact grid.lt_round_iff hlt hx
      · rintro ⟨-, other, hother, hround, hge⟩
        exact not_lt.mpr hge (hall other hother hround)
    · rw [if_neg hall]
      refine iff_of_false (fun hparity => ?_) fun hnot => hall fun other hother hround => ?_
      · -- the rounded threshold itself goes left now
        have hself := (hparity _ (grid.round_mem threshold)).mp le_rfl
        exact not_lt.mpr hself hlt
      · by_contra hge
        exact hnot ⟨hlt, other, hother, hround, not_lt.mp hge⟩

/-- Every branch of the exported model sends every grid input where its tree does. The nodes may
stand in any order. -/
def KeepsEverySplit (grid : NearestGrid ℚ) (trees : List Tree)
    (order : List (Option (Nat × ℚ))) : Prop :=
  ∀ (i feature : Nat) (threshold : ℚ) (node : OnnxNode),
    order[i]? = some (some (feature, threshold)) →
    (roundThresholdsDown grid (order.map (exportNode grid)) trees).1[i]? = some node →
    ∀ x ∈ grid.points, (x : WithBot ℚ) ≤ node.value ↔ x ≤ threshold

theorem getElem?_roundThresholdsDown (order : List (Option (Nat × ℚ))) (i : Nat) :
    (roundThresholdsDown grid (order.map (exportNode grid)) trees).1[i]?
      = order[i]?.map fun original =>
          (roundNodeDown grid (splitThresholds trees) (exportNode grid original)).1 := by
  simp [roundThresholdsDown, List.getElem?_map, Function.comp_def]

/-- Exactly the ensembles without a collision keep every split. -/
theorem keepsEverySplit_iff {order : List (Option (Nat × ℚ))}
    (horder : order.Perm (trees.flatMap Tree.nodes)) :
    KeepsEverySplit grid trees order ↔
      ∀ feature, ∀ threshold ∈ splitThresholds trees feature,
        ¬ Collides grid trees feature threshold := by
  have hmem : ∀ feature threshold, threshold ∈ splitThresholds trees feature ↔
      some (feature, threshold) ∈ order := by
    intro feature threshold
    rw [mem_splitThresholds, horder.mem_iff, List.mem_flatMap]
  constructor
  · intro hkeeps feature threshold hthreshold
    obtain ⟨i, hi⟩ := List.mem_iff_getElem?.mp ((hmem feature threshold).mp hthreshold)
    refine (keepsSplit_iff hthreshold).mp (hkeeps i feature threshold _ hi ?_)
    rw [getElem?_roundThresholdsDown, hi, Option.map_some]
  · intro hfree i feature threshold node hi hrounded
    rw [getElem?_roundThresholdsDown, hi, Option.map_some, Option.some.injEq] at hrounded
    have hthreshold := (hmem feature threshold).mpr (List.mem_of_getElem? hi)
    rw [← hrounded]
    exact (keepsSplit_iff hthreshold).mpr (hfree feature threshold hthreshold)

end

/-! ## Two thresholds of one value -/

/-- The two single precision numbers around 0.1. -/
def belowTenth : ℚ := 13421772 / 2 ^ 27
def aboveTenth : ℚ := 13421773 / 2 ^ 27

def tenthRound (t : ℚ) : ℚ := if t - belowTenth ≤ aboveTenth - t then belowTenth else aboveTenth

theorem tenthRound_mem (t : ℚ) : tenthRound t ∈ ({belowTenth, aboveTenth} : Finset ℚ) := by
  unfold tenthRound
  split <;> simp

theorem tenthRound_nearest (t : ℚ) :
    ∀ x ∈ ({belowTenth, aboveTenth} : Finset ℚ), |t - tenthRound t| ≤ |t - x| := by
  intro x hx
  have hlt : belowTenth < aboveTenth := by norm_num [belowTenth, aboveTenth]
  rw [Finset.mem_insert, Finset.mem_singleton] at hx
  unfold tenthRound
  rcases hx with rfl | rfl
  · split
    · exact le_rfl
    · rename_i h
      rw [abs_le]
      have hle := le_abs_self (t - belowTenth)
      constructor <;> linarith
  · split
    · rename_i h
      rw [abs_le]
      have hle := neg_le_abs (t - aboveTenth)
      constructor <;> linarith
    · exact le_rfl

def tenthGrid : NearestGrid ℚ where
  points := {belowTenth, aboveTenth}
  round := tenthRound
  round_mem := tenthRound_mem
  nearest := tenthRound_nearest

/-- Two splits on one feature. -/
def twoSplits (a b : ℚ) : List Tree := [.split 0 a (.split 0 b .leaf .leaf) .leaf]

theorem mem_twoSplits {a b threshold : ℚ} {feature : Nat}
    (h : threshold ∈ splitThresholds (twoSplits a b) feature) : threshold = a ∨ threshold = b := by
  rw [mem_splitThresholds] at h
  simp only [twoSplits, List.mem_singleton, exists_eq_left, Tree.nodes] at h
  simp at h
  tauto

/-- Both thresholds are rounded up, and neither is on the grid. -/
theorem keepsEverySplit_iff_moved :
    KeepsEverySplit tenthGrid (twoSplits (1 / 10) (100000001 / 1000000000))
      ((twoSplits (1 / 10) (100000001 / 1000000000)).flatMap Tree.nodes) := by
  refine (keepsEverySplit_iff (List.Perm.refl _)).mpr fun feature threshold h hcollides => ?_
  obtain ⟨hlt, other, hother, hround, hge⟩ := hcollides
  have hthreshold := mem_twoSplits h
  have hsecond := mem_twoSplits hother
  rcases hthreshold with rfl | rfl <;> rcases hsecond with rfl | rfl <;>
    norm_num [tenthGrid, tenthRound, belowTenth, aboveTenth] at hge

/-- The first threshold is rounded up to the second, which is on the grid. The grid number above
0.1 goes left at the first split then. -/
theorem not_keepsEverySplit_shared :
    ¬ KeepsEverySplit tenthGrid (twoSplits (1 / 10) aboveTenth)
      ((twoSplits (1 / 10) aboveTenth).flatMap Tree.nodes) := by
  intro hkeeps
  have hmem : ∀ threshold, threshold = 1 / 10 ∨ threshold = aboveTenth →
      threshold ∈ splitThresholds (twoSplits (1 / 10) aboveTenth) 0 := by
    intro threshold h
    rw [mem_splitThresholds]
    simpa [twoSplits, Tree.nodes] using h
  have hfirst := hmem (1 / 10) (.inl rfl)
  have hfree := (keepsSplit_iff hfirst).mp (hkeeps 0 0 (1 / 10) _ rfl (by
    rw [getElem?_roundThresholdsDown]
    rfl))
  refine hfree ⟨?_, aboveTenth, hmem _ (.inr rfl), ?_, ?_⟩ <;>
    norm_num [tenthGrid, tenthRound, belowTenth, aboveTenth]

end BrandSniper.Student
