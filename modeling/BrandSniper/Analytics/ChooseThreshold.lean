import BrandSniper.Kit.Ranked
import Mathlib.Algebra.Order.Ring.Rat
import Mathlib.Tactic.Linarith

/-!
# The student's threshold

`choose_threshold` of `apps/analytics/train_student.py`, and the rule it is
chosen for: `evaluate_folds` approves a listing whose probability is at least
the threshold.

The scan looks at every prefix of the calibration rows, by descending
probability. The rule cannot stop inside a run of equal probabilities, so what
it approves at the chosen threshold is the best prefix and the rows tied with
its last one. It is the best the rule can do exactly when these rows do not lose
more than the best prefix is ahead of the prefixes the rule can approve
(`chooseThreshold_optimal_iff`).
-/

namespace BrandSniper.Student

open Kit

/-- `MIN_SAMPLE` -/
def minSample : Nat := 30

/-- A calibration row, with the margin in cents. -/
structure CalibrationRow where
  probability : ℚ
  margin : ℚ

def cumsumFrom (sum : ℚ) : List ℚ → List ℚ
  | [] => []
  | value :: values => (sum + value) :: cumsumFrom (sum + value) values

/-- `np.cumsum` -/
def cumsum (values : List ℚ) : List ℚ := cumsumFrom 0 values

def chooseThreshold (rows : List CalibrationRow) : ℚ :=
  if rows.length < minSample then 1 / 2
  else
    let order := ranked CalibrationRow.probability rows
    let cumulative := cumsum (order.map CalibrationRow.margin)
    let bestIndex := minSample - 1 + argmax (cumulative.drop (minSample - 1))
    (order[bestIndex]?.map CalibrationRow.probability).getD 0

/-- The rows `evaluate_folds` approves at a threshold. -/
def approved (threshold : ℚ) (rows : List CalibrationRow) : List CalibrationRow :=
  rows.filter fun row => threshold ≤ row.probability

/-! ## Totals -/

def totalMargin : List CalibrationRow → ℚ
  | [] => 0
  | row :: rows => row.margin + totalMargin rows

theorem totalMargin_append (rows others : List CalibrationRow) :
    totalMargin (rows ++ others) = totalMargin rows + totalMargin others := by
  induction rows with
  | nil => simp [totalMargin]
  | cons row rows ih =>
      rw [List.cons_append, totalMargin, totalMargin, ih, add_assoc]

theorem totalMargin_perm {rows others : List CalibrationRow} (h : rows.Perm others) :
    totalMargin rows = totalMargin others := by
  induction h with
  | nil => rfl
  | cons row _ ih => rw [totalMargin, totalMargin, ih]
  | swap row other rows =>
      simp only [totalMargin]
      exact add_left_comm _ _ _
  | trans _ _ ih ih' => rw [ih, ih']

theorem getElem?_cumsumFrom (rows : List CalibrationRow) (sum : ℚ) (i : Nat) :
    (cumsumFrom sum (rows.map CalibrationRow.margin))[i]?
      = if i < rows.length then some (sum + totalMargin (rows.take (i + 1))) else none := by
  induction rows generalizing sum i with
  | nil => rfl
  | cons row rows ih =>
      rw [List.map_cons, cumsumFrom]
      cases i with
      | zero => simp [totalMargin]
      | succ i =>
          rw [List.getElem?_cons_succ, ih, List.take_succ_cons, totalMargin, List.length_cons]
          simp only [Nat.add_lt_add_iff_right, add_assoc]

/-! ## The rule's view of a ranking -/

section
variable {rows : List CalibrationRow}

/-- The total of the first rows of the ranking, up to the `i`th. -/
def cutTotal (rows : List CalibrationRow) (i : Nat) : ℚ :=
  totalMargin ((ranked CalibrationRow.probability rows).take (i + 1))

/-- The rows of the ranking after the `i`th that are tied with it. -/
def tied (rows : List CalibrationRow) (i : Nat) : List CalibrationRow :=
  tiedAfter CalibrationRow.probability (ranked CalibrationRow.probability rows) i

/-- A place to cut the ranking, with enough rows before it. -/
def IsCut (rows : List CalibrationRow) (i : Nat) : Prop :=
  minSample ≤ i + 1 ∧ i < rows.length

/-- The first cut with the greatest total. -/
def IsBestCut (rows : List CalibrationRow) (i : Nat) : Prop :=
  IsCut rows i ∧ ∀ j, IsCut rows j →
    cutTotal rows j ≤ cutTotal rows i ∧ (cutTotal rows i ≤ cutTotal rows j → i ≤ j)

theorem length_ranked : (ranked CalibrationRow.probability rows).length = rows.length :=
  (perm_ranked CalibrationRow.probability rows).length_eq

theorem approved_perm (threshold : ℚ) (rows : List CalibrationRow) :
    ((ranked CalibrationRow.probability rows).filter fun row => threshold ≤ row.probability).Perm
      (approved threshold rows) :=
  (perm_ranked CalibrationRow.probability rows).filter _

/-- The probability of a cut's last row approves the cut and what is tied with it. -/
theorem approved_at {i : Nat} {last : CalibrationRow}
    (hi : (ranked CalibrationRow.probability rows)[i]? = some last) :
    i + 1 ≤ (approved last.probability rows).length ∧
      totalMargin (approved last.probability rows)
        = cutTotal rows i + totalMargin (tied rows i) := by
  have hperm := approved_perm last.probability rows
  rw [filter_at (ranked_sorted CalibrationRow.probability rows) hi] at hperm
  obtain ⟨hlt, -⟩ := List.getElem?_eq_some_iff.mp hi
  constructor
  · rw [← hperm.length_eq, List.length_append, List.length_take]
    omega
  · rw [← totalMargin_perm hperm, totalMargin_append, cutTotal, tied]

/-- A threshold that approves enough rows approves a cut that nothing is tied with. -/
theorem exists_cut_of_approved {threshold : ℚ}
    (h : minSample ≤ (approved threshold rows).length) :
    ∃ i, IsCut rows i ∧ tied rows i = [] ∧
      totalMargin (approved threshold rows) = cutTotal rows i := by
  have hperm := approved_perm threshold rows
  have hpos : 0 < ((ranked CalibrationRow.probability rows).filter
      fun row => threshold ≤ row.probability).length := by
    rw [hperm.length_eq]
    exact Nat.lt_of_lt_of_le (by decide) h
  obtain ⟨i, hi, htake, htied⟩ :=
    exists_filter_eq (ranked_sorted CalibrationRow.probability rows) hpos
  rw [htake] at hperm
  refine ⟨i, ⟨?_, by rwa [length_ranked] at hi⟩, htied, (totalMargin_perm hperm).symm⟩
  rw [← hperm.length_eq, List.length_take] at h
  omega

/-- What is chosen is the probability of the best cut's last row. -/
theorem chooseThreshold_spec (h : minSample ≤ rows.length) :
    ∃ i last, IsBestCut rows i ∧ (ranked CalibrationRow.probability rows)[i]? = some last ∧
      chooseThreshold rows = last.probability := by
  set order := ranked CalibrationRow.probability rows with horder
  set cumulative := cumsum (order.map CalibrationRow.margin) with hcumulative
  have hlength : order.length = rows.length := length_ranked
  have hcut : ∀ j, (cumulative.drop (minSample - 1))[j]?
      = if minSample - 1 + j < rows.length then some (cutTotal rows (minSample - 1 + j))
        else none := by
    intro j
    rw [List.getElem?_drop, hcumulative, cumsum, getElem?_cumsumFrom, hlength, zero_add]
    rfl
  have hne : cumulative.drop (minSample - 1) ≠ [] := by
    intro hnil
    have hfirst := hcut 0
    rw [hnil, if_pos (by unfold minSample at h ⊢; omega)] at hfirst
    cases hfirst
  obtain ⟨best, hbest, hmax⟩ := argmax_spec hne
  have hat := hcut (argmax (cumulative.drop (minSample - 1)))
  rw [hbest] at hat
  split at hat
  · rename_i hlt
    rw [Option.some.injEq] at hat
    obtain ⟨last, hlast⟩ : ∃ last, order[minSample - 1 +
        argmax (cumulative.drop (minSample - 1))]? = some last :=
      ⟨_, List.getElem?_eq_getElem (by rwa [hlength])⟩
    refine ⟨_, last, ⟨⟨by unfold minSample; omega, hlt⟩, fun j hj => ?_⟩, hlast, ?_⟩
    · -- a cut is one of the values the scan looks at
      obtain ⟨k, rfl⟩ : ∃ k, j = minSample - 1 + k :=
        ⟨j - (minSample - 1), by have := hj.1; unfold minSample at this ⊢; omega⟩
      have hk := hcut k
      rw [if_pos hj.2] at hk
      obtain ⟨hle, hfirst⟩ := hmax k _ hk
      rw [← hat]
      exact ⟨hle, fun hge => Nat.add_le_add_left (hfirst hge) _⟩
    · rw [chooseThreshold, if_neg (not_lt.mpr h)]
      simp only [← horder, ← hcumulative]
      rw [hlast, Option.map_some, Option.getD_some]
  · cases hat

/-- No threshold that approves enough rows has a greater total. -/
def IsOptimal (rows : List CalibrationRow) (threshold : ℚ) : Prop :=
  minSample ≤ (approved threshold rows).length ∧
    ∀ other, minSample ≤ (approved other rows).length →
      totalMargin (approved other rows) ≤ totalMargin (approved threshold rows)

theorem IsBestCut.unique {i j : Nat} (hi : IsBestCut rows i) (hj : IsBestCut rows j) : i = j := by
  obtain ⟨hji, hfirst⟩ := hi.2 j hj.1
  obtain ⟨hij, hfirst'⟩ := hj.2 i hi.1
  exact Nat.le_antisymm (hfirst hij) (hfirst' hji)

/-- The chosen threshold is optimal exactly when the rows tied with the best cut do not lose more
than the best cut is ahead of each cut that nothing is tied with. -/
theorem chooseThreshold_optimal_iff (h : minSample ≤ rows.length) :
    IsOptimal rows (chooseThreshold rows) ↔
      ∀ i, IsBestCut rows i → ∀ j, IsCut rows j → tied rows j = [] →
        -totalMargin (tied rows i) ≤ cutTotal rows i - cutTotal rows j := by
  obtain ⟨best, last, hbest, hlast, hchosen⟩ := chooseThreshold_spec h
  obtain ⟨hcount, htotal⟩ := approved_at hlast
  rw [hchosen]
  constructor
  · rintro ⟨-, hoptimal⟩ i hi j hj htied
    obtain rfl := hi.unique hbest
    obtain ⟨other, hother⟩ : ∃ other, (ranked CalibrationRow.probability rows)[j]? = some other :=
      ⟨_, List.getElem?_eq_getElem (by rw [length_ranked]; exact hj.2)⟩
    obtain ⟨hcount', htotal'⟩ := approved_at hother
    have hle := hoptimal other.probability (hj.1.trans hcount')
    rw [htotal, htotal', htied, totalMargin] at hle
    linarith
  · intro hties
    refine ⟨hbest.1.1.trans hcount, fun other hother => ?_⟩
    obtain ⟨j, hj, htied, htotal'⟩ := exists_cut_of_approved hother
    have hle := hties best hbest j hj htied
    rw [htotal, htotal']
    linarith

end

/-- Thirty rows that gain a cent each, and two of lower probability. -/
def thirtyAnd (probability probability' : ℚ) : List CalibrationRow :=
  List.replicate 30 ⟨9 / 10, 1⟩ ++ [⟨probability, 1⟩, ⟨probability', -100⟩]

/-- Without a tie at the best cut the chosen threshold is optimal. -/
theorem chooseThreshold_optimal_iff_untied :
    IsOptimal (thirtyAnd (1 / 2) (2 / 5)) (chooseThreshold (thirtyAnd (1 / 2) (2 / 5))) := by
  refine (chooseThreshold_optimal_iff (by decide)).mpr fun i hi j hj _ => ?_
  have huntied : ∀ k, IsCut (thirtyAnd (1 / 2) (2 / 5)) k →
      tied (thirtyAnd (1 / 2) (2 / 5)) k = [] := by
    rintro k ⟨hlow, hhigh⟩
    have hlength : (thirtyAnd (1 / 2) (2 / 5)).length = 32 := rfl
    rw [hlength] at hhigh
    unfold minSample at hlow
    have hcases : k = 29 ∨ k = 30 ∨ k = 31 := by omega
    rcases hcases with rfl | rfl | rfl <;> exact List.isEmpty_iff.mp (by decide +kernel)
  rw [huntied i hi.1, totalMargin]
  have hle := (hi.2 j hj).1
  linarith

/-- With the last two tied, the threshold approves both of them, and 0.9 is better. -/
theorem not_chooseThreshold_optimal_tied :
    ¬ IsOptimal (thirtyAnd (1 / 2) (1 / 2)) (chooseThreshold (thirtyAnd (1 / 2) (1 / 2))) := by
  rintro ⟨-, hoptimal⟩
  have hbetter := hoptimal (9 / 10) (by decide +kernel)
  exact absurd hbetter (by decide +kernel)

end BrandSniper.Student
