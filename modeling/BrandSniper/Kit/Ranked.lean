import Mathlib.Data.List.MinMax
import Mathlib.Data.List.Sort

/-!
# Ranked rows

Rows in descending order of a key. Asking for the rows whose key is at least
some threshold cuts the ranking after a prefix, and never inside a run of equal
keys; a cut at any row, and the rows after it with the same key, is what its own
key asks for.
-/

namespace Kit

section
variable {α K : Type} [LinearOrder K] (key : α → K)

/-- The rows by descending key; rows of one key keep their order. -/
def ranked (rows : List α) : List α := rows.insertionSort fun a b => key b ≤ key a

/-- The rows after the `i`th that have its key. -/
def tiedAfter (rows : List α) (i : Nat) : List α :=
  (rows.drop (i + 1)).filter fun row => rows[i]?.map key = some (key row)

theorem perm_ranked (rows : List α) : (ranked key rows).Perm rows :=
  List.perm_insertionSort _ rows

theorem ranked_sorted (rows : List α) :
    (ranked key rows).Pairwise fun a b => key b ≤ key a := by
  have : Std.Total fun a b : α => key b ≤ key a := ⟨fun a b => le_total (key b) (key a)⟩
  have : IsTrans α fun a b : α => key b ≤ key a := ⟨fun _ _ _ hab hbc => hbc.trans hab⟩
  exact List.pairwise_insertionSort _ rows

variable {key} {rows : List α}

theorem key_le_of_lt (hsorted : rows.Pairwise fun a b => key b ≤ key a) {i j : Nat} {a b : α}
    (hi : rows[i]? = some a) (hj : rows[j]? = some b) (hij : i < j) : key b ≤ key a := by
  obtain ⟨hilt, rfl⟩ := List.getElem?_eq_some_iff.mp hi
  obtain ⟨hjlt, rfl⟩ := List.getElem?_eq_some_iff.mp hj
  exact List.pairwise_iff_getElem.mp hsorted i j hilt hjlt hij

/-- The rows at or above a threshold, as a prefix. -/
theorem filter_eq_take (hsorted : rows.Pairwise fun a b => key b ≤ key a) (threshold : K) :
    rows.filter (fun row => threshold ≤ key row)
      = rows.take (rows.filter fun row => threshold ≤ key row).length := by
  induction rows with
  | nil => rfl
  | cons row rows ih =>
      rw [List.pairwise_cons] at hsorted
      by_cases h : threshold ≤ key row
      · rw [List.filter_cons_of_pos (by simpa using h), List.length_cons, List.take_succ_cons,
          ← ih hsorted.2]
      · have hnone : rows.filter (fun row => threshold ≤ key row) = [] := by
          rw [List.filter_eq_nil_iff]
          intro other hother
          rw [decide_eq_true_eq]
          exact fun hle => h (hle.trans (hsorted.1 other hother))
        rw [List.filter_cons_of_neg (by simpa using h), hnone]
        rfl

/-- What the key of a row asks for: the rows up to it, and those tied with it. -/
theorem filter_at (hsorted : rows.Pairwise fun a b => key b ≤ key a) {i : Nat} {last : α}
    (hi : rows[i]? = some last) :
    rows.filter (fun row => key last ≤ key row) = rows.take (i + 1) ++ tiedAfter key rows i := by
  conv_lhs => rw [← List.take_append_drop (i + 1) rows, List.filter_append]
  congr 1
  · rw [List.filter_eq_self]
    intro row hrow
    obtain ⟨j, hj⟩ := List.mem_iff_getElem?.mp hrow
    rw [List.getElem?_take] at hj
    split at hj
    · rename_i hlt
      rw [decide_eq_true_eq]
      rcases Nat.lt_succ_iff_lt_or_eq.mp hlt with hji | rfl
      · exact key_le_of_lt hsorted hj hi hji
      · rw [hi, Option.some.injEq] at hj
        rw [hj]
    · cases hj
  · apply List.filter_congr
    intro row hrow
    obtain ⟨j, hj⟩ := List.mem_iff_getElem?.mp hrow
    rw [List.getElem?_drop] at hj
    have hle := key_le_of_lt hsorted hi hj (by omega)
    rw [hi]
    simp only [Option.map_some, Option.some.injEq, decide_eq_decide]
    exact ⟨fun h => le_antisymm h hle, fun h => h.le⟩

/-- A threshold cuts the ranking where a run of equal keys ends. -/
theorem exists_filter_eq (hsorted : rows.Pairwise fun a b => key b ≤ key a) {threshold : K}
    (hpos : 0 < (rows.filter fun row => threshold ≤ key row).length) :
    ∃ i < rows.length, rows.filter (fun row => threshold ≤ key row) = rows.take (i + 1) ∧
      tiedAfter key rows i = [] := by
  obtain ⟨i, hcount⟩ := Nat.exists_eq_add_of_lt hpos
  have htake := filter_eq_take hsorted threshold
  have hlen := List.length_filter_le (fun row => decide (threshold ≤ key row)) rows
  have hi : i < rows.length := by omega
  rw [hcount] at htake
  rw [Nat.zero_add] at htake
  refine ⟨i, hi, htake, ?_⟩
  -- the row the cut ends with is above the threshold, and those after the cut are below
  have hlast : threshold ≤ key rows[i] := by
    have hmem : rows[i] ∈ rows.filter fun row => threshold ≤ key row := by
      rw [htake]
      exact List.mem_take_iff_getElem.mpr ⟨i, by omega, rfl⟩
    simpa using (List.mem_filter.mp hmem).2
  have hrest : (rows.drop (i + 1)).filter (fun row => threshold ≤ key row) = [] := by
    have hself : (rows.take (i + 1)).filter (fun row => threshold ≤ key row)
        = rows.take (i + 1) := by
      rw [← htake, List.filter_filter]
      simp only [Bool.and_self]
    have hsplit := htake
    rw [← List.take_append_drop (i + 1) rows, List.filter_append, hself,
      List.take_append_drop] at hsplit
    exact List.append_right_eq_self.mp hsplit
  rw [tiedAfter, List.filter_eq_nil_iff]
  intro row hrow htied
  rw [List.getElem?_eq_getElem hi] at htied
  simp only [Option.map_some, Option.some.injEq, decide_eq_true_eq] at htied
  have hnot := List.filter_eq_nil_iff.mp hrest row hrow
  rw [decide_eq_true_eq, ← htied] at hnot
  exact hnot hlast

end

/-! ## The first maximum -/

section
variable {K : Type} [LinearOrder K] [Inhabited K]

/-- The place of the greatest value, the first one where it stands several times. -/
def argmax (values : List K) : Nat :=
  ((List.range values.length).argmax fun i => values.getD i default).getD 0

theorem argmax_spec {values : List K} (h : values ≠ []) :
    ∃ best, values[argmax values]? = some best ∧ ∀ j value, values[j]? = some value →
      value ≤ best ∧ (best ≤ value → argmax values ≤ j) := by
  have hne : (List.range values.length).argmax (fun i => values.getD i default) ≠ none := by
    rw [Ne, List.argmax_eq_none, List.range_eq_nil, List.length_eq_zero_iff]
    exact h
  obtain ⟨i, hi⟩ := Option.ne_none_iff_exists'.mp hne
  have hargmax : argmax values = i := by rw [argmax, hi, Option.getD_some]
  obtain ⟨hmem, hmax, hfirst⟩ := List.mem_argmax_iff.mp hi
  have hlt := List.mem_range.mp hmem
  have hidx : ∀ j < values.length, (List.range values.length).idxOf j = j := by
    intro j hj
    have hnodup : (List.range values.length).Nodup := List.nodup_range
    have hidxOf := hnodup.idxOf_getElem j (by simpa using hj)
    rwa [List.getElem_range] at hidxOf
  rw [hargmax]
  refine ⟨values[i], List.getElem?_eq_getElem hlt, fun j value hj => ?_⟩
  obtain ⟨hjlt, rfl⟩ := List.getElem?_eq_some_iff.mp hj
  have hjmem := List.mem_range.mpr hjlt
  have hle := hmax j hjmem
  have hidle := hfirst j hjmem
  rw [hidx j hjlt, hidx i hlt] at hidle
  simp only [List.getD_eq_getElem?_getD, List.getElem?_eq_getElem hlt,
    List.getElem?_eq_getElem hjlt, Option.getD_some] at hle hidle
  exact ⟨hle, hidle⟩

end

end Kit
