import Mathlib.Data.List.Count
import Mathlib.Data.List.Nodup
import Mathlib.Data.List.Perm.Basic
import Mathlib.Data.List.Range
import Mathlib.Logic.Function.Basic

/-!
# Numbered occurrences

Equal elements of a list are told apart by a number: how many equal ones come
before. Which numbers an element gets does not depend on the order of the
list, only on how often it occurs (`mem_numbered`).

A table that keeps every pair of an element and a number once holds, of each
element, the numbers below some count. `HoldsBelow` says so with the counts as
a tally, and storing a list takes the larger of the two counts
(`HoldsBelow.store`).
-/

namespace Kit

variable {α κ : Type}

section

variable [DecidableEq α]

/-- Each element with its number. `seen` counts what came before. -/
def numberedFrom (seen : α → Nat) : List α → List (α × Nat)
  | [] => []
  | a :: rest => (a, seen a) :: numberedFrom (Function.update seen a (seen a + 1)) rest

def numbered (l : List α) : List (α × Nat) := numberedFrom (fun _ => 0) l

theorem numberedFrom_fst (seen : α → Nat) (l : List α) :
    (numberedFrom seen l).map Prod.fst = l := by
  induction l generalizing seen with
  | nil => rfl
  | cons a rest ih => rw [numberedFrom, List.map_cons, ih]

theorem mem_numberedFrom [BEq α] [LawfulBEq α] {seen : α → Nat} {l : List α} {a : α} {i : Nat} :
    (a, i) ∈ numberedFrom seen l ↔ seen a ≤ i ∧ i < seen a + l.count a := by
  induction l generalizing seen with
  | nil =>
      simp only [numberedFrom, List.not_mem_nil, List.count_nil, false_iff]
      omega
  | cons b rest ih =>
      rw [numberedFrom, List.mem_cons, ih, Prod.mk.injEq, List.count_cons]
      by_cases hba : b = a
      · subst hba
        rw [Function.update_self, if_pos (beq_self_eq_true b), eq_self, true_and]
        omega
      · rw [Function.update_of_ne (Ne.symm hba), if_neg (by simpa using hba)]
        simp only [Ne.symm hba, false_and, false_or, Nat.add_zero]

theorem nodup_numberedFrom (seen : α → Nat) (l : List α) : (numberedFrom seen l).Nodup := by
  induction l generalizing seen with
  | nil => exact List.nodup_nil
  | cons a rest ih =>
      refine List.nodup_cons.mpr ⟨fun hmem => ?_, ih _⟩
      -- The numbers of the rest start above the one given.
      have hbounds := mem_numberedFrom.mp hmem
      rw [Function.update_self] at hbounds
      omega

theorem numbered_fst (l : List α) : (numbered l).map Prod.fst = l := numberedFrom_fst _ l

/-- An element's numbers are those below its count. -/
theorem mem_numbered [BEq α] [LawfulBEq α] {l : List α} {a : α} {i : Nat} :
    (a, i) ∈ numbered l ↔ i < l.count a := by
  rw [numbered, mem_numberedFrom]
  omega

theorem nodup_numbered (l : List α) : (numbered l).Nodup := nodup_numberedFrom _ l

/-- The numbers of the elements with a property are those among these elements. -/
theorem numbered_filter_perm (q : α → Bool) (l : List α) :
    ((numbered l).filter fun p => q p.1).Perm (numbered (l.filter q)) := by
  refine (List.perm_ext_iff_of_nodup ((nodup_numbered l).filter _) (nodup_numbered _)).mpr
    fun ⟨a, i⟩ => ?_
  rw [List.mem_filter, mem_numbered, mem_numbered]
  cases ha : q a with
  | true => simp only [List.count_filter ha, and_true]
  | false =>
      have hnone : (l.filter q).count a = 0 := by
        refine List.count_eq_zero.mpr fun hmem => ?_
        rw [(List.mem_filter.mp hmem).2] at ha
        cases ha
      simp only [hnone, Nat.not_lt_zero, Bool.false_eq_true, and_false]

/-- A list with more elements has the same numbered ones, and numbers for the others. -/
theorem numbered_append_perm {l new l' : List α} (h : l'.Perm (l ++ new)) :
    ∃ extra, (numbered l').Perm (numbered l ++ extra) ∧ (extra.map Prod.fst).Perm new := by
  have hold : ((numbered l').filter fun p => decide (p.2 < l.count p.1)).Perm (numbered l) := by
    refine (List.perm_ext_iff_of_nodup ((nodup_numbered l').filter _) (nodup_numbered l)).mpr
      fun ⟨a, i⟩ => ?_
    rw [List.mem_filter, mem_numbered, mem_numbered, h.count_eq, List.count_append,
      decide_eq_true_eq]
    show i < l.count a + new.count a ∧ i < l.count a ↔ i < l.count a
    omega
  have hsplit := (List.filter_append_perm (fun p => decide (p.2 < l.count p.1)) (numbered l')).symm
  refine ⟨_, hsplit.trans (hold.append_right _), ?_⟩
  -- The elements of the old part are those of `l`, so the others are those of `new`.
  have hfst := (hsplit.trans (hold.append_right _)).map Prod.fst
  rw [List.map_append, numbered_fst, numbered_fst] at hfst
  exact (List.perm_append_left_iff l).mp (hfst.symm.trans h)

end

/-! ## Tallies -/

/-- Of each element, the numbers below its tally are in use. -/
def HoldsBelow (used : α → Nat → Prop) (tally : α → Nat) : Prop :=
  ∀ a i, used a i ↔ i < tally a

/-- A list that is stored adds the numbers of its elements that are not in use. -/
theorem HoldsBelow.store [DecidableEq α] {used used' : α → Nat → Prop} {tally : α → Nat}
    {l : List α} (h : HoldsBelow used tally)
    (hstored : ∀ a i, used' a i ↔ used a i ∨ (a, i) ∈ numbered l) :
    HoldsBelow used' fun a => max (tally a) (l.count a) := by
  intro a i
  rw [hstored, h a i, mem_numbered]
  show i < tally a ∨ i < l.count a ↔ i < max (tally a) (l.count a)
  omega

/-- A list without repetition that has the labels of the numbers below `n` has `n` elements. -/
theorem length_of_labels {label : Nat → κ} (hlabel : Function.Injective label) {labels : List κ}
    (hnodup : labels.Nodup) {n : Nat} (hmem : ∀ k, k ∈ labels ↔ ∃ i < n, label i = k) :
    labels.length = n := by
  have hperm : labels.Perm ((List.range n).map label) := by
    refine (List.perm_ext_iff_of_nodup hnodup (List.nodup_range.map hlabel)).mpr fun k => ?_
    rw [hmem, List.mem_map]
    simp only [List.mem_range]
  rw [hperm.length_eq, List.length_map, List.length_range]

end Kit
