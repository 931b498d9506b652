import Mathlib.Data.Finset.Sort
import Mathlib.Data.List.DropRight

/-!
# The greatest elements of a set

`greatest n s` lists the `n` greatest elements of a finite set in order. A
selection can be made one element at a time: what an earlier selection left out
is below `n` elements for good, so selecting among the survivors and a further
element selects among all of them (`greatest_insert`).
-/

namespace Kit

variable {α : Type} [LinearOrder α]

/-- The `n` greatest elements in order; all of them while there are fewer. -/
def greatest (n : Nat) (s : Finset α) : List α := (s.sort (· ≤ ·)).rtake n

theorem pairwise_greatest (n : Nat) (s : Finset α) : (greatest n s).Pairwise (· < ·) :=
  s.sortedLT_sort.pairwise.sublist (List.drop_sublist _ _)

theorem mem_of_mem_greatest {n : Nat} {s : Finset α} {x : α} (h : x ∈ greatest n s) : x ∈ s :=
  (Finset.mem_sort _).mp (List.mem_of_mem_drop h)

theorem length_greatest (n : Nat) (s : Finset α) : (greatest n s).length = min n s.card := by
  rw [greatest, List.rtake, List.length_drop, Finset.length_sort]
  omega

/-- While there are no more than `n` elements, none is left out. -/
theorem greatest_of_card_le {n : Nat} {s : Finset α} (h : s.card ≤ n) :
    greatest n s = s.sort (· ≤ ·) := by
  rw [greatest, List.rtake, Finset.length_sort, Nat.sub_eq_zero_of_le h, List.drop_zero]

/-- An element that is left out is below all that are selected. -/
theorem lt_of_not_mem_greatest {n : Nat} {s : Finset α} {a x : α} (ha : a ∈ s)
    (hleft : a ∉ greatest n s) (hx : x ∈ greatest n s) : a < x := by
  have hsplit := List.take_append_drop ((s.sort (· ≤ ·)).length - n) (s.sort (· ≤ ·))
  have hsorted := s.sortedLT_sort.pairwise
  rw [← hsplit, List.pairwise_append] at hsorted
  apply hsorted.2.2 a _ x hx
  have hmem : a ∈ s.sort (· ≤ ·) := (Finset.mem_sort _).mpr ha
  rw [← hsplit, List.mem_append] at hmem
  exact hmem.resolve_right hleft

/-- An ordered list of `n` elements above all the others is the selection. -/
theorem greatest_eq {n : Nat} {s : Finset α} {top : List α} (hsorted : top.Pairwise (· < ·))
    (hmem : ∀ x ∈ top, x ∈ s) (hbelow : ∀ a ∈ s, a ∉ top → ∀ x ∈ top, a < x)
    (hlen : top.length = n) : greatest n s = top := by
  have hall : s.sort (· ≤ ·) = (s \ top.toFinset).sort (· ≤ ·) ++ top := by
    apply (s.sortedLT_sort).pairwise.eq_of_mem_iff
    · rw [List.pairwise_append]
      refine ⟨(s \ top.toFinset).sortedLT_sort.pairwise, hsorted, fun a ha x hx => ?_⟩
      rw [Finset.mem_sort, Finset.mem_sdiff, List.mem_toFinset] at ha
      exact hbelow a ha.1 ha.2 x hx
    · intro x
      rw [Finset.mem_sort, List.mem_append, Finset.mem_sort, Finset.mem_sdiff, List.mem_toFinset]
      constructor
      · intro hx
        by_cases htop : x ∈ top
        · exact .inr htop
        · exact .inl ⟨hx, htop⟩
      · rintro (hx | hx)
        · exact hx.1
        · exact hmem x hx
  rw [greatest, hall, List.rtake, List.length_append, hlen, Nat.add_sub_cancel, List.drop_left]

/-- Selecting among the selected and a further element selects among all. -/
theorem greatest_insert (n : Nat) (s : Finset α) (x : α) :
    greatest n (insert x (greatest n s).toFinset) = greatest n (insert x s) := by
  rcases le_or_gt s.card n with hle | hlt
  · rw [greatest_of_card_le hle, Finset.sort_toFinset]
  · have hlen : (greatest n s).length = n := by
      rw [length_greatest]
      omega
    have hcard : (greatest n s).toFinset.card = n := by
      rw [List.toFinset_card_of_nodup (pairwise_greatest n s).nodup, hlen]
    symm
    apply greatest_eq (pairwise_greatest n _)
    · intro y hy
      have hy := mem_of_mem_greatest hy
      rw [Finset.mem_insert, List.mem_toFinset] at hy
      exact Finset.mem_insert.mpr (hy.imp_right mem_of_mem_greatest)
    · intro a ha hleft y hy
      by_cases hkept : a ∈ insert x (greatest n s).toFinset
      · exact lt_of_not_mem_greatest hkept hleft hy
      · -- `a` was left out before; were all survivors gone, the rest would be too few
        rw [Finset.mem_insert, List.mem_toFinset, not_or] at hkept
        have hbelow : ∀ z ∈ greatest n s, a < z := fun z hz =>
          lt_of_not_mem_greatest ((Finset.mem_insert.mp ha).resolve_left hkept.1) hkept.2 hz
        have hyall := mem_of_mem_greatest hy
        rw [Finset.mem_insert, List.mem_toFinset] at hyall
        rcases hyall with rfl | hyold
        · by_cases hnew : y ∈ greatest n s
          · exact hbelow y hnew
          · -- one survivor is left out of the new selection, and it is below `y`
            have hmore : n < (insert y (greatest n s).toFinset).card := by
              rw [Finset.card_insert_of_notMem (by simpa using hnew), hcard]
              omega
            obtain ⟨b, hb, hbleft⟩ : ∃ b ∈ insert y (greatest n s).toFinset,
                b ∉ (greatest n (insert y (greatest n s).toFinset)).toFinset := by
              apply Finset.exists_mem_notMem_of_card_lt_card
              rw [List.toFinset_card_of_nodup (pairwise_greatest n _).nodup, length_greatest]
              omega
            rw [List.mem_toFinset] at hbleft
            have hlt := lt_of_not_mem_greatest hb hbleft hy
            rw [Finset.mem_insert, List.mem_toFinset] at hb
            exact (hbelow b (hb.resolve_left hlt.ne)).trans hlt
        · exact hbelow y hyold
    · rw [length_greatest]
      have hsub : (greatest n s).toFinset.card ≤ (insert x (greatest n s).toFinset).card :=
        Finset.card_le_card (Finset.subset_insert _ _)
      omega

end Kit
