import Mathlib.Data.List.Basic
import Mathlib.Data.List.Count
import Mathlib.Data.List.Range

/-!
# Pages of a list

A list read by offset, a page at a time. The pages of a list that stays the
same make up a prefix of it (`flatten_pages`). When the list changes between
two pages, an element on the pages read so far may stand on the next page
again. `pushed` counts, for an element, how many of its occurrences the pages
read so far lose to the changes, and with it how often the pages hold it
(`count_pages`).
-/

namespace Kit

variable {α : Type}

/-- `l[size * i : size * (i + 1)]` -/
def page (size : Nat) (l : List α) (i : Nat) : List α := (l.drop (size * i)).take size

theorem take_succ_page (size : Nat) (l : List α) (i : Nat) :
    l.take (size * (i + 1)) = l.take (size * i) ++ page size l i := by
  rw [Nat.mul_succ, List.take_add, page]

/-- The first pages of a list, one after the other. -/
theorem flatten_pages (size : Nat) (l : List α) (n : Nat) :
    ((List.range n).map (page size l)).flatten = l.take (size * n) := by
  induction n with
  | zero => rfl
  | succ n ih =>
      rw [List.range_succ, List.map_append, List.flatten_append, ih, take_succ_page]
      simp only [List.map_cons, List.map_nil, List.flatten_cons, List.flatten_nil, List.append_nil]

/-- All the pages of a list. -/
def chunks (size : Nat) (l : List α) : List (List α) :=
  (List.range ((l.length + size - 1) / size)).map (page size l)

theorem flatten_chunks {size : Nat} (hsize : 0 < size) (l : List α) :
    (chunks size l).flatten = l := by
  rw [chunks, flatten_pages, List.take_of_length_le]
  have hrest := Nat.lt_mul_div_succ (l.length + size - 1) hsize
  rw [Nat.mul_succ] at hrest
  omega

section

variable [BEq α] (size : Nat) (lists : Nat → List α) (a : α)

/-- How many occurrences of `a` the first pages lose while the list changes from each of the first
`n` of `lists` to the next: those moved past the pages read, less those that came among them. -/
def pushed : Nat → Int
  | 0 => 0
  | n + 1 => pushed n + (((lists n).take (size * (n + 1))).count a
      - ((lists (n + 1)).take (size * (n + 1))).count a)

/-- How often the pages hold an element, when page `i` is one of the list `lists i`. -/
theorem count_pages (n : Nat) :
    ((((List.range (n + 1)).map fun i => page size (lists i) i).flatten.count a : Nat) : Int)
      = ((lists n).take (size * (n + 1))).count a + pushed size lists a n := by
  induction n with
  | zero =>
      rw [pushed, take_succ_page]
      simp
  | succ n ih =>
      rw [List.range_succ, List.map_append, List.flatten_append, List.count_append, Int.natCast_add,
        ih, take_succ_page size (lists (n + 1)), List.count_append, pushed]
      simp only [List.map_cons, List.map_nil, List.flatten_cons, List.flatten_nil, List.append_nil,
        Int.natCast_add]
      omega

end

end Kit
