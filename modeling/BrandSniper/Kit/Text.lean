import Mathlib.Data.List.Basic
import Mathlib.Data.List.DropRight
import Mathlib.Data.String.Basic

/-!
# Texts built from numbers and separators

Keys and members are texts such as `a:b:17`. This module has what is needed
to take such a text apart again: the decimal text of a number holds no
separator and determines the number, and a separator that one side cannot
hold splits a text in one way only.

Texts are `String`s. The lemmas speak about `String.toList`, because that
is where the list lemmas apply.
-/

namespace Kit.Text

/-! ## Decimal numbers -/

/-- A character that a decimal number is never written with. -/
def NotNumeric (c : Char) : Prop := c.isDigit = false ∧ c ≠ '-'

instance (c : Char) : Decidable (NotNumeric c) := inferInstanceAs (Decidable (_ ∧ _))

theorem not_mem_natText {c : Char} (hc : c.isDigit = false) (n : Nat) :
    c ∉ (toString n).toList := by
  intro h
  have hd : c ∈ Nat.toDigits 10 n := by simpa using h
  have := Nat.isDigit_of_mem_toDigits (by decide) (by decide) hd
  simp [hc] at this

theorem natText_ne_nil (n : Nat) : (toString n).toList ≠ [] := by
  simp

theorem natText_inj {m n : Nat} (h : (toString m).toList = (toString n).toList) : m = n := by
  have hvalue := congrArg (fun ds => Nat.ofDigitChars 10 ds 0) h
  simpa using hvalue

theorem intText_negSucc (n : Nat) :
    (toString (Int.negSucc n)).toList = '-' :: (toString (n + 1)).toList := by
  rw [show toString (Int.negSucc n) = "-" ++ toString (n + 1) from rfl,
    String.toList_append]
  rfl

theorem not_mem_intText {c : Char} (hc : NotNumeric c) (z : Int) :
    c ∉ (toString z).toList := by
  cases z with
  | ofNat n => exact not_mem_natText hc.1 n
  | negSucc n =>
      rw [intText_negSucc, List.mem_cons, not_or]
      exact ⟨hc.2, not_mem_natText hc.1 (n + 1)⟩

theorem intText_inj {y z : Int} (h : (toString y).toList = (toString z).toList) : y = z := by
  have hminus : ∀ n : Nat, '-' ∉ (toString n).toList := not_mem_natText (by decide)
  cases y with
  | ofNat m =>
      cases z with
      | ofNat n => exact congrArg Int.ofNat (natText_inj h)
      | negSucc n =>
          rw [intText_negSucc] at h
          have hm := hminus m
          rw [show (toString m).toList = _ from h] at hm
          simp at hm
  | negSucc m =>
      cases z with
      | ofNat n =>
          rw [intText_negSucc] at h
          have hn := hminus n
          rw [show (toString n).toList = _ from h.symm] at hn
          simp at hn
      | negSucc n =>
          rw [intText_negSucc, intText_negSucc, List.cons.injEq] at h
          have := natText_inj h.2
          rw [Nat.succ.inj this]

/-- `int(text)` for a text of decimal digits; `none` for any other text. -/
def natOfText? (cs : List Char) : Option Nat :=
  if cs ≠ [] ∧ cs.all Char.isDigit then some (Nat.ofDigitChars 10 cs 0) else none

@[simp] theorem natOfText?_natText (n : Nat) : natOfText? (toString n).toList = some n := by
  have hd : ∀ c ∈ Nat.toDigits 10 n, c.isDigit = true := fun c hc =>
    Nat.isDigit_of_mem_toDigits (by decide) (by decide) hc
  simp [natOfText?, List.all_eq_true.mpr hd]

/-! ## Blanks -/

/-- The characters with the Unicode property `White_Space`. -/
def isWhiteSpace (c : Char) : Bool :=
  (9 ≤ c.toNat && c.toNat ≤ 13) || (0x2000 ≤ c.toNat && c.toNat ≤ 0x200A) ||
    [0x20, 0x85, 0xA0, 0x1680, 0x2028, 0x2029, 0x202F, 0x205F, 0x3000].contains c.toNat

/-- A text without its leading and trailing blanks. -/
def strip (s : String) : String :=
  String.ofList ((s.toList.dropWhile isWhiteSpace).rdropWhile isWhiteSpace)

theorem length_strip_le (s : String) : (strip s).length ≤ s.length := by
  rw [strip, String.length_ofList, ← String.length_toList]
  exact (List.rdropWhile_prefix _ _).length_le.trans (List.dropWhile_suffix _).length_le

theorem strip_eq_empty_iff {s : String} : strip s = "" ↔ ∀ c ∈ s.toList, isWhiteSpace c = true := by
  rw [strip, String.ofList_eq_empty_iff, List.rdropWhile_eq_nil_iff]
  constructor
  · intro h
    -- the first character that is no blank would have been kept
    by_contra hall
    have hne : s.toList.dropWhile isWhiteSpace ≠ [] := by
      rwa [ne_eq, List.dropWhile_eq_nil_iff]
    have hfirst := List.head_dropWhile_not isWhiteSpace hne
    rw [h _ (List.head_mem hne)] at hfirst
    cases hfirst
  · intro h c hc
    exact h c ((List.dropWhile_suffix _).subset hc)

theorem strip_ne_empty_iff {s : String} :
    strip s ≠ "" ↔ ∃ c ∈ s.toList, isWhiteSpace c = false := by
  rw [ne_eq, strip_eq_empty_iff]
  push Not
  simp

/-- The characters that Python's `str.strip` takes away: the blanks and the four separators
of the C0 controls. -/
def isSpace (c : Char) : Bool := isWhiteSpace c || (0x1C ≤ c.toNat && c.toNat ≤ 0x1F)

/-- `str.strip()` on the characters of a text. -/
def trim (cs : List Char) : List Char := (cs.dropWhile isSpace).rdropWhile isSpace

/-- No space stands at the end. -/
def NoSpaceAtEnd (cs : List Char) : Prop := ∀ c ∈ cs.getLast?, isSpace c = false

theorem all_getLast_iff {cs : List Char} :
    (cs.getLast?.all fun c => !isSpace c) = true ↔ NoSpaceAtEnd cs := by
  rw [NoSpaceAtEnd]
  cases cs.getLast? <;> simp

instance (cs : List Char) : Decidable (NoSpaceAtEnd cs) := decidable_of_iff _ all_getLast_iff

theorem rdropWhile_of_noSpaceAtEnd {cs : List Char} (h : NoSpaceAtEnd cs) :
    cs.rdropWhile isSpace = cs := by
  rw [List.rdropWhile_eq_self_iff]
  intro hne
  rw [h _ (List.getLast?_eq_some_getLast hne)]
  simp

/-- A character that is no space keeps all that comes after it when the left end is cut. -/
theorem dropWhile_append_cons {c : Char} (hc : isSpace c = false) (a b : List Char) :
    (a ++ c :: b).dropWhile isSpace = a.dropWhile isSpace ++ c :: b := by
  rw [List.dropWhile_append]
  split
  · next hempty =>
      rw [List.isEmpty_iff.mp hempty, List.dropWhile_cons, hc]
      rfl
  · rfl

/-- Cutting the right end of a text that stops with a character that is no space and then
one blank takes the blank away. -/
theorem rdropWhile_concat_blank {cs : List Char} (h : NoSpaceAtEnd cs) :
    (cs ++ [' ']).rdropWhile isSpace = cs := by
  rw [List.rdropWhile_concat, if_pos (by decide), rdropWhile_of_noSpaceAtEnd h]

theorem NoSpaceAtEnd.dropWhile {cs : List Char} (h : NoSpaceAtEnd cs) :
    NoSpaceAtEnd (cs.dropWhile isSpace) := by
  intro c hc
  apply h c
  have hsuffix := List.dropWhile_suffix (l := cs) isSpace
  obtain ⟨front, hfront⟩ := hsuffix
  rw [← hfront, List.getLast?_append, hc]
  rfl

/-- The blank before the cut and the spaces at the left end go, nothing else does. -/
theorem trim_concat_blank {cs : List Char} (h : NoSpaceAtEnd cs) :
    trim (cs ++ [' ']) = cs.dropWhile isSpace := by
  rw [trim, List.dropWhile_append]
  split
  · next hempty =>
      rw [List.isEmpty_iff.mp hempty]
      rfl
  · exact rdropWhile_concat_blank h.dropWhile

/-- Only spaces are cut. -/
theorem count_trim {c : Char} (hc : isSpace c = false) (cs : List Char) :
    (trim cs).count c = cs.count c := by
  have hdrop : ∀ l : List Char, (l.dropWhile isSpace).count c = l.count c := fun l => by
    have hnone : (l.takeWhile isSpace).count c = 0 := by
      refine List.count_eq_zero.mpr fun hmem => ?_
      rw [List.mem_takeWhile_imp hmem] at hc
      cases hc
    rw [← congrArg (List.count c) (List.takeWhile_append_dropWhile (p := isSpace) (l := l)),
      List.count_append, hnone, Nat.zero_add]
  rw [trim, List.rdropWhile, List.count_reverse, hdrop, List.count_reverse, hdrop]

/-! ## Searching from the right -/

section RFind

variable {α : Type*} [DecidableEq α]

/-- `str.rfind` for one character: the position of its last occurrence. -/
def rfind (c : α) : List α → Option Nat
  | [] => none
  | x :: xs =>
      match rfind c xs with
      | some i => some (i + 1)
      | none => if x = c then some 0 else none

theorem rfind_eq_none {c : α} {cs : List α} (h : c ∉ cs) : rfind c cs = none := by
  induction cs with
  | nil => rfl
  | cons x xs ih =>
      rw [List.mem_cons, not_or] at h
      rw [rfind, ih h.2, if_neg (Ne.symm h.1)]

theorem rfind_append {c : α} (a : List α) {b : List α} (h : c ∉ b) :
    rfind c (a ++ c :: b) = some a.length := by
  induction a with
  | nil => rw [List.nil_append, rfind, rfind_eq_none h, if_pos rfl, List.length_nil]
  | cons x xs ih => rw [List.cons_append, rfind, ih, List.length_cons]

/-- The text around the last occurrence. -/
theorem exists_of_rfind {c : α} {cs : List α} {i : Nat} (h : rfind c cs = some i) :
    ∃ a b, cs = a ++ c :: b ∧ c ∉ b ∧ a.length = i := by
  have hmem : c ∈ cs := by
    by_contra hnot
    rw [rfind_eq_none hnot] at h
    cases h
  obtain ⟨b, a, hsplit, hb⟩ := List.eq_append_cons_of_mem (List.mem_reverse.mpr hmem)
  have hcs : cs = a.reverse ++ c :: b.reverse := by
    rw [← List.reverse_reverse cs, hsplit]
    simp
  have hb' : c ∉ b.reverse := by simpa using hb
  refine ⟨a.reverse, b.reverse, hcs, hb', ?_⟩
  rw [hcs, rfind_append _ hb'] at h
  exact Option.some_inj.mp h

end RFind

/-! ## Separators -/

/-- The separator `c` ends the first part of both texts, so they agree part by part. -/
theorem sep_left_inj {c : Char} {a a' b b' : List Char} (ha : c ∉ a) (ha' : c ∉ a')
    (h : a ++ c :: b = a' ++ c :: b') : a = a' ∧ b = b' := by
  induction a generalizing a' with
  | nil =>
      cases a' with
      | nil => simpa using h
      | cons x xs =>
          simp only [List.nil_append, List.cons_append, List.cons.injEq] at h
          exact absurd (by simp [h.1]) ha'
  | cons x xs ih =>
      cases a' with
      | nil =>
          simp only [List.nil_append, List.cons_append, List.cons.injEq] at h
          exact absurd (by simp [h.1]) ha
      | cons y ys =>
          simp only [List.cons_append, List.cons.injEq] at h
          obtain ⟨rfl, hrest⟩ := h
          obtain ⟨rfl, rfl⟩ := ih (by simp_all) (by simp_all) hrest
          exact ⟨rfl, rfl⟩

/-- The separator `c` starts the last part of both texts, so they agree part by part. -/
theorem sep_right_inj {c : Char} {a a' b b' : List Char} (hb : c ∉ b) (hb' : c ∉ b')
    (h : a ++ c :: b = a' ++ c :: b') : a = a' ∧ b = b' := by
  have hrev := congrArg List.reverse h
  simp only [List.reverse_append, List.reverse_cons, List.append_assoc, List.cons_append,
    List.nil_append] at hrev
  obtain ⟨h1, h2⟩ := sep_left_inj (by simpa using hb) (by simpa using hb') hrev
  exact ⟨List.reverse_inj.mp h2, List.reverse_inj.mp h1⟩

/-- A common first part with its separator decides nothing about the order. -/
theorem append_cons_lt_iff {c : Char} {a b b' : List Char} :
    a ++ c :: b < a ++ c :: b' ↔ b < b' := by
  have hmono : ∀ {x y : List Char}, x < y → a ++ c :: x < a ++ c :: y := fun hxy =>
    List.append_left_lt (List.cons_lt_cons_iff.mpr (.inr ⟨rfl, hxy⟩))
  constructor
  · intro h
    rcases lt_trichotomy b b' with hlt | heq | hgt
    · exact hlt
    · exact absurd h (heq ▸ lt_irrefl _)
    · exact absurd h (lt_asymm (hmono hgt))
  · exact hmono

end Kit.Text
