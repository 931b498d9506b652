import BrandSniper.Kit.JsonObjects

/-!
# Files of JSON lines

A file with one JSON text a line, as `json.dumps(value, sort_keys=True)` writes
it and `splitlines` and `json.loads` read it. Such a text is printable ASCII
(`isPrintable_dumpsWith`), so a line ends where it was ended
(`splitLines_concat`), and the value is read back from its line
(`loads_dumpsSpaced`).
-/

namespace Kit

/-! ## Lines -/

/-- The characters `str.splitlines` ends a line at. -/
def isLineBoundary (c : Char) : Bool :=
  ['\n', '\r', '\x0b', '\x0c', '\x1c', '\x1d', '\x1e', '\u0085', '\u2028', '\u2029'].contains c

/-- A character before the first of the lines. -/
def consFirst (c : Char) : List (List Char) → List (List Char)
  | [] => [[c]]
  | line :: lines => (c :: line) :: lines

/-- `str.splitlines` -/
def splitLines : List Char → List (List Char)
  | [] => []
  | '\r' :: '\n' :: rest => [] :: splitLines rest
  | c :: rest =>
      if isLineBoundary c then [] :: splitLines rest else consFirst c (splitLines rest)

theorem splitLines_cons {c : Char} (hc : isLineBoundary c = false) (rest : List Char) :
    splitLines (c :: rest) = consFirst c (splitLines rest) := by
  rw [splitLines, if_neg (by simp [hc])]
  intro _ hr _
  subst hr
  exact absurd hc (by decide)

section
variable {line : List Char} (h : ∀ c ∈ line, isLineBoundary c = false)
include h

/-- A line up to its newline. -/
theorem splitLines_concat (rest : List Char) :
    splitLines (line ++ '\n' :: rest) = line :: splitLines rest := by
  induction line with
  | nil =>
      rw [List.nil_append, splitLines, if_pos (by decide)]
      intro _ hr _
      exact absurd hr (by decide)
  | cons c line ih =>
      rw [List.forall_mem_cons] at h
      rw [List.cons_append, splitLines_cons h.1, ih h.2, consFirst]

/-- The last line without a newline. -/
theorem splitLines_last (hne : line ≠ []) : splitLines line = [line] := by
  induction line with
  | nil => exact absurd rfl hne
  | cons c line ih =>
      rw [List.forall_mem_cons] at h
      rw [splitLines_cons h.1]
      cases line with
      | nil => rfl
      | cons d line => rw [ih h.2 (List.cons_ne_nil d line), consFirst]

end

namespace Json

variable {F : Type}

/-! ## Printable texts -/

def IsPrintable (c : Char) : Prop := ' ' ≤ c ∧ c ≤ '~'

instance (c : Char) : Decidable (IsPrintable c) := inferInstanceAs (Decidable (_ ∧ _))

theorem isPrintable_of_all {cs : List Char} (h : (cs.all fun c => decide (IsPrintable c)) = true) :
    ∀ c ∈ cs, IsPrintable c :=
  fun c hc => of_decide_eq_true (List.all_eq_true.mp h c hc)

theorem IsPrintable.not_boundary {c : Char} (h : IsPrintable c) : isLineBoundary c = false := by
  rw [isLineBoundary, Bool.eq_false_iff]
  intro hc
  rw [List.contains_iff_mem] at hc
  unfold IsPrintable at h
  simp only [List.mem_cons, List.not_mem_nil, or_false] at hc
  rcases hc with rfl | rfl | rfl | rfl | rfl | rfl | rfl | rfl | rfl | rfl <;>
    exact absurd h (by decide)

theorem isPrintable_hexDigit {n : Nat} (h : n < 16) : IsPrintable (hexDigit n) := by
  have hall : ∀ d, d < 16 → ' ' ≤ hexDigit d ∧ hexDigit d ≤ '~' := by decide
  exact hall n h

theorem isPrintable_unicodeEscape (n : Nat) : ∀ c ∈ unicodeEscape n, IsPrintable c := by
  have hdigit : ∀ m : Nat, IsPrintable (hexDigit (m % 16)) := fun m =>
    isPrintable_hexDigit (Nat.mod_lt m (by decide))
  intro c hc
  simp only [unicodeEscape, List.mem_cons, List.not_mem_nil, or_false] at hc
  rcases hc with rfl | rfl | rfl | rfl | rfl | rfl
  · exact ⟨by decide, by decide⟩
  · exact ⟨by decide, by decide⟩
  all_goals exact hdigit _

theorem isPrintable_escapeChar (c : Char) : ∀ d ∈ escapeChar c, IsPrintable d := by
  have h := escaped_escapeChar c
  generalize escapeChar c = escaped at h
  cases h with
  | short hletter hread =>
      have hletters := @isPrintable_of_all ['"', '\\', 'n', 'r', 't', 'f', 'b'] (by decide)
      intro d hd
      rcases List.mem_cons.mp hd with rfl | hd
      · exact ⟨by decide, by decide⟩
      · exact hletters d (List.mem_singleton.mp hd ▸ hletter)
  | plain hquote hbackslash hprintable =>
      intro d hd
      exact List.mem_singleton.mp hd ▸ hprintable
  | basic hsmall => exact isPrintable_unicodeEscape _
  | pair hlarge =>
      intro d hd
      rcases List.mem_append.mp hd with hd | hd
      · exact isPrintable_unicodeEscape _ d hd
      · exact isPrintable_unicodeEscape _ d hd

theorem isPrintable_quote (s : String) : ∀ c ∈ quote s, IsPrintable c := by
  intro c hc
  simp only [quote, List.cons_append, List.mem_cons, List.mem_append, List.not_mem_nil,
    or_false] at hc
  rcases hc with rfl | hc | rfl
  · exact ⟨by decide, by decide⟩
  · obtain ⟨d, -, hd⟩ := List.mem_flatMap.mp hc
    exact isPrintable_escapeChar d c hd
  · exact ⟨by decide, by decide⟩

theorem isPrintable_of_isNumberChar {c : Char} (h : isNumberChar c = true) : IsPrintable c := by
  rw [isNumberChar, Bool.or_eq_true, List.contains_iff_mem] at h
  rcases h with h | h
  · have hdigit := Char.isDigit_iff_toNat.mp h
    unfold IsPrintable
    rw [Char.le_def, Char.le_def, UInt32.le_iff_toNat_le, UInt32.le_iff_toNat_le]
    show 32 ≤ c.toNat ∧ c.toNat ≤ 126
    simp at hdigit
    omega
  · simp only [List.mem_cons, List.not_mem_nil, or_false] at h
    rcases h with rfl | rfl | rfl | rfl | rfl | rfl | rfl | rfl | rfl | rfl | rfl | rfl | rfl <;>
      exact ⟨by decide, by decide⟩

section
variable [PyFloat F]

variable {gap : List Char}

theorem isPrintable_intText (z : Int) : ∀ c ∈ (toString z).toList, IsPrintable c :=
  fun c hc => isPrintable_of_isNumberChar (isNumberChar_intText z c hc)

mutual

/-- A text with a printable gap is printable. -/
theorem isPrintable_dumpsWith [LawfulPyFloat F] (hgap : ∀ c ∈ gap, IsPrintable c) :
    ∀ j : Json F, ∀ c ∈ dumpsWith gap j, IsPrintable c
  | .null => by
      rw [dumpsWith]
      exact isPrintable_of_all (by decide)
  | .bool true => by
      rw [dumpsWith]
      exact isPrintable_of_all (by decide)
  | .bool false => by
      rw [dumpsWith]
      exact isPrintable_of_all (by decide)
  | .int z => by
      rw [dumpsWith]
      exact isPrintable_intText z
  | .float x => by
      rw [dumpsWith]
      exact fun c hc => isPrintable_of_isNumberChar (LawfulPyFloat.isNumberChar_repr x c hc)
  | .str s => by
      rw [dumpsWith]
      exact isPrintable_quote s
  | .arr items => by
      rw [dumpsWith, List.forall_mem_cons, List.forall_mem_append]
      exact ⟨by decide, isPrintable_dumpsWithItems hgap items, isPrintable_of_all (by decide)⟩
  | .obj fields => by
      rw [dumpsWith, List.forall_mem_cons, List.forall_mem_append]
      exact ⟨by decide, isPrintable_dumpsWithFields hgap fields, isPrintable_of_all (by decide)⟩

theorem isPrintable_dumpsWithItems [LawfulPyFloat F] (hgap : ∀ c ∈ gap, IsPrintable c) :
    ∀ items : List (Json F), ∀ c ∈ dumpsWithItems gap items, IsPrintable c
  | [] => by
      rw [dumpsWithItems]
      exact List.forall_mem_nil _
  | j :: rest => by
      rw [dumpsWithItems, List.forall_mem_append]
      refine ⟨isPrintable_dumpsWith hgap j, ?_⟩
      split_ifs with hrest
      · exact List.forall_mem_nil _
      · rw [List.forall_mem_cons, List.forall_mem_append]
        exact ⟨by decide, hgap, isPrintable_dumpsWithItems hgap rest⟩

theorem isPrintable_dumpsWithFields [LawfulPyFloat F] (hgap : ∀ c ∈ gap, IsPrintable c) :
    ∀ fields : List (String × Json F), ∀ c ∈ dumpsWithFields gap fields, IsPrintable c
  | [] => by
      rw [dumpsWithFields]
      exact List.forall_mem_nil _
  | (key, j) :: rest => by
      rw [dumpsWithFields, dumpsWithField, List.forall_mem_append, List.forall_mem_append,
        List.forall_mem_cons, List.forall_mem_append]
      refine ⟨⟨isPrintable_quote key, by decide, hgap, isPrintable_dumpsWith hgap j⟩, ?_⟩
      split_ifs with hrest
      · exact List.forall_mem_nil _
      · rw [List.forall_mem_cons, List.forall_mem_append]
        exact ⟨by decide, hgap, isPrintable_dumpsWithFields hgap rest⟩

end

/-! ## One value a line -/

/-- The text of a value has no line end. -/
theorem not_boundary_dumpsSpaced [LawfulPyFloat F] (j : Json F) :
    ∀ c ∈ dumpsSpaced j, isLineBoundary c = false := by
  intro c hc
  exact (isPrintable_dumpsWith (isPrintable_of_all (by decide)) j c hc).not_boundary

/-- The default text of a value is read back as the value. -/
theorem loads_dumpsSpaced [LawfulPyFloat F] {j : Json F} (h : UniqueKeys j) :
    loads (String.ofList (dumpsSpaced j)) = some j := by
  rw [loads, String.toList_ofList, dumpsSpaced, parse_dumpsWith (fun _ => rfl),
    Option.map_some, toDicts_of_uniqueKeys j h]

end

end Json

end Kit
