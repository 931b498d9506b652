import Mathlib.Data.List.Infix
import BrandSniper.Kit.Text

/-!
# Versioned item names

A version (`Phase 3`, `Ruby`) stands in a name as a parenthesised part before
the wear. `build_versioned_name` puts it there and `parse_version_from_name`
reads it back. This module says for which names and versions the second
undoes the first.

A name is the list of its characters. The arguments are texts: the source
raises `TypeError` for anything else.
-/

namespace BrandSniper.ItemClassifier

open Kit.Text

/-- `WEAR_SUFFIXES` -/
def WEAR_SUFFIXES : List (List Char) :=
  ["(Factory New)".toList, "(Minimal Wear)".toList, "(Field-Tested)".toList,
    "(Well-Worn)".toList, "(Battle-Scarred)".toList]

/-- The first wear that `name` ends with, after what is before it:
`name[: -len(wear)].strip()`. -/
def splitWear (name : List Char) : Option (List Char × List Char) :=
  WEAR_SUFFIXES.findSome? fun wear =>
    if wear <:+ name then some (trim (name.take (name.length - wear.length)), wear) else none

/-- The parenthesised part at the end of `rest` and what is before it. The part is neither
empty nor nested. -/
def splitGroup (rest : List Char) : Option (List Char × List Char) :=
  if rest.getLast? = some ')' then
    match rfind '(' rest with
    | none => none
    | some openIdx =>
        if openIdx + 2 < rest.length then
          let content := (rest.drop (openIdx + 1)).dropLast
          if ')' ∉ content ∧ '(' ∉ content then some (rest.take openIdx, content) else none
        else none
  else none

/-- `parse_version_from_name` -/
def parseVersionFromName (name : List Char) : List Char × Option (List Char) :=
  match splitWear name with
  | none => (name, none)
  | some (rest, wear) =>
      match splitGroup rest with
      | none => (name, none)
      | some (base, content) => (trim base ++ ' ' :: wear, some content)

/-- `build_versioned_name` -/
def buildVersionedName (marketHashName : List Char) : Option (List Char) → List Char
  | none => marketHashName
  | some version =>
      if version = [] ∨ version = "default".toList then marketHashName
      else
        match splitWear marketHashName with
        | some (base, wear) => base ++ " (".toList ++ version ++ ") ".toList ++ wear
        | none => marketHashName ++ " (".toList ++ version ++ ")".toList

/-! ## Names that end in a wear -/

/-- The names of the wears, without their parentheses, hold none. -/
theorem exists_of_mem_wears {wear : List Char} (h : wear ∈ WEAR_SUFFIXES) :
    ∃ inner, wear = '(' :: inner ++ [')'] ∧ '(' ∉ inner ∧ ')' ∉ inner := by
  simp only [WEAR_SUFFIXES, List.mem_cons, List.not_mem_nil, or_false] at h
  rcases h with rfl | rfl | rfl | rfl | rfl
  · exact ⟨"Factory New".toList, by decide⟩
  · exact ⟨"Minimal Wear".toList, by decide⟩
  · exact ⟨"Field-Tested".toList, by decide⟩
  · exact ⟨"Well-Worn".toList, by decide⟩
  · exact ⟨"Battle-Scarred".toList, by decide⟩

/-- A text that stops with a group ends in a wear only when the group is the wear. -/
theorem eq_of_wear_suffix {wear content : List Char} (front : List Char) (h : wear ∈ WEAR_SUFFIXES)
    (hcontent : '(' ∉ content) (hsuffix : wear <:+ front ++ '(' :: content ++ [')']) :
    wear = '(' :: content ++ [')'] := by
  obtain ⟨inner, rfl, hinner, -⟩ := exists_of_mem_wears h
  obtain ⟨before, hbefore⟩ := hsuffix
  have hcut : before ++ '(' :: inner = front ++ '(' :: content := by
    refine @List.append_cancel_right _ _ [')'] _ ?_
    simpa using hbefore
  obtain ⟨-, rfl⟩ := sep_right_inj hinner hcontent hcut
  rfl

theorem wear_unique {wear wear' name : List Char} (h : wear ∈ WEAR_SUFFIXES)
    (h' : wear' ∈ WEAR_SUFFIXES) (hs : wear <:+ name) (hs' : wear' <:+ name) : wear = wear' := by
  obtain ⟨inner, rfl, hinner, -⟩ := exists_of_mem_wears h
  obtain ⟨front, rfl⟩ := hs
  exact (eq_of_wear_suffix front h' hinner (by simpa using hs')).symm

theorem splitWear_append (rest : List Char) {wear : List Char} (h : wear ∈ WEAR_SUFFIXES) :
    splitWear (rest ++ wear) = some (trim rest, wear) := by
  have hcut : (rest ++ wear).take ((rest ++ wear).length - wear.length) = rest := by simp
  cases hsplit : splitWear (rest ++ wear) with
  | none =>
      rw [splitWear, List.findSome?_eq_none_iff] at hsplit
      have hnone := hsplit wear h
      rw [if_pos (List.suffix_append rest wear)] at hnone
      cases hnone
  | some found =>
      obtain ⟨wear', hmem, heq⟩ := List.exists_of_findSome?_eq_some hsplit
      split at heq
      · next hs =>
          obtain rfl := wear_unique hmem h hs (List.suffix_append rest wear)
          rw [← heq, hcut]
      · cases heq

theorem mem_wears_of_splitWear {name rest wear : List Char}
    (h : splitWear name = some (rest, wear)) : wear ∈ WEAR_SUFFIXES := by
  obtain ⟨wear', hmem, heq⟩ := List.exists_of_findSome?_eq_some h
  split at heq
  · rwa [← (Prod.mk.inj (Option.some_inj.mp heq)).2]
  · cases heq

theorem append_of_splitWear {name rest wear : List Char}
    (h : splitWear name = some (rest, wear)) : ∃ front, name = front ++ wear ∧ rest = trim front := by
  obtain ⟨wear', hmem, heq⟩ := List.exists_of_findSome?_eq_some h
  split at heq
  · next hsuffix =>
      obtain ⟨front, rfl⟩ := hsuffix
      rw [splitWear_append front hmem, Option.some.injEq, Prod.mk.injEq] at h
      exact ⟨front, by rw [h.2], h.1.symm⟩
  · cases heq

theorem splitWear_eq_none_iff {name : List Char} :
    splitWear name = none ↔ ∀ wear ∈ WEAR_SUFFIXES, ¬ wear <:+ name := by
  simp only [splitWear, List.findSome?_eq_none_iff, ite_eq_right_iff]
  simp

/-! ## The group before the wear -/

/-- `base` stops with a parenthesised part that is neither empty nor nested: what a reader
takes for a version when a wear comes after it. -/
def EndsInGroup (base : List Char) : Prop :=
  ∃ front content, base = front ++ '(' :: content ++ [')'] ∧ content ≠ [] ∧
    '(' ∉ content ∧ ')' ∉ content

theorem splitGroup_append (front : List Char) {content : List Char} (hne : content ≠ [])
    (hopen : '(' ∉ content) (hclose : ')' ∉ content) :
    splitGroup (front ++ '(' :: content ++ [')']) = some (front, content) := by
  have hopen' : '(' ∉ content ++ [')'] := by simp [hopen]
  have hfind : rfind '(' (front ++ '(' :: content ++ [')']) = some front.length := by
    rw [List.append_assoc, List.cons_append]
    exact rfind_append front hopen'
  have hlen : front.length + 2 < (front ++ '(' :: content ++ [')']).length := by
    have := List.length_pos_iff.mpr hne
    simp only [List.length_append, List.length_cons, List.length_nil]
    omega
  have hdrop : (front ++ '(' :: content ++ [')']).drop (front.length + 1) = content ++ [')'] := by
    rw [List.append_assoc, ← List.drop_drop, List.drop_left]
    rfl
  have htake : (front ++ '(' :: content ++ [')']).take front.length = front := by
    rw [List.append_assoc, List.take_left]
  rw [splitGroup, if_pos List.getLast?_concat, hfind]
  simp only [if_pos hlen, hdrop, htake, List.dropLast_concat, hopen, hclose,
    not_false_eq_true, and_self, if_true]

theorem exists_of_splitGroup {rest base content : List Char}
    (h : splitGroup rest = some (base, content)) :
    rest = base ++ '(' :: content ++ [')'] ∧ content ≠ [] ∧ '(' ∉ content ∧ ')' ∉ content := by
  rw [splitGroup] at h
  split at h
  · next hlast =>
      split at h
      · cases h
      · next openIdx hfind =>
          obtain ⟨front, back, rfl, -, rfl⟩ := exists_of_rfind hfind
          have hback : (front ++ '(' :: back).drop (front.length + 1) = back := by
            rw [← List.drop_drop, List.drop_left]
            rfl
          have hfront : (front ++ '(' :: back).take front.length = front := List.take_left
          simp only [hback, hfront] at h
          split at h
          · next hlen =>
              split at h
              · next hparens =>
                  obtain ⟨rfl, rfl⟩ := Prod.mk.inj (Option.some_inj.mp h)
                  -- the last character is the closing one, so the rest of the part is before it
                  have hlong : 1 < back.length := by
                    rw [List.length_append, List.length_cons] at hlen
                    omega
                  have hne : back ≠ [] := by
                    rintro rfl
                    simp at hlong
                  have hclose : back.getLast hne = ')' := by
                    rw [List.getLast?_append, List.getLast?_cons_of_ne_nil hne,
                      List.getLast?_eq_some_getLast hne] at hlast
                    exact Option.some_inj.mp hlast
                  have hsplit : back.dropLast ++ [')'] = back := by
                    rw [← hclose, List.dropLast_append_getLast]
                  refine ⟨by rw [List.append_assoc, List.cons_append, hsplit], ?_, hparens.2,
                    hparens.1⟩
                  intro hnil
                  rw [hnil] at hsplit
                  rw [← hsplit] at hlong
                  simp at hlong
              · cases h
          · cases h
  · cases h

theorem endsInGroup_iff {rest : List Char} :
    EndsInGroup rest ↔ ∃ found, splitGroup rest = some found := by
  constructor
  · rintro ⟨front, content, rfl, hne, hopen, hclose⟩
    exact ⟨_, splitGroup_append front hne hopen hclose⟩
  · rintro ⟨⟨base, content⟩, hfound⟩
    obtain ⟨hrest, hrules⟩ := exists_of_splitGroup hfound
    exact ⟨base, content, hrest, hrules⟩

/-- Spaces at the left end are not part of the group. -/
theorem endsInGroup_dropWhile_iff {base : List Char} :
    EndsInGroup (base.dropWhile isSpace) ↔ EndsInGroup base := by
  constructor
  · rintro ⟨front, content, hbase, hrules⟩
    obtain ⟨spaces, hspaces⟩ := List.dropWhile_suffix (l := base) isSpace
    exact ⟨spaces ++ front, content, by rw [← hspaces, hbase]; simp, hrules⟩
  · rintro ⟨front, content, rfl, hrules⟩
    refine ⟨front.dropWhile isSpace, content, ?_, hrules⟩
    rw [List.append_assoc, List.cons_append, dropWhile_append_cons (by decide),
      List.append_assoc, List.cons_append]

/-! ## Reading what was written -/

/-- What Steam's names have in common here: one blank before the wear, if a wear ends the name. -/
def IsMarketHashName (name : List Char) : Prop :=
  ∀ rest, ∀ wear ∈ WEAR_SUFFIXES, name = rest ++ wear →
    ∃ base, rest = base ++ [' '] ∧ NoSpaceAtEnd base

/-- A version that names something: DMarket's `default` stands for no version. -/
def IsVersion (version : List Char) : Prop :=
  version ≠ [] ∧ '(' ∉ version ∧ ')' ∉ version ∧ version ≠ "default".toList

instance (version : List Char) : Decidable (IsVersion version) :=
  inferInstanceAs (Decidable (_ ∧ _))

/-- The names that take part in the round trip with a version, and those without one. A
version needs a wear to stand before. A name without a version must not end in a group
before its wear. -/
def ReadsBack (name : List Char) : Option (List Char) → Prop
  | none => ∀ base, ∀ wear ∈ WEAR_SUFFIXES, name = base ++ ' ' :: wear → ¬ EndsInGroup base
  | some _ => ∃ base, ∃ wear ∈ WEAR_SUFFIXES,
      name = base ++ ' ' :: wear ∧ base.dropWhile isSpace = base

theorem isMarketHashName_append {base wear : List Char} (hbase : NoSpaceAtEnd base)
    (hwear : wear ∈ WEAR_SUFFIXES) : IsMarketHashName (base ++ ' ' :: wear) := by
  intro rest wear' hwear' heq
  rw [List.append_cons] at heq
  obtain rfl : wear = wear' := wear_unique hwear hwear' ⟨_, rfl⟩ ⟨_, heq.symm⟩
  exact ⟨base, (List.append_cancel_right heq).symm, hbase⟩

theorem isMarketHashName_of_no_wear {name : List Char}
    (h : ∀ wear ∈ WEAR_SUFFIXES, ¬ wear <:+ name) : IsMarketHashName name := by
  rintro rest wear hwear rfl
  exact absurd (List.suffix_append rest wear) (h wear hwear)

theorem wear_suffix (base wear : List Char) : wear <:+ base ++ ' ' :: wear := by
  rw [List.append_cons]
  exact List.suffix_append _ _

/-- The wear and the base of a name are the only ones it has. -/
theorem base_unique {base base' wear wear' : List Char} (hwear : wear ∈ WEAR_SUFFIXES)
    (hwear' : wear' ∈ WEAR_SUFFIXES) (h : base ++ ' ' :: wear = base' ++ ' ' :: wear') :
    base = base' := by
  have hsuffix : wear' <:+ base ++ ' ' :: wear := h ▸ wear_suffix base' wear'
  obtain rfl := wear_unique hwear hwear' (wear_suffix base wear) hsuffix
  exact List.append_cancel_right h

/-- A name either ends in no wear, or in one with a blank before it. -/
theorem IsMarketHashName.cases {name : List Char} (h : IsMarketHashName name) :
    (∀ wear ∈ WEAR_SUFFIXES, ¬ wear <:+ name) ∨
      ∃ base, ∃ wear ∈ WEAR_SUFFIXES, name = base ++ ' ' :: wear ∧ NoSpaceAtEnd base := by
  by_cases hwear : ∃ wear ∈ WEAR_SUFFIXES, wear <:+ name
  · right
    obtain ⟨wear, hmem, rest, rfl⟩ := hwear
    obtain ⟨base, rfl, hbase⟩ := h rest wear hmem rfl
    exact ⟨base, wear, hmem, by simp, hbase⟩
  · left
    push Not at hwear
    exact hwear

theorem splitWear_base {base wear : List Char} (hbase : NoSpaceAtEnd base)
    (hwear : wear ∈ WEAR_SUFFIXES) :
    splitWear (base ++ ' ' :: wear) = some (base.dropWhile isSpace, wear) := by
  rw [List.append_cons, splitWear_append _ hwear, trim_concat_blank hbase]

/-- A plain name is read as it is, unless a group ends what is before its wear. -/
theorem parseVersionFromName_plain_iff {base wear : List Char} (hbase : NoSpaceAtEnd base)
    (hwear : wear ∈ WEAR_SUFFIXES) :
    parseVersionFromName (base ++ ' ' :: wear) = (base ++ ' ' :: wear, none) ↔
      ¬ EndsInGroup base := by
  rw [parseVersionFromName, splitWear_base hbase hwear, ← endsInGroup_dropWhile_iff,
    endsInGroup_iff]
  cases hgroup : splitGroup (base.dropWhile isSpace) with
  | none => simp [hgroup]
  | some found => simp [hgroup]

theorem parseVersionFromName_of_no_wear {name : List Char}
    (h : ∀ wear ∈ WEAR_SUFFIXES, ¬ wear <:+ name) : parseVersionFromName name = (name, none) := by
  rw [parseVersionFromName, splitWear_eq_none_iff.mpr h]

theorem buildVersionedName_of_isVersion (name : List Char) {version : List Char}
    (h : IsVersion version) :
    buildVersionedName name (some version) =
      match splitWear name with
      | some (base, wear) => base ++ " (".toList ++ version ++ ") ".toList ++ wear
      | none => name ++ " (".toList ++ version ++ ")".toList := by
  rw [buildVersionedName, if_neg]
  rintro (hnil | hdefault)
  · exact h.1 hnil
  · exact h.2.2.2 hdefault

/-- A version before a wear is read back, and the name with the spaces at its left end cut. -/
theorem parse_build_of_wear {base wear version : List Char} (hbase : NoSpaceAtEnd base)
    (hwear : wear ∈ WEAR_SUFFIXES) (hversion : IsVersion version) :
    parseVersionFromName (buildVersionedName (base ++ ' ' :: wear) (some version)) =
      (base.dropWhile isSpace ++ ' ' :: wear, some version) := by
  have hcut := hbase.dropWhile
  generalize hshort : base.dropWhile isSpace = short at hcut
  have hbuild : buildVersionedName (base ++ ' ' :: wear) (some version) =
      (short ++ ' ' :: '(' :: version ++ [')']) ++ ' ' :: wear := by
    rw [buildVersionedName_of_isVersion _ hversion, splitWear_base hbase hwear, hshort]
    simp
  obtain ⟨hne, hopen, hclose, -⟩ := hversion
  have hclosed : NoSpaceAtEnd (short ++ ' ' :: '(' :: version ++ [')']) := by
    intro c hc
    rw [List.getLast?_concat] at hc
    obtain rfl := Option.some_inj.mp hc
    decide
  -- what is before the wear stops with the group of the version
  have hrest : (short ++ ' ' :: '(' :: version ++ [')']).dropWhile isSpace =
      (short ++ [' ']).dropWhile isSpace ++ '(' :: version ++ [')'] := by
    have hsplit : short ++ ' ' :: '(' :: version ++ [')'] =
        (short ++ [' ']) ++ '(' :: (version ++ [')']) := by simp
    rw [hsplit, dropWhile_append_cons (by decide), List.append_assoc, List.cons_append]
  have hagain : short.dropWhile isSpace = short := by
    rw [← hshort, List.dropWhile_idempotent]
  have htrim : trim ((short ++ [' ']).dropWhile isSpace) = short := by
    rw [trim, List.dropWhile_idempotent, ← trim, trim_concat_blank hcut, hagain]
  rw [hbuild, parseVersionFromName, splitWear_base hclosed hwear]
  simp only [hrest, splitGroup_append _ hne hopen hclose, htrim]

/-- Without a wear the version is put at the end, where it is never looked for. -/
theorem parse_build_of_no_wear {name version : List Char} (hversion : IsVersion version)
    (h : ∀ wear ∈ WEAR_SUFFIXES, ¬ wear <:+ name) :
    parseVersionFromName (buildVersionedName name (some version)) ≠ (name, some version) := by
  intro hback
  rw [buildVersionedName_of_isVersion _ hversion, splitWear_eq_none_iff.mpr h,
    parseVersionFromName] at hback
  split at hback
  · simp at hback
  · next rest wear hwear =>
      split at hback
      · simp at hback
      · next base content hgroup =>
          -- what is read ends in the wear that was found, the name in none
          apply h wear (mem_wears_of_splitWear hwear)
          rw [← (Prod.mk.inj hback).1]
          exact wear_suffix _ _

theorem parse_build_iff {name : List Char} {version : Option (List Char)}
    (hname : IsMarketHashName name) (hversion : ∀ v ∈ version, IsVersion v) :
    parseVersionFromName (buildVersionedName name version) = (name, version) ↔
      ReadsBack name version := by
  cases version with
  | none =>
      rcases hname.cases with hnone | ⟨base, wear, hwear, rfl, hbase⟩
      · refine iff_of_true (parseVersionFromName_of_no_wear hnone) ?_
        rintro base wear hwear rfl
        exact absurd (wear_suffix base wear) (hnone wear hwear)
      · refine (parseVersionFromName_plain_iff hbase hwear).trans ⟨?_, fun h => h base wear hwear rfl⟩
        intro hgroup base' wear' hwear' heq
        rwa [← base_unique hwear hwear' heq]
  | some version =>
      have hversion := hversion version rfl
      rcases hname.cases with hnone | ⟨base, wear, hwear, rfl, hbase⟩
      · refine iff_of_false (parse_build_of_no_wear hversion hnone) ?_
        rintro ⟨base, wear, hwear, rfl, -⟩
        exact hnone wear hwear (wear_suffix base wear)
      · rw [parse_build_of_wear hbase hwear hversion, Prod.mk.injEq, and_iff_left rfl]
        constructor
        · intro h
          exact ⟨base, wear, hwear, rfl, List.append_cancel_right h⟩
        · rintro ⟨base', wear', hwear', heq, hspaces⟩
          rw [base_unique hwear hwear' heq, hspaces]

/-- Two names with their versions are read back as they were written, and so are written
differently when they differ, if and only if both are of the kind that is read back. -/
theorem versionedNames_read_back_iff {name name' : List Char}
    {version version' : Option (List Char)} (hname : IsMarketHashName name)
    (hname' : IsMarketHashName name') (hversion : ∀ v ∈ version, IsVersion v)
    (hversion' : ∀ v ∈ version', IsVersion v) :
    (parseVersionFromName (buildVersionedName name version) = (name, version) ∧
      parseVersionFromName (buildVersionedName name' version') = (name', version') ∧
      ((name, version) ≠ (name', version') →
        buildVersionedName name version ≠ buildVersionedName name' version')) ↔
      ReadsBack name version ∧ ReadsBack name' version' := by
  rw [← parse_build_iff hname hversion, ← parse_build_iff hname' hversion']
  constructor
  · rintro ⟨h, h', -⟩
    exact ⟨h, h'⟩
  · rintro ⟨h, h'⟩
    refine ⟨h, h', fun hdiffer heq => hdiffer ?_⟩
    rw [← h, ← h', heq]

theorem versionedNames_read_back_redline :
    (parseVersionFromName (buildVersionedName "AK-47 | Redline (Field-Tested)".toList
        (some "Phase 3".toList)) =
        ("AK-47 | Redline (Field-Tested)".toList, some "Phase 3".toList) ∧
      parseVersionFromName (buildVersionedName "AK-47 | Redline".toList none) =
        ("AK-47 | Redline".toList, none) ∧
      (("AK-47 | Redline (Field-Tested)".toList, some "Phase 3".toList) ≠
          ("AK-47 | Redline".toList, none) →
        buildVersionedName "AK-47 | Redline (Field-Tested)".toList (some "Phase 3".toList) ≠
          buildVersionedName "AK-47 | Redline".toList none)) ↔
      ReadsBack "AK-47 | Redline (Field-Tested)".toList (some "Phase 3".toList) ∧
        ReadsBack "AK-47 | Redline".toList none := by
  refine versionedNames_read_back_iff ?_ ?_ ?_ ?_
  · exact @isMarketHashName_append "AK-47 | Redline".toList _ (by decide +kernel) (by decide +kernel)
  · exact isMarketHashName_of_no_wear (by decide +kernel)
  · simp [IsVersion]
  · simp

/-- A title that ends in parentheses is read as versioned, the docstring's own example
without a wear is not read back, and two pairs share one versioned name. -/
theorem versionedNames_misread :
    (IsMarketHashName "M4A4 | 龍王 (Dragon King) (Field-Tested)".toList ∧
      parseVersionFromName
          (buildVersionedName "M4A4 | 龍王 (Dragon King) (Field-Tested)".toList none) =
        ("M4A4 | 龍王 (Field-Tested)".toList, some "Dragon King".toList)) ∧
    (IsMarketHashName "AK-47 | Redline".toList ∧ IsVersion "Phase 3".toList ∧
      parseVersionFromName (buildVersionedName "AK-47 | Redline".toList
          (some "Phase 3".toList)) = ("AK-47 | Redline (Phase 3)".toList, none)) ∧
    (IsMarketHashName "M4A4 | 龍王 (Field-Tested)".toList ∧ IsVersion "Dragon King".toList ∧
      buildVersionedName "M4A4 | 龍王 (Field-Tested)".toList (some "Dragon King".toList) =
        buildVersionedName "M4A4 | 龍王 (Dragon King) (Field-Tested)".toList none) := by
  refine ⟨⟨?_, by decide +kernel⟩, ⟨?_, by decide +kernel, by decide +kernel⟩,
    ⟨?_, by decide +kernel, by decide +kernel⟩⟩
  · exact @isMarketHashName_append "M4A4 | 龍王 (Dragon King)".toList _ (by decide +kernel) (by decide +kernel)
  · exact isMarketHashName_of_no_wear (by decide +kernel)
  · exact @isMarketHashName_append "M4A4 | 龍王".toList _ (by decide +kernel) (by decide +kernel)

end BrandSniper.ItemClassifier
