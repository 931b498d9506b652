import BrandSniper.Kit.OrderedDict
import Mathlib.Data.List.Induction
import Mathlib.Data.List.Sort
import Mathlib.Data.Prod.Lex

/-!
# Histories of dated entries

What programs do with a list of entries that carry a time: keep the first
entry of each key (`firstPerKey`), sort them stably (`sortOn`), group them
(`groupOn`) and cut a range of times out of a sorted list with two bisects
(`slice_bisect`).

An entry's place is its `rank` in a linear order. Each operation commutes with
a cut: a filter that keeps everything below what it keeps. So what is read of
the entries up to a time depends on those alone.
-/

namespace Kit

variable {α β κ ρ : Type} [LinearOrder ρ]

/-! ## The first entry -/

section
variable (rank : α → ρ)

/-- `a` in place of the entry kept so far, if it comes earlier. -/
def keepFirst (kept : Option α) (a : α) : Option α :=
  match kept with
  | none => some a
  | some b => if rank a < rank b then some a else some b

/-- The first entry, and of several at the same place the one met first. -/
def firstOf (l : List α) : Option α := l.foldl (keepFirst rank) none

variable {rank}

theorem firstOf_concat (l : List α) (a : α) :
    firstOf rank (l ++ [a]) = keepFirst rank (firstOf rank l) a := by
  rw [firstOf, List.foldl_append]
  rfl

theorem firstOf_eq_none_iff {l : List α} : firstOf rank l = none ↔ l = [] := by
  constructor
  · intro h
    rcases List.eq_nil_or_concat l with rfl | ⟨before, a, rfl⟩
    · rfl
    · rw [List.concat_eq_append, firstOf_concat] at h
      unfold keepFirst at h
      split at h
      · cases h
      · split at h <;> cases h
  · rintro rfl
    rfl

/-- The first entry is one of the entries, and none comes before it. -/
theorem firstOf_spec {l : List α} {m : α} (h : firstOf rank l = some m) :
    m ∈ l ∧ ∀ a ∈ l, rank m ≤ rank a := by
  induction l using List.reverseRecOn generalizing m with
  | nil => cases h
  | append_singleton before a ih =>
      rw [firstOf_concat] at h
      cases hbefore : firstOf rank before with
      | none =>
          rw [hbefore] at h
          cases h
          rw [firstOf_eq_none_iff.mp hbefore]
          simp
      | some b =>
          rw [hbefore] at h
          obtain ⟨hb, hmin⟩ := ih hbefore
          simp only [keepFirst] at h
          split at h
          · rename_i hlt
            cases h
            refine ⟨by simp, fun x hx => ?_⟩
            rcases List.mem_append.mp hx with hx | hx
            · exact (le_of_lt hlt).trans (hmin x hx)
            · rw [List.mem_singleton.mp hx]
          · rename_i hle
            cases h
            refine ⟨List.mem_append_left _ hb, fun x hx => ?_⟩
            rcases List.mem_append.mp hx with hx | hx
            · exact hmin x hx
            · rw [List.mem_singleton.mp hx]
              exact not_lt.mp hle

/-- The first entry is met before every entry at its place, and comes before those met earlier. -/
theorem firstOf_eq_some_iff {l : List α} {m : α} : firstOf rank l = some m ↔
    ∃ before after, l = before ++ m :: after ∧ (∀ a ∈ before, rank m < rank a) ∧
      ∀ a ∈ after, rank m ≤ rank a := by
  induction l using List.reverseRecOn generalizing m with
  | nil =>
      refine iff_of_false (Option.some_ne_none m).symm ?_
      intro ⟨before, after, hsplit, _⟩
      simp at hsplit
  | append_singleton init last ih =>
      rw [firstOf_concat]
      constructor
      · intro h
        cases hinit : firstOf rank init with
        | none =>
            rw [hinit] at h
            cases h
            rw [firstOf_eq_none_iff.mp hinit]
            exact ⟨[], [], rfl, List.forall_mem_nil _, List.forall_mem_nil _⟩
        | some kept =>
            rw [hinit] at h
            simp only [keepFirst] at h
            split at h
            · rename_i hlt
              cases h
              refine ⟨init, [], rfl, fun a ha => ?_, List.forall_mem_nil _⟩
              exact hlt.trans_le ((firstOf_spec hinit).2 a ha)
            · rename_i hle
              cases h
              obtain ⟨before, after, rfl, hbefore, hafter⟩ := ih.mp hinit
              refine ⟨before, after ++ [last], by simp, hbefore, fun a ha => ?_⟩
              rcases List.mem_append.mp ha with ha | ha
              · exact hafter a ha
              · rw [List.mem_singleton.mp ha]
                exact not_lt.mp hle
      · intro ⟨before, after, hsplit, hbefore, hafter⟩
        rcases List.eq_nil_or_concat after with rfl | ⟨after, a, rfl⟩
        · obtain ⟨rfl, hlast⟩ := List.append_inj' hsplit rfl
          obtain rfl := List.singleton_injective hlast
          cases hinit : firstOf rank init with
          | none => rfl
          | some kept => rw [keepFirst, if_pos (hbefore kept (firstOf_spec hinit).1)]
        · rw [List.concat_eq_append, ← List.cons_append, ← List.append_assoc] at hsplit
          obtain ⟨rfl, hlast⟩ := List.append_inj' hsplit rfl
          obtain rfl := List.singleton_injective hlast
          rw [List.concat_eq_append] at hafter
          have hkept : firstOf rank (before ++ m :: after) = some m :=
            ih.mpr ⟨before, after, rfl, hbefore, fun b hb => hafter b (List.mem_append_left _ hb)⟩
          have hlast := hafter last (List.mem_append_right _ (List.mem_singleton_self _))
          rw [hkept, keepFirst, if_neg (not_lt.mpr hlast)]

/-- A filter that keeps the first entry keeps it the first. -/
theorem firstOf_filter_of_pos {l : List α} {m : α} {p : α → Bool} (h : firstOf rank l = some m)
    (hp : p m = true) : firstOf rank (l.filter p) = some m := by
  induction l using List.reverseRecOn generalizing m with
  | nil => cases h
  | append_singleton before a ih =>
      rw [firstOf_concat] at h
      rw [List.filter_append]
      cases hbefore : firstOf rank before with
      | none =>
          rw [hbefore] at h
          cases h
          rw [firstOf_eq_none_iff.mp hbefore, List.filter_cons_of_pos hp]
          rfl
      | some b =>
          rw [hbefore] at h
          obtain ⟨-, hmin⟩ := firstOf_spec hbefore
          simp only [keepFirst] at h
          split at h
          · rename_i hlt
            cases h
            rw [List.filter_cons_of_pos hp, List.filter_nil, firstOf_concat]
            cases hkept : firstOf rank (before.filter p) with
            | none => rfl
            | some c =>
                have hc := List.mem_of_mem_filter (firstOf_spec hkept).1
                rw [keepFirst, if_pos (hlt.trans_le (hmin c hc))]
          · rename_i hle
            cases h
            by_cases ha : p a = true
            · rw [List.filter_cons_of_pos ha, List.filter_nil, firstOf_concat, ih hbefore hp,
                keepFirst, if_neg hle]
            · rw [List.filter_cons_of_neg ha, List.filter_nil, List.append_nil, ih hbefore hp]

/-- Keeping everything below what it keeps, a filter keeps the first entry or nothing. -/
theorem firstOf_filter {l : List α} {p : α → Bool}
    (hcut : ∀ a b, rank a ≤ rank b → p b = true → p a = true) :
    firstOf rank (l.filter p) = (firstOf rank l).filter p := by
  cases h : firstOf rank l with
  | none =>
      rw [firstOf_eq_none_iff.mp h]
      rfl
  | some m =>
      by_cases hp : p m = true
      · rw [firstOf_filter_of_pos h hp, Option.filter_some, if_pos hp]
      · rw [Option.filter_some, if_neg hp, firstOf_eq_none_iff, List.filter_eq_nil_iff]
        intro a ha hpa
        exact hp (hcut m a ((firstOf_spec h).2 a ha) hpa)

end

/-! ## The first entry of each key -/

section
variable [DecidableEq κ] (key : α → κ) (rank : α → ρ)

/-- The earlier of two entries stays under their key. -/
def setFirst (d : OrderedDict κ α) (a : α) : OrderedDict κ α :=
  match d.get? (key a) with
  | none => d.set (key a) a
  | some b => if rank a < rank b then d.set (key a) a else d

def firstPerKey (l : List α) : OrderedDict κ α := l.foldl (setFirst key rank) .empty

variable {key rank}

theorem get?_setFirst (d : OrderedDict κ α) (a : α) (k : κ) :
    (setFirst key rank d a).get? k
      = if key a = k then keepFirst rank (d.get? k) a else d.get? k := by
  unfold setFirst keepFirst
  by_cases hk : key a = k
  · subst hk
    rw [if_pos rfl]
    cases hget : d.get? (key a) with
    | none => simp only [OrderedDict.get?_set, if_pos]
    | some b =>
        dsimp only
        split
        · rw [OrderedDict.get?_set, if_pos rfl]
        · exact hget
  · rw [if_neg hk]
    split
    · rw [OrderedDict.get?_set, if_neg hk]
    · split
      · rw [OrderedDict.get?_set, if_neg hk]
      · rfl

theorem get?_firstPerKey (l : List α) (k : κ) :
    (firstPerKey key rank l).get? k = firstOf rank (l.filter fun a => key a = k) := by
  induction l using List.reverseRecOn with
  | nil => rfl
  | append_singleton before a ih =>
      have hfold : firstPerKey key rank (before ++ [a])
          = setFirst key rank (firstPerKey key rank before) a := by
        rw [firstPerKey, List.foldl_append]
        rfl
      rw [hfold, get?_setFirst, ih, List.filter_append]
      by_cases hk : key a = k
      · rw [if_pos hk, List.filter_cons_of_pos (by simpa using hk), List.filter_nil,
          firstOf_concat]
      · rw [if_neg hk, List.filter_cons_of_neg (by simpa using hk), List.filter_nil,
          List.append_nil]

theorem key_of_get?_firstPerKey {l : List α} {k : κ} {a : α}
    (h : (firstPerKey key rank l).get? k = some a) : a ∈ l ∧ key a = k := by
  rw [get?_firstPerKey] at h
  simpa using (firstOf_spec h).1

theorem mem_values_firstPerKey {l : List α} {a : α} :
    a ∈ (firstPerKey key rank l).items.map Prod.snd
      ↔ (firstPerKey key rank l).get? (key a) = some a := by
  rw [List.mem_map]
  constructor
  · rintro ⟨⟨k, b⟩, hmem, rfl⟩
    have hget := OrderedDict.get?_eq_some.mpr hmem
    rwa [(key_of_get?_firstPerKey hget).2]
  · intro h
    exact ⟨(key a, a), OrderedDict.get?_eq_some.mp h, rfl⟩

theorem nodup_keys_firstPerKey (l : List α) :
    (((firstPerKey key rank l).items.map Prod.snd).map key).Nodup := by
  have hkeys : ((firstPerKey key rank l).items.map Prod.snd).map key
      = (firstPerKey key rank l).items.map Prod.fst := by
    rw [List.map_map]
    refine List.map_congr_left fun kv hkv => ?_
    exact (key_of_get?_firstPerKey (OrderedDict.get?_eq_some.mpr hkv)).2
  rw [hkeys]
  exact (firstPerKey key rank l).nodupKeys

theorem nodup_values_firstPerKey (l : List α) :
    ((firstPerKey key rank l).items.map Prod.snd).Nodup := .of_map key (nodup_keys_firstPerKey l)

theorem get?_firstPerKey_isSome {l : List α} {a : α} (h : a ∈ l) :
    ∃ b, (firstPerKey key rank l).get? (key a) = some b ∧ b ∈ l ∧ key b = key a ∧
      rank b ≤ rank a := by
  cases hget : (firstPerKey key rank l).get? (key a) with
  | none =>
      rw [get?_firstPerKey, firstOf_eq_none_iff, List.filter_eq_nil_iff] at hget
      exact absurd (decide_eq_true rfl) (hget a h)
  | some b =>
      have hb := key_of_get?_firstPerKey hget
      rw [get?_firstPerKey] at hget
      exact ⟨b, rfl, hb.1, hb.2, (firstOf_spec hget).2 a (List.mem_filter.mpr ⟨h, by simp⟩)⟩

/-- Where no key repeats, every entry is the first of its key. -/
theorem get?_firstPerKey_of_nodup {l : List α} (h : (l.map key).Nodup) {a : α} :
    (firstPerKey key rank l).get? (key a) = some a ↔ a ∈ l := by
  constructor
  · intro hget
    exact (key_of_get?_firstPerKey hget).1
  · intro ha
    obtain ⟨b, hget, hb, hkey, -⟩ := @get?_firstPerKey_isSome _ _ _ _ _ key rank _ _ ha
    rwa [List.inj_on_of_nodup_map h hb ha hkey] at hget

/-- A cut of the entries cuts their first ones. -/
theorem get?_firstPerKey_filter {l : List α} {p : α → Bool}
    (hcut : ∀ a b, rank a ≤ rank b → p b = true → p a = true) (k : κ) :
    (firstPerKey key rank (l.filter p)).get? k = ((firstPerKey key rank l).get? k).filter p := by
  rw [get?_firstPerKey, get?_firstPerKey, ← firstOf_filter hcut, List.filter_filter,
    List.filter_filter]
  congr 2
  funext a
  exact Bool.and_comm _ _

theorem eq_of_mem_values {l : List α} {a b : α}
    (ha : a ∈ (firstPerKey key rank l).items.map Prod.snd)
    (hb : b ∈ (firstPerKey key rank l).items.map Prod.snd) (hkey : key a = key b) : a = b := by
  rw [mem_values_firstPerKey] at ha hb
  rw [hkey, hb] at ha
  exact (Option.some.inj ha).symm

theorem perm_values_filter {l : List α} {p : α → Bool}
    (hcut : ∀ a b, rank a ≤ rank b → p b = true → p a = true) :
    ((firstPerKey key rank (l.filter p)).items.map Prod.snd).Perm
      (((firstPerKey key rank l).items.map Prod.snd).filter p) := by
  refine (List.perm_ext_iff_of_nodup (nodup_values_firstPerKey _)
    ((nodup_values_firstPerKey l).filter p)).mpr fun a => ?_
  rw [List.mem_filter, mem_values_firstPerKey, mem_values_firstPerKey,
    get?_firstPerKey_filter hcut, Option.filter_eq_some_iff]

/-- A first entry that a filter keeps is first among what it keeps. -/
theorem get?_firstPerKey_filter_of_pos {l : List α} {p : α → Bool} {k : κ} {a : α}
    (h : (firstPerKey key rank l).get? k = some a) (hp : p a = true) :
    (firstPerKey key rank (l.filter p)).get? k = some a := by
  rw [get?_firstPerKey] at h ⊢
  rw [List.filter_filter]
  have hcomm : l.filter (fun a => decide (key a = k) && p a)
      = (l.filter fun a => key a = k).filter p := by
    rw [List.filter_filter]
    congr 1
    funext a
    exact Bool.and_comm _ _
  rw [hcomm]
  exact firstOf_filter_of_pos h hp

end

/-! ## Sorting -/

/-- `sorted(l, key=rank)`, which is stable. -/
def sortOn (rank : α → ρ) (l : List α) : List α := l.insertionSort fun a b => rank a ≤ rank b

section
variable {rank : α → ρ}

theorem mem_sortOn {l : List α} {a : α} : a ∈ sortOn rank l ↔ a ∈ l := List.mem_insertionSort _

theorem perm_sortOn (l : List α) : (sortOn rank l).Perm l := List.perm_insertionSort _ l

theorem pairwise_sortOn (l : List α) : (sortOn rank l).Pairwise fun a b => rank a ≤ rank b := by
  have : Std.Total fun a b : α => rank a ≤ rank b := ⟨fun a b => le_total (rank a) (rank b)⟩
  have : IsTrans α fun a b : α => rank a ≤ rank b := ⟨fun _ _ _ => le_trans⟩
  exact List.pairwise_insertionSort _ l

theorem filter_orderedInsert {p : α → Bool} {a : α} {l : List α}
    (h : l.Pairwise fun a b => rank a ≤ rank b) :
    (l.orderedInsert (fun a b => rank a ≤ rank b) a).filter p
      = if p a then (l.filter p).orderedInsert (fun a b => rank a ≤ rank b) a
        else l.filter p := by
  induction l with
  | nil => by_cases ha : p a = true <;> simp [ha]
  | cons b rest ih =>
      obtain ⟨hb, hrest⟩ := List.pairwise_cons.mp h
      rw [List.orderedInsert_cons]
      by_cases hab : rank a ≤ rank b
      · rw [if_pos hab, List.filter_cons]
        by_cases ha : p a = true
        · rw [if_pos ha, if_pos ha]
          -- every entry the filter keeps comes after `a`
          cases hkept : (b :: rest).filter p with
          | nil => rfl
          | cons c _ =>
              have hc : c ∈ b :: rest := by
                refine List.mem_of_mem_filter (p := p) ?_
                rw [hkept]
                exact List.mem_cons_self
              have hac : rank a ≤ rank c := by
                rcases List.mem_cons.mp hc with rfl | hc
                · exact hab
                · exact hab.trans (hb c hc)
              rw [List.orderedInsert_cons, if_pos hac]
        · rw [if_neg ha, if_neg ha]
      · rw [if_neg hab, List.filter_cons, List.filter_cons, ih hrest]
        by_cases ha : p a = true
        · by_cases hpb : p b = true
          · rw [if_pos ha, if_pos ha, if_pos hpb, if_pos hpb, List.orderedInsert_cons, if_neg hab]
          · rw [if_pos ha, if_pos ha, if_neg hpb, if_neg hpb]
        · rw [if_neg ha, if_neg ha]

/-- Sorting commutes with a filter. -/
theorem sortOn_filter (l : List α) (p : α → Bool) :
    sortOn rank (l.filter p) = (sortOn rank l).filter p := by
  induction l with
  | nil => rfl
  | cons a rest ih =>
      have hsorted : (sortOn rank rest).Pairwise fun a b => rank a ≤ rank b := pairwise_sortOn rest
      have hcons : sortOn rank (a :: rest)
          = (sortOn rank rest).orderedInsert (fun a b => rank a ≤ rank b) a := rfl
      rw [hcons, filter_orderedInsert hsorted, ← ih, List.filter_cons]
      split <;> rfl

/-- The last entry of a sorted list. -/
theorem getLast?_sortOn {l : List α} {m : α} (hm : m ∈ l)
    (hmax : ∀ a ∈ l, a ≠ m → rank a < rank m) : (sortOn rank l).getLast? = some m := by
  cases h : (sortOn rank l).getLast? with
  | none =>
      rw [List.getLast?_eq_none_iff] at h
      have hmem : m ∈ sortOn rank l := mem_sortOn.mpr hm
      rw [h] at hmem
      cases hmem
  | some last =>
      obtain ⟨before, hsplit⟩ := List.getLast?_eq_some_iff.mp h
      have hmem : m ∈ sortOn rank l := mem_sortOn.mpr hm
      have hsorted : (sortOn rank l).Pairwise fun a b => rank a ≤ rank b := pairwise_sortOn l
      rw [hsplit] at hmem hsorted
      rcases List.mem_append.mp hmem with hbefore | hlast
      · have hle := (List.pairwise_append.mp hsorted).2.2 m hbefore last List.mem_cons_self
        by_contra hne
        have hlast : last ∈ l := mem_sortOn.mp (List.mem_of_getLast? h)
        exact absurd (hmax last hlast fun heq => hne (heq ▸ rfl)) (not_lt.mpr hle)
      · rw [List.mem_singleton.mp hlast]

/-- Entries of distinct ranks have one order. -/
theorem sortOn_eq_of_perm {a b : List α} (hinj : ∀ x ∈ a, ∀ y ∈ a, rank x = rank y → x = y)
    (h : a.Perm b) : sortOn rank a = sortOn rank b := by
  refine List.Perm.eq_of_pairwise ?_ (pairwise_sortOn a) (pairwise_sortOn b)
    ((perm_sortOn a).trans (h.trans (perm_sortOn b).symm))
  intro x y hx hy hxy hyx
  exact hinj x (mem_sortOn.mp hx) y (h.mem_iff.mpr (mem_sortOn.mp hy)) (le_antisymm hxy hyx)

end

/-! ## Groups -/

section
variable [DecidableEq κ]

/-- `groups.setdefault(key(a), []).append(value(a))` for each entry that has a key. -/
def groupOn (key : α → Option κ) (value : α → β) (l : List α) : OrderedDict κ (List β) :=
  l.foldl (fun groups a =>
    match key a with
    | none => groups
    | some k => groups.set k ((groups.get? k).getD [] ++ [value a])) .empty

theorem getD_groupOn (key : α → Option κ) (value : α → β) (l : List α) (k : κ) :
    ((groupOn key value l).get? k).getD [] = (l.filter fun a => key a = some k).map value := by
  induction l using List.reverseRecOn with
  | nil => rfl
  | append_singleton before a ih =>
      rw [groupOn, List.foldl_append, List.foldl_cons, List.foldl_nil, List.filter_append,
        List.map_append, ← ih]
      show ((match key a with
        | none => groupOn key value before
        | some k => _).get? k).getD [] = _
      cases hkey : key a with
      | none => simp [hkey]
      | some k' =>
          dsimp only
          rw [OrderedDict.get?_set]
          by_cases hk : k' = k
          · subst hk
            simp [hkey, groupOn]
          · rw [if_neg hk, List.filter_cons_of_neg (by simp [hkey, hk]), List.filter_nil,
              List.map_nil, List.append_nil]
            rfl

end

/-! ## Ranges of a sorted list -/

/-- `bisect.bisect_left` of a sorted list. -/
def bisectLeft (times : List ρ) (t : ρ) : Nat := (times.takeWhile fun x => x < t).length

/-- `bisect.bisect_right` of a sorted list. -/
def bisectRight (times : List ρ) (t : ρ) : Nat := (times.takeWhile fun x => x ≤ t).length

section
variable {time : α → ρ}

/-- What lies before a right bisect of a sorted list. -/
theorem take_bisectRight {l : List α} (h : l.Pairwise fun a b => time a ≤ time b) (last : ρ) :
    l.take (bisectRight (l.map time) last) = l.filter fun a => time a ≤ last := by
  rw [bisectRight]
  induction l with
  | nil => rfl
  | cons a rest ih =>
      obtain ⟨ha, hrest⟩ := List.pairwise_cons.mp h
      rw [List.map_cons, List.takeWhile_cons, List.filter_cons]
      by_cases hlast : time a ≤ last
      · rw [if_pos (decide_eq_true hlast), if_pos (decide_eq_true hlast), List.length_cons,
          List.take_succ_cons, ih hrest]
      · rw [if_neg (by simpa using hlast), if_neg (by simpa using hlast), List.length_nil,
          List.take_zero, eq_comm, List.filter_eq_nil_iff]
        intro b hb hlater
        exact hlast ((ha b hb).trans (of_decide_eq_true hlater))

/-- The last entry before a right bisect. -/
theorem getElem?_bisectRight {l : List α} (h : l.Pairwise fun a b => time a ≤ time b) (last : ρ)
    {index : Nat} (hindex : bisectRight (l.map time) last = index + 1) :
    l[index]? = (l.filter fun a => time a ≤ last).getLast? := by
  have hlength : index + 1 ≤ l.length := by
    rw [← hindex, bisectRight, ← List.length_map (f := time)]
    exact (List.takeWhile_sublist _).length_le
  rw [← take_bisectRight h, hindex, List.getLast?_eq_getElem?, List.length_take,
    Nat.min_eq_left hlength, Nat.add_sub_cancel, List.getElem?_take_of_lt (Nat.lt_succ_self index)]

/-- Two bisects cut the entries of a closed range out of a sorted list. -/
theorem slice_bisect {l : List α} (h : l.Pairwise fun a b => time a ≤ time b) (first last : ρ) :
    (l.take (bisectRight (l.map time) last)).drop (bisectLeft (l.map time) first)
      = l.filter fun a => decide (first ≤ time a) && decide (time a ≤ last) := by
  induction l with
  | nil => rfl
  | cons a rest ih =>
      obtain ⟨ha, hrest⟩ := List.pairwise_cons.mp h
      by_cases hfirst : time a < first
      · have hleft : bisectLeft ((a :: rest).map time) first
            = bisectLeft (rest.map time) first + 1 := by
          rw [bisectLeft, List.map_cons, List.takeWhile_cons, if_pos (by simpa using hfirst)]
          rfl
        rw [hleft, List.filter_cons_of_neg (by simp [hfirst])]
        by_cases hlast : time a ≤ last
        · have hright : bisectRight ((a :: rest).map time) last
              = bisectRight (rest.map time) last + 1 := by
            rw [bisectRight, List.map_cons, List.takeWhile_cons, if_pos (by simpa using hlast)]
            rfl
          rw [hright, List.take_succ_cons, List.drop_succ_cons, ih hrest]
        · have hright : bisectRight ((a :: rest).map time) last = 0 := by
            rw [bisectRight, List.map_cons, List.takeWhile_cons, if_neg (by simpa using hlast)]
            rfl
          rw [hright, List.take_zero, List.drop_nil, eq_comm, List.filter_eq_nil_iff]
          intro b hb hin
          rw [Bool.and_eq_true, decide_eq_true_eq, decide_eq_true_eq] at hin
          exact hlast ((ha b hb).trans hin.2)
      · have hleft : bisectLeft ((a :: rest).map time) first = 0 := by
          rw [bisectLeft, List.map_cons, List.takeWhile_cons, if_neg (by simpa using hfirst)]
          rfl
        rw [hleft, List.drop_zero, take_bisectRight h]
        refine List.filter_congr fun b hb => ?_
        have hb : first ≤ time b := by
          rcases List.mem_cons.mp hb with rfl | hb
          · exact not_lt.mp hfirst
          · exact (not_lt.mp hfirst).trans (ha b hb)
        rw [decide_eq_true hb, Bool.true_and]

/-- Two left bisects cut the entries of a half-open range out of a sorted list. -/
theorem slice_bisectLeft {l : List α} (h : l.Pairwise fun a b => time a ≤ time b) (first last : ρ) :
    (l.take (bisectLeft (l.map time) last)).drop (bisectLeft (l.map time) first)
      = l.filter fun a => decide (first ≤ time a) && decide (time a < last) := by
  induction l with
  | nil => rfl
  | cons a rest ih =>
      obtain ⟨ha, hrest⟩ := List.pairwise_cons.mp h
      have hcons : ∀ t, bisectLeft ((a :: rest).map time) t
          = if time a < t then bisectLeft (rest.map time) t + 1 else 0 := by
        intro t
        rw [bisectLeft, List.map_cons, List.takeWhile_cons]
        by_cases hlt : time a < t
        · rw [if_pos (decide_eq_true hlt), if_pos hlt]
          rfl
        · rw [if_neg (by simpa using hlt), if_neg hlt]
          rfl
      rw [hcons, hcons]
      by_cases hlast : time a < last
      · rw [if_pos hlast, List.take_succ_cons]
        by_cases hfirst : time a < first
        · rw [if_pos hfirst, List.drop_succ_cons, ih hrest,
            List.filter_cons_of_neg (by simp [hfirst])]
        · have hzero : bisectLeft (rest.map time) first = 0 := by
            cases rest with
            | nil => rfl
            | cons b rest =>
                have hb : first ≤ time b := (not_lt.mp hfirst).trans (ha b List.mem_cons_self)
                rw [bisectLeft, List.map_cons, List.takeWhile_cons, if_neg (by simpa using hb)]
                rfl
          rw [if_neg hfirst, List.drop_zero,
            List.filter_cons_of_pos (by simp [hlast, not_lt.mp hfirst]), ← ih hrest, hzero,
            List.drop_zero]
      · rw [if_neg hlast, List.take_zero, List.drop_nil, eq_comm, List.filter_eq_nil_iff]
        intro b hb hin
        rw [Bool.and_eq_true, decide_eq_true_eq, decide_eq_true_eq] at hin
        rcases List.mem_cons.mp hb with rfl | hb
        · exact hlast hin.2
        · exact hlast (lt_of_le_of_lt (ha b hb) hin.2)

end

end Kit
