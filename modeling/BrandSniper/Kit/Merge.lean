import BrandSniper.Kit.Timeline

/-!
# Merging sorted streams

`Interleaves` says that a list holds every element of some streams exactly once
and keeps the order of each stream. A merge (`Merges`) is an interleaving whose
every element was a least one among the heads of the streams. A merge of sorted
streams is sorted, and where no key stands in two streams it is the stable sort
of their concatenation (`Merges.eq_sortOn`).

A stable sort is the sorted list that keeps the elements of every key in their
order (`eq_of_filter_eq`).
-/

namespace Kit

variable {α ρ : Type}

/-- Taken one by one from the front of the streams, until all are empty. -/
inductive Interleaves : List (List α) → List α → Prop
  | done {streams : List (List α)} (h : ∀ s ∈ streams, s = []) : Interleaves streams []
  | take {streams : List (List α)} {out : List α} (i : Nat) (a : α) (rest : List α)
      (h : streams[i]? = some (a :: rest)) (hout : Interleaves (streams.set i rest) out) :
      Interleaves streams (a :: out)

/-- Two streams around the one an element is taken from. -/
theorem exists_split {streams : List (List α)} {i : Nat} {s : List α} (h : streams[i]? = some s)
    (rest : List α) : ∃ before after, streams = before ++ s :: after ∧
      streams.set i rest = before ++ rest :: after := by
  obtain ⟨hi, rfl⟩ := List.getElem?_eq_some_iff.mp h
  refine ⟨streams.take i, streams.drop (i + 1), ?_, ?_⟩
  · rw [← List.drop_eq_getElem_cons hi, List.take_append_drop]
  · exact List.set_eq_take_append_cons_drop.trans (if_pos hi)

/-- What is left of a stream is the end of one. -/
theorem suffix_of_mem_set {streams : List (List α)} {i : Nat} {a : α} {rest s : List α}
    (h : streams[i]? = some (a :: rest)) (hs : s ∈ streams.set i rest) :
    ∃ t ∈ streams, s <:+ t := by
  rcases List.mem_or_eq_of_mem_set hs with hmem | rfl
  · exact ⟨s, hmem, List.suffix_rfl⟩
  · exact ⟨a :: s, List.mem_of_getElem? h, List.suffix_cons a s⟩

namespace Interleaves

variable {streams : List (List α)} {out : List α}

theorem perm (h : Interleaves streams out) : out.Perm streams.flatten := by
  induction h with
  | done hempty =>
      rw [List.flatten_eq_nil_iff.mpr hempty]
  | take i a rest hi _ ih =>
      obtain ⟨before, after, hstreams, hset⟩ := exists_split hi rest
      rw [hset, List.flatten_append, List.flatten_cons] at ih
      rw [hstreams, List.flatten_append, List.flatten_cons, List.cons_append]
      exact (ih.cons a).trans List.perm_middle.symm

/-- Every stream is within the interleaving, in its order. -/
theorem sublist (h : Interleaves streams out) : ∀ s ∈ streams, s.Sublist out := by
  induction h with
  | done hempty =>
      intro s hs
      rw [hempty s hs]
  | take i a rest hi _ ih =>
      intro s hs
      obtain ⟨before, after, hstreams, hset⟩ := exists_split hi rest
      rw [hset] at ih
      rw [hstreams, List.mem_append, List.mem_cons] at hs
      rcases hs with hs | rfl | hs
      · exact (ih s (List.mem_append_left _ hs)).cons a
      · exact (ih rest (by simp)).cons_cons a
      · exact (ih s (List.mem_append_right _ (List.mem_cons_of_mem _ hs))).cons a

/-- Elements that only one stream has come in its order. -/
theorem filter_eq (h : Interleaves streams out) {p : α → Bool}
    (honly : streams.Pairwise fun s t => ∀ a ∈ s, ∀ b ∈ t, ¬ (p a = true ∧ p b = true)) :
    out.filter p = streams.flatten.filter p := by
  induction h with
  | done hempty =>
      rw [List.flatten_eq_nil_iff.mpr hempty]
  | take i a rest hi _ ih =>
      obtain ⟨before, after, hstreams, hset⟩ := exists_split hi rest
      rw [hset] at ih
      rw [hstreams] at honly ⊢
      rw [List.pairwise_append, List.pairwise_cons] at honly
      have hrest : (before ++ rest :: after).Pairwise
          fun s t => ∀ a ∈ s, ∀ b ∈ t, ¬ (p a = true ∧ p b = true) := by
        rw [List.pairwise_append, List.pairwise_cons]
        refine ⟨honly.1, ⟨fun t ht b hb => honly.2.1.1 t ht b (List.mem_cons_of_mem _ hb),
          honly.2.1.2⟩, fun s hs t ht => ?_⟩
        rcases List.mem_cons.mp ht with rfl | ht
        · exact fun b hb c hc => honly.2.2 s hs _ List.mem_cons_self b hb c
            (List.mem_cons_of_mem _ hc)
        · exact honly.2.2 s hs t (List.mem_cons_of_mem _ ht)
      have ih := ih hrest
      simp only [List.flatten_append, List.flatten_cons, List.filter_append] at ih ⊢
      by_cases ha : p a = true
      · -- no stream in front of this one has such an element
        have hbefore : before.flatten.filter p = [] := by
          rw [List.filter_eq_nil_iff]
          intro b hb hpb
          obtain ⟨s, hs, hbs⟩ := List.mem_flatten.mp hb
          exact honly.2.2 s hs _ List.mem_cons_self b hbs a List.mem_cons_self ⟨hpb, ha⟩
        rw [hbefore, List.nil_append] at ih ⊢
        rw [List.filter_cons_of_pos ha, List.filter_cons_of_pos ha, ih, List.cons_append]
      · rw [List.filter_cons_of_neg ha, List.filter_cons_of_neg ha, ih]

end Interleaves

variable [LinearOrder ρ]

/-- Every element is a least one among the heads of the streams when it is taken. -/
inductive Merges (key : α → ρ) : List (List α) → List α → Prop
  | done {streams : List (List α)} (h : ∀ s ∈ streams, s = []) : Merges key streams []
  | take {streams : List (List α)} {out : List α} (i : Nat) (a : α) (rest : List α)
      (h : streams[i]? = some (a :: rest))
      (hleast : ∀ s ∈ streams, ∀ b ∈ s.head?, key a ≤ key b)
      (hout : Merges key (streams.set i rest) out) : Merges key streams (a :: out)

theorem eq_of_filter_eq {key : α → ρ} {a b : List α} (ha : a.Pairwise fun x y => key x ≤ key y)
    (hb : b.Pairwise fun x y => key x ≤ key y)
    (h : ∀ k, a.filter (fun x => decide (key x = k)) = b.filter fun x => decide (key x = k)) :
    a = b := by
  have hnone : ∀ (l : List α) (x : α), x ∈ l →
      l.filter (fun y => decide (key y = key x)) ≠ [] := by
    intro l x hx hnil
    exact List.filter_eq_nil_iff.mp hnil x hx (decide_eq_true rfl)
  induction a generalizing b with
  | nil =>
      cases b with
      | nil => rfl
      | cons y b => exact absurd (h (key y)).symm (hnone _ y List.mem_cons_self)
  | cons x a ih =>
      cases b with
      | nil => exact absurd (h (key x)) (hnone _ x List.mem_cons_self)
      | cons y b =>
          rw [List.pairwise_cons] at ha hb
          have hle : ∀ {z w : α} {l m : List α}, (∀ v ∈ m, key w ≤ key v) →
              (z :: l).filter (fun v => decide (key v = key z))
                = (w :: m).filter (fun v => decide (key v = key z)) → key w ≤ key z := by
            intro z w l m hm heq
            have hz : z ∈ (w :: m).filter fun v => decide (key v = key z) := by
              rw [← heq, List.mem_filter]
              exact ⟨List.mem_cons_self, decide_eq_true rfl⟩
            rcases List.mem_cons.mp (List.mem_filter.mp hz).1 with rfl | hz
            · exact le_refl _
            · exact hm z hz
          have hkey : key x = key y :=
            le_antisymm (hle ha.1 (h (key y)).symm) (hle hb.1 (h (key x)))
          have hfirst := h (key x)
          rw [List.filter_cons_of_pos (by simp), List.filter_cons_of_pos (by simp [hkey]),
            List.cons.injEq] at hfirst
          obtain ⟨rfl, -⟩ := hfirst
          rw [ih ha.2 hb.2 fun k => ?_]
          have hk := h k
          by_cases hx : key x = k
          · rw [List.filter_cons_of_pos (by simpa using hx),
              List.filter_cons_of_pos (by simpa using hx), List.cons.injEq] at hk
            exact hk.2
          · rw [List.filter_cons_of_neg (by simpa using hx),
              List.filter_cons_of_neg (by simpa using hx)] at hk
            exact hk

/-- Sorting commutes with a map that keeps the rank. -/
theorem sortOn_map {β : Type} (rank : β → ρ) (f : α → β) (l : List α) :
    sortOn rank (l.map f) = (sortOn (fun a => rank (f a)) l).map f := by
  symm
  exact List.map_insertionSort _ _ f l fun _ _ _ _ => Iff.rfl

/-- A list in order is its own sort. -/
theorem sortOn_of_pairwise {rank : α → ρ} {l : List α}
    (h : l.Pairwise fun a b => rank a ≤ rank b) : sortOn rank l = l := by
  have hinsert := List.Pairwise.insertionSort_eq h
  exact hinsert

/-- The elements of one key keep their order. -/
theorem filter_key_sortOn {key : α → ρ} (l : List α) (k : ρ) :
    (sortOn key l).filter (fun x => decide (key x = k)) = l.filter fun x => decide (key x = k) := by
  rw [← sortOn_filter]
  apply sortOn_of_pairwise
  rw [List.pairwise_iff_forall_sublist]
  intro a b hab
  have ha := List.mem_filter.mp (hab.subset List.mem_cons_self)
  have hb := List.mem_filter.mp (hab.subset (List.mem_cons_of_mem _ List.mem_cons_self))
  rw [of_decide_eq_true ha.2, of_decide_eq_true hb.2]

/-- Sorting by key and then by position is sorting stably by key. -/
theorem sortOn_position {key : α → ρ} {position : α → Nat} {l : List α}
    (h : l.Pairwise fun a b => position a < position b) :
    sortOn (fun a => toLex (key a, position a)) l = sortOn key l := by
  refine @eq_of_filter_eq _ _ _ key _ _ ?_ ?_ ?_
  · refine (pairwise_sortOn l).imp fun {a b} hab => ?_
    rw [Prod.Lex.toLex_le_toLex] at hab
    exact hab.elim le_of_lt fun heq => le_of_eq heq.1
  · exact pairwise_sortOn l
  · intro k
    rw [filter_key_sortOn, ← sortOn_filter]
    apply sortOn_of_pairwise
    have hfilter := h.filter fun x => decide (key x = k)
    refine List.Pairwise.imp_of_mem ?_ hfilter
    intro a b ha hb hab
    rw [Prod.Lex.toLex_le_toLex]
    have hka := of_decide_eq_true (List.mem_filter.mp ha).2
    have hkb := of_decide_eq_true (List.mem_filter.mp hb).2
    exact .inr ⟨hka.trans hkb.symm, le_of_lt hab⟩

namespace Merges

variable {key : α → ρ} {streams : List (List α)} {out : List α}

theorem interleaves (h : Merges key streams out) : Interleaves streams out := by
  induction h with
  | done hempty => exact .done hempty
  | take i a rest hi _ _ ih => exact .take i a rest hi ih

/-- A merge of sorted streams is sorted. -/
theorem pairwise (h : Merges key streams out)
    (hsorted : ∀ s ∈ streams, s.Pairwise fun a b => key a ≤ key b) :
    out.Pairwise fun a b => key a ≤ key b := by
  induction h with
  | done => exact List.Pairwise.nil
  | take i a rest hi hleast hout ih =>
      rw [List.pairwise_cons]
      constructor
      · intro b hb
        -- `b` is in some stream, behind a head that is no less than `a`
        obtain ⟨s, hs, hbs⟩ := List.mem_flatten.mp (hout.interleaves.perm.subset hb)
        obtain ⟨t, ht, hsuffix⟩ := suffix_of_mem_set hi hs
        cases t with
        | nil => cases hsuffix.subset hbs
        | cons c t =>
            have hac := hleast (c :: t) ht c rfl
            rcases List.mem_cons.mp (hsuffix.subset hbs) with rfl | hbt
            · exact hac
            · exact hac.trans ((List.pairwise_cons.mp (hsorted _ ht)).1 b hbt)
      · apply ih
        intro s hs
        obtain ⟨t, ht, hsuffix⟩ := suffix_of_mem_set hi hs
        exact (hsorted t ht).sublist hsuffix.sublist

/-- Where no key stands in two streams, the merge is the stable sort. -/
theorem eq_sortOn (h : Merges key streams out)
    (hsorted : ∀ s ∈ streams, s.Pairwise fun a b => key a ≤ key b)
    (hapart : streams.Pairwise fun s t => ∀ a ∈ s, ∀ b ∈ t, key a ≠ key b) :
    out = sortOn key streams.flatten := by
  apply eq_of_filter_eq (h.pairwise hsorted) (pairwise_sortOn _)
  intro k
  rw [filter_key_sortOn]
  apply h.interleaves.filter_eq
  refine hapart.imp fun {s t} hst a ha b hb hboth => ?_
  rw [decide_eq_true_eq, decide_eq_true_eq] at hboth
  exact hst a ha b hb (hboth.1.trans hboth.2.symm)

end Merges

/-! ## Taking the least element -/

/-- The element of least key, the first one of several, and the others. -/
def popLeast (key : α → ρ) : List α → Option (α × List α)
  | [] => none
  | a :: rest =>
      match popLeast key rest with
      | none => some (a, [])
      | some (least, others) =>
          if key a ≤ key least then some (a, rest) else some (least, a :: others)

theorem popLeast_eq_none_iff {key : α → ρ} {l : List α} : popLeast key l = none ↔ l = [] := by
  cases l with
  | nil => exact iff_of_true rfl rfl
  | cons a rest =>
      refine iff_of_false ?_ (List.cons_ne_nil _ _)
      rw [popLeast]
      split
      · exact Option.some_ne_none _
      · split <;> exact Option.some_ne_none _

theorem popLeast_spec {key : α → ρ} {l others : List α} {least : α}
    (h : popLeast key l = some (least, others)) :
    l.Perm (least :: others) ∧ ∀ a ∈ l, key least ≤ key a := by
  induction l generalizing least others with
  | nil => cases h
  | cons a rest ih =>
      rw [popLeast] at h
      split at h
      · rename_i hnone
        cases h
        rw [popLeast_eq_none_iff.mp hnone]
        exact ⟨List.Perm.refl _, by simp⟩
      · rename_i least' others' hsome
        obtain ⟨hperm, hleast⟩ := ih hsome
        split at h
        · rename_i hle
          cases h
          refine ⟨List.Perm.refl _, fun b hb => ?_⟩
          rcases List.mem_cons.mp hb with rfl | hb
          · exact le_refl _
          · exact hle.trans (hleast b hb)
        · rename_i hgt
          cases h
          refine ⟨(hperm.cons a).trans (List.Perm.swap _ _ _), fun b hb => ?_⟩
          rcases List.mem_cons.mp hb with rfl | hb
          · exact le_of_lt (not_le.mp hgt)
          · exact hleast b hb

end Kit
