import Mathlib.Data.List.Sort
import Mathlib.Data.List.DropRight
import Mathlib.Data.Prod.Lex
import BrandSniper.Kit.OrderedDict

/-!
# Sorted sets

A sorted set holds each member once, with a score, and ranks its entries by
(score, member). There are two representations. `SortedSet` holds the
entries in rank order. A *table* is a dictionary from member to score that
leaves the ranking to each read; `ranking` is the abstraction from a table
to the set it stands for, and every operation on a table is the operation on
its ranking (`ranking_zadd`, `ranking_zremrangebyrank`).

Adding an entry that ranks last appends it (`zadd_last`). This is what makes
a set that is trimmed after every addition a window on what was added last.
-/

namespace Kit

/-! ## Rank bounds -/

/-- Inclusive rank bounds, negative ones counted from the end, as the ranks
from `.1` on and below `.2`. -/
def rankSlice (length : Nat) (start stop : Int) : Nat × Nat :=
  let start := if start < 0 then max (length + start) 0 else start
  let stop := min (if stop < 0 then length + stop else stop) (length - 1)
  if start ≤ stop then (start.toNat, (stop + 1).toNat) else (0, 0)

/-- All ranks: the bounds `0` and `-1`. -/
theorem rankSlice_all (length : Nat) : rankSlice length 0 (-1) = (0, length) := by
  have hstop : min ((length : Int) + -1) (length - 1) = length - 1 := by omega
  simp only [rankSlice, Int.reduceNeg, Int.reduceLT, if_false, if_true, lt_self_iff_false, hstop]
  split
  · simp
  · rename_i h
    simp; omega

/-- The first `k` ranks, for `k` at least one. -/
theorem rankSlice_first {length k : Nat} (hk : 0 < k) (h : k ≤ length) :
    rankSlice length 0 (k - 1) = (0, k) := by
  have hneg : ¬ ((k : Int) - 1 < 0) := by omega
  have hstop : min ((k : Int) - 1) (length - 1) = k - 1 := by omega
  have hle : (0 : Int) ≤ k - 1 := by omega
  simp only [rankSlice, lt_self_iff_false, if_false, if_neg hneg, hstop, if_pos hle]
  simp

/-! ## Sets in rank order -/

variable {σ μ : Type}

/-- An entry: score first, so that entries rank as the order on pairs says. -/
abbrev Entry (σ μ : Type) := σ ×ₗ μ

def Entry.member (e : Entry σ μ) : μ := (ofLex e).2

@[simp] theorem Entry.member_toLex (s : σ) (m : μ) : Entry.member (toLex (s, m)) = m := rfl

/-- A dictionary from member to score. -/
abbrev Table (σ μ : Type) := OrderedDict μ σ

/-- The entries of a table, in insertion order. -/
def Table.rows (t : Table σ μ) : List (Entry σ μ) :=
  t.items.map fun row => toLex (row.2, row.1)

theorem Table.rows_members (t : Table σ μ) : t.rows.map Entry.member = t.keys := by
  simp [Table.rows, OrderedDict.keys, Function.comp_def]

variable [LinearOrder σ] [LinearOrder μ]

/-- Entries in rank order, each member once. -/
structure SortedSet (σ μ : Type) [LinearOrder σ] [LinearOrder μ] where
  entries : List (Entry σ μ)
  ranked : entries.Pairwise (· < ·)
  nodupMembers : (entries.map Entry.member).Nodup

namespace SortedSet

@[ext] theorem ext {s t : SortedSet σ μ} (h : s.entries = t.entries) : s = t := by
  cases s; cases t; cases h; rfl

/-- A set is determined by which entries it holds. -/
theorem eq_of_perm {s t : SortedSet σ μ} (h : s.entries.Perm t.entries) : s = t := by
  apply ext
  exact h.eq_of_pairwise' (s.ranked.imp le_of_lt) (t.ranked.imp le_of_lt)

/-- Entries sorted into rank order. -/
def ofEntries (l : List (Entry σ μ)) (h : (l.map Entry.member).Nodup) : SortedSet σ μ where
  entries := l.insertionSort (· ≤ ·)
  ranked := by
    have hnodup : (l.insertionSort (· ≤ ·)).Nodup :=
      (List.perm_insertionSort _ l).nodup_iff.mpr (List.Nodup.of_map _ h)
    exact (List.pairwise_insertionSort (· ≤ ·) l).imp₂ (fun _ _ hle hne => lt_of_le_of_ne hle hne)
      hnodup
  nodupMembers := ((List.perm_insertionSort _ l).map _).nodup_iff.mpr h

def empty : SortedSet σ μ := ⟨[], List.Pairwise.nil, by simp⟩

/-- Add the member, or move it to its new score. -/
def zadd (s : SortedSet σ μ) (member : μ) (score : σ) : SortedSet σ μ :=
  ofEntries (toLex (score, member) :: s.entries.filter fun e => e.member ≠ member) (by
    rw [List.map_cons, List.nodup_cons]
    refine ⟨fun hmem => ?_, s.nodupMembers.sublist (List.filter_sublist.map _)⟩
    obtain ⟨e, he, hm⟩ := List.mem_map.mp hmem
    simp [List.mem_filter] at he
    exact he.2 hm)

def zcard (s : SortedSet σ μ) : Nat := s.entries.length

/-- The members whose ranks lie within the bounds. -/
def zrange (s : SortedSet σ μ) (start stop : Int) : List μ :=
  let (lo, hi) := rankSlice s.zcard start stop
  ((s.entries.take hi).drop lo).map Entry.member

/-- Without the entries whose ranks lie within the bounds. -/
def zremrangebyrank (s : SortedSet σ μ) (start stop : Int) : SortedSet σ μ :=
  let (lo, hi) := rankSlice s.zcard start stop
  have hsub : (s.entries.take lo ++ s.entries.drop (max lo hi)).Sublist s.entries := by
    conv_rhs => rw [← List.take_append_drop lo s.entries]
    exact (List.Sublist.refl _).append (List.drop_sublist_drop_left _ (le_max_left lo hi))
  ⟨s.entries.take lo ++ s.entries.drop (max lo hi), s.ranked.sublist hsub,
    s.nodupMembers.sublist (hsub.map _)⟩

theorem mem_of_mem_zremrangebyrank {s : SortedSet σ μ} {start stop : Int} {e : Entry σ μ}
    (h : e ∈ (s.zremrangebyrank start stop).entries) : e ∈ s.entries := by
  rcases List.mem_append.mp h with hfirst | hlast
  · exact List.mem_of_mem_take hfirst
  · exact List.mem_of_mem_drop hlast

@[simp] theorem zcard_empty : (empty : SortedSet σ μ).zcard = 0 := rfl

theorem zrange_all (s : SortedSet σ μ) : s.zrange 0 (-1) = s.entries.map Entry.member := by
  simp [zrange, rankSlice_all, zcard]

/-- An entry that ranks after all others is appended. -/
theorem zadd_last {s : SortedSet σ μ} {member : μ} {score : σ}
    (hnew : member ∉ s.entries.map Entry.member)
    (hlast : ∀ e ∈ s.entries, e < toLex (score, member)) :
    (s.zadd member score).entries = s.entries ++ [toLex (score, member)] := by
  have hfilter : s.entries.filter (fun e => e.member ≠ member) = s.entries := by
    refine List.filter_eq_self.mpr (fun e he => ?_)
    have hne : e.member ≠ member := fun hm => hnew (List.mem_map.mpr ⟨e, he, hm⟩)
    simpa using hne
  have hsorted : (s.entries ++ [toLex (score, member)]).Pairwise (· ≤ ·) := by
    rw [List.pairwise_append]
    refine ⟨s.ranked.imp le_of_lt, by simp, fun e he x hx => ?_⟩
    rw [List.mem_singleton] at hx
    exact hx ▸ le_of_lt (hlast e he)
  refine List.Perm.eq_of_pairwise' ((s.zadd member score).ranked.imp le_of_lt) hsorted ?_
  refine (List.perm_insertionSort _ _).trans ?_
  rw [hfilter]
  exact (List.perm_append_singleton _ _).symm

theorem mem_zadd {s : SortedSet σ μ} {member : μ} {score : σ} {e : Entry σ μ} :
    e ∈ (s.zadd member score).entries
      ↔ e = toLex (score, member) ∨ (e ∈ s.entries ∧ e.member ≠ member) := by
  have hperm : (s.zadd member score).entries.Perm
      (toLex (score, member) :: s.entries.filter fun e => e.member ≠ member) :=
    List.perm_insertionSort _ _
  rw [hperm.mem_iff]
  simp

/-- The greatest entry comes last. -/
theorem getLast?_of_max {s : SortedSet σ μ} {e : Entry σ μ} (he : e ∈ s.entries)
    (hmax : ∀ x ∈ s.entries, x ≤ e) : s.entries.getLast? = some e := by
  cases hlast : s.entries.getLast? with
  | none =>
      rw [List.getLast?_eq_none_iff] at hlast
      rw [hlast] at he
      cases he
  | some x =>
      obtain ⟨init, hinit⟩ := List.getLast?_eq_some_iff.mp hlast
      have hranked := s.ranked
      rw [hinit] at he hranked
      rcases List.mem_append.mp he with hmem | hmem
      · have hlt : e < x := (List.pairwise_append.mp hranked).2.2 e hmem x (by simp)
        exact absurd (hmax x (by rw [hinit]; simp)) (not_le_of_gt hlt)
      · rw [List.mem_singleton.mp hmem]

/-- An entry that is already there changes nothing. -/
theorem zadd_of_mem {s : SortedSet σ μ} {member : μ} {score : σ}
    (h : toLex (score, member) ∈ s.entries) : s.zadd member score = s := by
  apply eq_of_perm
  refine (List.perm_insertionSort _ _).trans ?_
  have hfilter : s.entries.filter (fun e => e.member ≠ member)
      = s.entries.erase (toLex (score, member)) := by
    rw [(List.Nodup.of_map _ s.nodupMembers).erase_eq_filter]
    refine List.filter_congr (fun e he => ?_)
    have hiff : e.member = member ↔ e = toLex (score, member) := by
      constructor
      · exact fun hm => List.inj_on_of_nodup_map s.nodupMembers he h (by simpa using hm)
      · rintro rfl; rfl
    by_cases heq : e = toLex (score, member)
    · simp [heq]
    · simp [hiff, heq]
  rw [hfilter]
  exact (List.perm_cons_erase h).symm

/-- Removing the ranks in excess of `n` keeps the last `n` entries. -/
theorem zremrangebyrank_excess {s : SortedSet σ μ} {n : Nat} (h : n < s.zcard) :
    (s.zremrangebyrank 0 (s.zcard - n - 1)).entries = s.entries.rtake n := by
  have hslice : rankSlice s.zcard 0 ((s.zcard : Int) - n - 1) = (0, s.zcard - n) := by
    have hcast : (s.zcard : Int) - n - 1 = ((s.zcard - n : Nat) : Int) - 1 := by omega
    rw [hcast, rankSlice_first (by omega) (by omega)]
  simp only [zremrangebyrank, hslice, List.take_zero, List.nil_append, Nat.zero_max]
  rfl

end SortedSet

/-! ## Tables -/

namespace Table

/-- The sorted set a table stands for. -/
def ranking (t : Table σ μ) : SortedSet σ μ :=
  SortedSet.ofEntries t.rows (by rw [rows_members]; exact t.nodupKeys)

def zadd (t : Table σ μ) (member : μ) (score : σ) : Table σ μ := t.set member score

def zcard (t : Table σ μ) : Nat := t.len

def zrange (t : Table σ μ) (start stop : Int) : List μ :=
  let (lo, hi) := rankSlice t.zcard start stop
  ((t.ranking.entries.take hi).drop lo).map Entry.member

/-- Delete the members whose ranks lie within the bounds. -/
def zremrangebyrank (t : Table σ μ) (start stop : Int) : Table σ μ :=
  let removed := t.zrange start stop
  ⟨t.items.filter fun row => row.1 ∉ removed,
    t.nodupKeys.sublist (List.filter_sublist.map Prod.fst)⟩

theorem ranking_perm (t : Table σ μ) : t.ranking.entries.Perm t.rows :=
  List.perm_insertionSort _ _

theorem ranking_zadd (t : Table σ μ) (member : μ) (score : σ) :
    (t.zadd member score).ranking = t.ranking.zadd member score := by
  apply SortedSet.eq_of_perm
  refine (ranking_perm _).trans ?_
  refine List.Perm.trans ?_ (List.perm_insertionSort _ _).symm
  refine ((OrderedDict.setItem_perm t.nodupKeys member score).map _).trans ?_
  rw [List.map_cons]
  refine List.Perm.cons _ (List.Perm.trans ?_ ((ranking_perm t).filter _).symm)
  rw [rows, List.filter_map]
  exact List.Perm.refl _

theorem zcard_ranking (t : Table σ μ) : t.ranking.zcard = t.zcard := by
  rw [SortedSet.zcard, (ranking_perm t).length_eq, rows, List.length_map]
  rfl

theorem zrange_ranking (t : Table σ μ) (start stop : Int) :
    t.ranking.zrange start stop = t.zrange start stop := by
  simp [zrange, SortedSet.zrange, zcard_ranking]

/-- Deleting by key the elements between two positions leaves the rest in place. -/
theorem filter_not_mem_slice {α β : Type} [DecidableEq β] {l : List α} {f : α → β}
    (h : (l.map f).Nodup) (lo hi : Nat) :
    (l.filter fun x => f x ∉ ((l.take hi).drop lo).map f)
      = l.take lo ++ l.drop (max lo hi) := by
  rcases Nat.lt_or_ge hi lo with hlt | hle
  · have hempty : (l.take hi).drop lo = [] := by
      rw [List.drop_eq_nil_iff, List.length_take]
      omega
    simp [hempty, Nat.max_eq_left (Nat.le_of_lt hlt)]
  · rw [Nat.max_eq_right hle]
    have hsplit : l = l.take lo ++ ((l.take hi).drop lo ++ l.drop hi) := by
      calc l = l.take hi ++ l.drop hi := (List.take_append_drop hi l).symm
        _ = ((l.take hi).take lo ++ (l.take hi).drop lo) ++ l.drop hi :=
            congrArg (· ++ l.drop hi) (List.take_append_drop lo (l.take hi)).symm
        _ = _ := by rw [List.take_take, Nat.min_eq_left hle, List.append_assoc]
    generalize hb : (l.take hi).drop lo = b at hsplit ⊢
    generalize l.take lo = a at hsplit ⊢
    generalize l.drop hi = c at hsplit ⊢
    subst hsplit
    simp only [List.map_append, List.nodup_append, List.mem_append, List.mem_map] at h
    have ha : ∀ x ∈ a, f x ∉ b.map f := fun x hx hm => by
      obtain ⟨y, hy, hxy⟩ := List.mem_map.mp hm
      exact h.2.2 (f x) ⟨x, hx, rfl⟩ (f x) (.inl ⟨y, hy, hxy⟩) rfl
    have hc : ∀ x ∈ c, f x ∉ b.map f := fun x hx hm => by
      obtain ⟨y, hy, hxy⟩ := List.mem_map.mp hm
      exact h.2.1.2.2 (f x) ⟨y, hy, hxy⟩ (f x) ⟨x, hx, rfl⟩ rfl
    rw [List.filter_append, List.filter_append,
      List.filter_eq_self.mpr (fun x hx => by simpa using ha x hx),
      List.filter_eq_nil_iff.mpr (fun x hx => by simpa using ⟨x, hx, rfl⟩),
      List.filter_eq_self.mpr (fun x hx => by simpa using hc x hx), List.nil_append]

theorem ranking_zremrangebyrank (t : Table σ μ) (start stop : Int) :
    (t.zremrangebyrank start stop).ranking = t.ranking.zremrangebyrank start stop := by
  apply SortedSet.eq_of_perm
  have hright : (t.ranking.zremrangebyrank start stop).entries
      = t.ranking.entries.filter fun e => e.member ∉ t.zrange start stop := by
    simp only [SortedSet.zremrangebyrank, zrange, zcard_ranking]
    exact (filter_not_mem_slice t.ranking.nodupMembers _ _).symm
  rw [hright]
  refine (ranking_perm _).trans (List.Perm.trans ?_ ((ranking_perm t).filter _).symm)
  simp only [rows, zremrangebyrank, List.filter_map]
  exact List.Perm.refl _

end Table

end Kit
