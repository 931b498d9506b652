import Mathlib.Data.Set.List
import BrandSniper.Listener.Detection

/-!
# What a price window holds

A push adds the member `timestamp:price` and drops the entries of the lowest
ranks over the window size. `WindowHolds` is the invariant under which a
window is the last N prices: its entries are those of ticks with these
prices, and its highest one is the newest tick's.

A push keeps the invariant when its entry ranks last (`windowHolds_append`).
Members of one second rank by the *text* of their price, and equal members
are one entry, so within a second this can fail: `Follows` is the exact
condition (`lastPrices_iff_follows`).
-/

namespace BrandSniper

open Kit

/-! ## One push -/

/-- A window after a push of the tick. -/
def pushWindow (n : Nat) (w : SortedSet Int String) (tick : PricedTick) : SortedSet Int String :=
  let w := w.zadd (windowMember tick) tick.timestamp
  if w.zcard > n then w.zremrangebyrank 0 (w.zcard - n - 1) else w

theorem pushWindow_entries (n : Nat) (w : SortedSet Int String) (tick : PricedTick) :
    (pushWindow n w tick).entries
      = (w.zadd (windowMember tick) tick.timestamp).entries.rtake n := by
  unfold pushWindow
  by_cases h : (w.zadd (windowMember tick) tick.timestamp).zcard > n
  · simp only [if_pos h]
    exact SortedSet.zremrangebyrank_excess h
  · simp only [if_neg h]
    rw [List.rtake, Nat.sub_eq_zero_of_le (by simpa [SortedSet.zcard] using h), List.drop_zero]

section

variable {C : Type} [EdgeCache C]

theorem pushToWindow_ok (S : DetectionSettings) (tick : PricedTick) (cache : C) :
    (pushToWindow S .none tick cache).2 = .ok () := by
  simp only [pushToWindow, Faults.none, Bool.false_eq_true, if_false]
  split <;> rfl

variable [LawfulEdgeCache C]

open LawfulEdgeCache in
/-- Without faults a push is `pushWindow` on the tick's window and leaves the others alone. -/
theorem window_pushToWindow (S : DetectionSettings) (tick : PricedTick) (cache : C)
    (key : String) :
    window (pushToWindow S .none tick cache).1 key
      = if tick.windowKey = key then pushWindow S.slidingWindowSize (window cache key) tick
        else window cache key := by
  by_cases hk : tick.windowKey = key
  · subst hk
    simp only [pushToWindow, Faults.none, Bool.false_eq_true, if_false, pushWindow, zcard_eq,
      window_zadd, if_true]
    split
    · simp only [window_zremrangebyrank, window_zadd, if_true]
    · simp only [window_zadd, if_true]
  · simp only [pushToWindow, Faults.none, Bool.false_eq_true, if_false, if_neg hk]
    split <;> simp only [window_zremrangebyrank, window_zadd, if_neg hk]

/-- Whatever raises, a push leaves the hashes alone. -/
theorem hashes_pushToWindow (S : DetectionSettings) (faults : Faults) (tick : PricedTick)
    (cache : C) : SameHashes (pushToWindow S faults tick cache).1 cache := by
  have hadd := LawfulEdgeCache.hashes_zadd cache tick.windowKey (windowMember tick) tick.timestamp
  unfold pushToWindow
  split
  · exact SameHashes.refl cache
  · simp only
    split
    · exact hadd
    · split
      · split
        · exact hadd
        · exact (LawfulEdgeCache.hashes_zremrangebyrank _ _ _ _).trans hadd
      · exact hadd

end

/-! ## Entries and their prices -/

/-- The entry a tick pushes. -/
def windowEntry (tick : PricedTick) : Entry Int String :=
  toLex (tick.timestamp, windowMember tick)

theorem windowMember_toList (tick : PricedTick) :
    (windowMember tick).toList
      = (toString tick.timestamp).toList ++ ':' :: (toString tick.priceCents).toList := by
  rw [windowMember, String.toList_append, String.toList_append, List.append_assoc]
  rfl

theorem intOfText?_natText (n : Nat) : intOfText? (toString n).toList = some (n : Int) := by
  have hminus : '-' ∉ (toString n).toList := Text.not_mem_natText (by decide) n
  unfold intOfText?
  split
  · rename_i digits h
    rw [h] at hminus
    simp at hminus
  · rw [Text.natOfText?_natText]
    rfl

/-- `int(member.split(":")[1])` reads back the price that was pushed. -/
theorem memberPrice_windowMember (tick : PricedTick) :
    memberPrice (windowMember tick) = .ok (tick.priceCents : Int) := by
  have htime : ':' ∉ (toString tick.timestamp).toList := Text.not_mem_intText (by decide) _
  have hprice : ':' ∉ (toString tick.priceCents).toList := Text.not_mem_natText (by decide) _
  simp only [memberPrice, windowMember_toList, List.splitOn_append_cons_self_of_not_mem htime,
    List.splitOn_eq_singleton hprice, List.getElem?_cons_succ, List.getElem?_cons_zero,
    intOfText?_natText]

/-- A member names its second and its price. -/
theorem windowMember_inj {s t : PricedTick} (h : windowMember s = windowMember t) :
    s.timestamp = t.timestamp ∧ s.priceCents = t.priceCents := by
  have hlist := congrArg String.toList h
  rw [windowMember_toList, windowMember_toList] at hlist
  obtain ⟨htime, hprice⟩ := Text.sep_left_inj (Text.not_mem_intText (by decide) _)
    (Text.not_mem_intText (by decide) _) hlist
  exact ⟨Text.intText_inj htime, Text.natText_inj hprice⟩

theorem windowEntry_eq_iff {s t : PricedTick} :
    windowEntry s = windowEntry t ↔ s.timestamp = t.timestamp ∧ s.priceCents = t.priceCents := by
  constructor
  · intro h
    exact windowMember_inj (Prod.mk.inj (toLex_inj.mp h)).2
  · rintro ⟨htime, hprice⟩
    simp [windowEntry, windowMember, htime, hprice]

/-- Entries rank by second, and within a second by the text of the price. -/
theorem windowEntry_lt_iff {s t : PricedTick} :
    windowEntry s < windowEntry t ↔ s.timestamp < t.timestamp ∨
      (s.timestamp = t.timestamp ∧ toString s.priceCents < toString t.priceCents) := by
  have hmember : s.timestamp = t.timestamp →
      (windowMember s < windowMember t ↔ toString s.priceCents < toString t.priceCents) := by
    intro htime
    rw [String.lt_iff_toList_lt, String.lt_iff_toList_lt, windowMember_toList,
      windowMember_toList, htime, Text.append_cons_lt_iff]
  rw [windowEntry, windowEntry, Prod.Lex.toLex_lt_toLex]
  constructor
  · rintro (h | ⟨h, hlt⟩)
    · exact .inl h
    · exact .inr ⟨h, (hmember h).mp hlt⟩
  · rintro (h | ⟨h, hlt⟩)
    · exact .inl h
    · exact .inr ⟨h, (hmember h).mpr hlt⟩

/-! ## The invariant -/

/-- The entries are those of ticks with the last `n` prices pushed, and the highest one
is the newest tick's. -/
structure WindowHolds (n : Nat) (before : List PricedTick) (w : SortedSet Int String) : Prop where
  entries : ∃ us : List PricedTick, w.entries = us.map windowEntry ∧
    us.map PricedTick.priceCents = (before.map PricedTick.priceCents).rtake n
  newest : w.entries.getLast? = before.getLast?.map windowEntry

/-- The prices an entry list reads as. -/
def readPrices (w : SortedSet Int String) : Except PyError (List Int) :=
  (w.entries.map Entry.member).mapM memberPrice

theorem readPrices_of_entries {w : SortedSet Int String} {us : List PricedTick}
    (h : w.entries = us.map windowEntry) :
    readPrices w = .ok (us.map fun t => (t.priceCents : Int)) := by
  unfold readPrices
  rw [h]
  clear h
  induction us with
  | nil => rfl
  | cons t rest ih =>
      simp only [List.map_cons, List.mapM_cons, ih]
      rw [show (windowEntry t).member = windowMember t from rfl, memberPrice_windowMember]
      rfl

theorem windowPrices_eq {C : Type} [EdgeCache C] [LawfulEdgeCache C] (cache : C) (key : String) :
    windowPrices cache key = readPrices (LawfulEdgeCache.window cache key) := by
  rw [windowPrices, LawfulEdgeCache.zrange_eq, SortedSet.zrange_all, readPrices]

/-- Keeping the last `n` before a further element loses nothing of the last `n` after it. -/
theorem rtake_rtake_concat {α : Type} (l : List α) (x : α) (n : Nat) :
    (l.rtake n ++ [x]).rtake n = (l ++ [x]).rtake n := by
  cases n with
  | zero => simp
  | succ n =>
      rw [List.rtake_concat_succ, List.rtake_concat_succ]
      congr 1
      simp [List.rtake_eq_reverse_take_reverse, List.take_take]

/-- The ranks of a window that holds `before` end with the newest tick's. -/
theorem WindowHolds.le_newest {n : Nat} {before : List PricedTick} {w : SortedSet Int String}
    (h : WindowHolds n before w) {s : PricedTick} (hs : before.getLast? = some s)
    {e : Entry Int String} (he : e ∈ w.entries) : e ≤ windowEntry s := by
  have hlast : w.entries.getLast? = some (windowEntry s) := by rw [h.newest, hs]; rfl
  obtain ⟨init, hinit⟩ := List.getLast?_eq_some_iff.mp hlast
  have hranked := w.ranked
  rw [hinit] at he hranked
  rcases List.mem_append.mp he with hmem | hmem
  · exact le_of_lt ((List.pairwise_append.mp hranked).2.2 e hmem _ (by simp))
  · exact le_of_eq (List.mem_singleton.mp hmem)

/-- A push whose entry ranks after the newest tick's keeps the invariant. -/
theorem windowHolds_append {n : Nat} (hn : 0 < n) {before : List PricedTick}
    {w : SortedSet Int String} (h : WindowHolds n before w) {t : PricedTick}
    (hlt : ∀ s, before.getLast? = some s → windowEntry s < windowEntry t) :
    WindowHolds n (before ++ [t]) (pushWindow n w t) := by
  have hbelow : ∀ e ∈ w.entries, e < windowEntry t := by
    intro e he
    cases hs : before.getLast? with
    | none =>
        have hnil : w.entries = [] := by
          rw [← List.getLast?_eq_none_iff, h.newest, hs]; rfl
        rw [hnil] at he
        cases he
    | some s => exact lt_of_le_of_lt (h.le_newest hs he) (hlt s hs)
  obtain ⟨us, hus, hprices⟩ := h.entries
  have hnew : windowMember t ∉ w.entries.map Entry.member := by
    intro hmem
    obtain ⟨e, he, hm⟩ := List.mem_map.mp hmem
    obtain ⟨u, -, rfl⟩ := List.mem_map.mp (hus ▸ he)
    have heq : windowEntry u = windowEntry t := windowEntry_eq_iff.mpr (windowMember_inj hm)
    exact absurd (hbelow _ he) (heq ▸ lt_irrefl _)
  have hentries : (pushWindow n w t).entries = ((us ++ [t]).map windowEntry).rtake n := by
    rw [pushWindow_entries, SortedSet.zadd_last hnew hbelow, hus, List.map_append]
    rfl
  refine ⟨⟨(us ++ [t]).rtake n, ?_, ?_⟩, ?_⟩
  · rw [hentries]
    simp [List.rtake]
  · calc ((us ++ [t]).rtake n).map PricedTick.priceCents
        = (us.map PricedTick.priceCents ++ [t.priceCents]).rtake n := by simp [List.rtake]
      _ = ((before ++ [t]).map PricedTick.priceCents).rtake n := by
          rw [hprices, rtake_rtake_concat]; simp
  · obtain ⟨k, rfl⟩ : ∃ k, n = k + 1 := ⟨n - 1, by omega⟩
    rw [hentries, List.map_append, List.map_singleton, List.rtake_concat_succ]
    simp

/-- A push of the newest tick's entry changes nothing. -/
theorem pushWindow_same {n : Nat} {before : List PricedTick} {w : SortedSet Int String}
    (h : WindowHolds n before w) {s t : PricedTick} (hs : before.getLast? = some s)
    (heq : windowEntry s = windowEntry t) : (pushWindow n w t).entries = w.entries := by
  have hmem : toLex (t.timestamp, windowMember t) ∈ w.entries := by
    rw [show toLex (t.timestamp, windowMember t) = windowEntry s from heq.symm]
    exact List.mem_of_getLast? (by rw [h.newest, hs]; rfl)
  obtain ⟨us, hus, hprices⟩ := h.entries
  have hlen : w.entries.length ≤ n := by
    have := congrArg List.length hprices
    simp only [List.length_map, List.rtake, List.length_drop] at this
    rw [hus, List.length_map, this]
    omega
  rw [pushWindow_entries, SortedSet.zadd_of_mem hmem, List.rtake, Nat.sub_eq_zero_of_le hlen,
    List.drop_zero]

/-- A push whose entry ranks before the newest tick's leaves that one the highest. -/
theorem pushWindow_below {n : Nat} (hn : 0 < n) {before : List PricedTick}
    {w : SortedSet Int String} (h : WindowHolds n before w) {s t : PricedTick}
    (hs : before.getLast? = some s) (hlt : windowEntry t < windowEntry s) :
    (pushWindow n w t).entries.getLast? = some (windowEntry s) := by
  have hne : windowMember s ≠ windowMember t := fun hm =>
    absurd hlt (windowEntry_eq_iff.mpr (windowMember_inj hm) ▸ lt_irrefl _)
  have hmem : windowEntry s ∈ w.entries :=
    List.mem_of_getLast? (by rw [h.newest, hs]; rfl)
  have hlast : (w.zadd (windowMember t) t.timestamp).entries.getLast?
      = some (windowEntry s) := by
    refine SortedSet.getLast?_of_max (SortedSet.mem_zadd.mpr (.inr ⟨hmem, hne⟩)) ?_
    intro x hx
    rcases SortedSet.mem_zadd.mp hx with rfl | ⟨hx, -⟩
    · exact le_of_lt hlt
    · exact h.le_newest hs hx
  have hpos : 0 < (w.zadd (windowMember t) t.timestamp).entries.length :=
    List.length_pos_of_mem (List.mem_of_getLast? hlast)
  rw [pushWindow_entries, List.rtake, List.getLast?_drop, if_neg (by omega), hlast]

/-- A push that leaves another tick's entry the highest is not scored at its own price. -/
theorem currentTickPrice_of_newest {w : SortedSet Int String} {s : PricedTick}
    (hlast : w.entries.getLast? = some (windowEntry s)) {prices : List Int}
    (hread : readPrices w = .ok prices) :
    currentTickPrice prices = some (s.priceCents : Int) := by
  obtain ⟨init, hinit⟩ := List.getLast?_eq_some_iff.mp hlast
  rw [readPrices, hinit, List.map_append, List.mapM_append] at hread
  cases hfirst : (init.map Entry.member).mapM memberPrice with
  | error e => rw [hfirst] at hread; cases hread
  | ok first =>
      have hmember : (windowEntry s).member = windowMember s := rfl
      simp only [hfirst, List.map_singleton, hmember, List.mapM_cons, List.mapM_nil,
        memberPrice_windowMember, bind, Except.bind, pure, Except.pure] at hread
      cases hread
      simp [currentTickPrice]

/-! ## Readable windows -/

/-- Every entry of the window is one that some tick pushed. -/
def Readable (w : SortedSet Int String) : Prop :=
  ∃ us : List PricedTick, w.entries = us.map windowEntry

theorem readable_empty : Readable .empty := ⟨[], rfl⟩

theorem Readable.pushWindow {w : SortedSet Int String} (h : Readable w) (n : Nat)
    (t : PricedTick) : Readable (pushWindow n w t) := by
  obtain ⟨us, hus⟩ := h
  have hmem : (BrandSniper.pushWindow n w t).entries ∈ Set.range (List.map windowEntry) := by
    rw [Set.range_list_map]
    intro e he
    rw [pushWindow_entries] at he
    rcases SortedSet.mem_zadd.mp (List.mem_of_mem_drop he) with rfl | ⟨he, -⟩
    · exact ⟨t, rfl⟩
    · obtain ⟨u, -, rfl⟩ := List.mem_map.mp (hus ▸ he)
      exact ⟨u, rfl⟩
  obtain ⟨vs, hvs⟩ := hmem
  exact ⟨vs, hvs.symm⟩

theorem Readable.read {w : SortedSet Int String} (h : Readable w) :
    ∃ prices, readPrices w = .ok prices := by
  obtain ⟨us, hus⟩ := h
  exact ⟨_, readPrices_of_entries hus⟩

/-! ## The law of the window -/

/-- The window reads as the last `n` prices pushed, and its newest price as the price of
the tick just pushed. -/
def LastPrices (n : Nat) (before : List PricedTick) (read : Except PyError (List Int)) : Prop :=
  read = .ok ((before.map fun t => (t.priceCents : Int)).rtake n) ∧
    read.toOption.bind currentTickPrice = before.getLast?.map fun t => (t.priceCents : Int)

/-- When a push keeps the law: its second is later than the last push's, or it is the same
second and the price has the greater text, or both second and price are the same and the
last `n` prices all were that price. -/
def Follows (n : Nat) (before : List PricedTick) (t : PricedTick) : Prop :=
  ∀ s, before.getLast? = some s →
    s.timestamp < t.timestamp ∨
      (s.timestamp = t.timestamp ∧ toString s.priceCents < toString t.priceCents) ∨
      (s.timestamp = t.timestamp ∧ s.priceCents = t.priceCents ∧ n ≤ before.length ∧
        ∀ u ∈ before.rtake n, u.priceCents = t.priceCents)

theorem eq_of_cons_eq_concat {α : Type} {l : List α} {x y : α} (h : y :: l = l ++ [x]) :
    ∀ z ∈ y :: l, z = x := by
  induction l generalizing y with
  | nil => simpa using h
  | cons a rest ih =>
      simp only [List.cons_append, List.cons.injEq] at h
      obtain ⟨rfl, hrest⟩ := h
      intro z hz
      rcases List.mem_cons.mp hz with rfl | hz
      · exact ih hrest _ (by simp)
      · exact ih hrest z hz

/-- A further element leaves the last `n` as they are only when they all equal it. -/
theorem rtake_concat_eq_iff {α : Type} {l : List α} {x : α} {n : Nat} (hn : 0 < n) :
    (l ++ [x]).rtake n = l.rtake n ↔ n ≤ l.length ∧ ∀ y ∈ l.rtake n, y = x := by
  obtain ⟨k, rfl⟩ : ∃ k, n = k + 1 := ⟨n - 1, by omega⟩
  rw [List.rtake_concat_succ]
  by_cases hlen : k + 1 ≤ l.length
  · obtain ⟨y, hy⟩ : ∃ y, l.rtake (k + 1) = y :: l.rtake k := by
      have hlt : l.length - (k + 1) < l.length := by omega
      refine ⟨l[l.length - (k + 1)], ?_⟩
      rw [List.rtake, List.rtake, List.drop_eq_getElem_cons hlt]
      congr 2
      omega
    rw [hy]
    constructor
    · exact fun h => ⟨hlen, eq_of_cons_eq_concat h.symm⟩
    · rintro ⟨-, hall⟩
      have hrep : y :: l.rtake k = List.replicate (l.rtake k).length.succ x :=
        List.eq_replicate_iff.mpr ⟨rfl, hall⟩
      rw [hrep, List.replicate_succ']
      congr 1
      rw [List.replicate_succ, List.cons.injEq] at hrep
      exact hrep.2
  · refine ⟨fun h => ?_, fun h => absurd h.1 hlen⟩
    have := congrArg List.length h
    simp [List.rtake] at this
    omega

theorem WindowHolds.read {n : Nat} {before : List PricedTick} {w : SortedSet Int String}
    (h : WindowHolds n before w) :
    readPrices w = .ok ((before.map fun t => (t.priceCents : Int)).rtake n) := by
  obtain ⟨us, hus, hprices⟩ := h.entries
  have hcast := congrArg (List.map (fun p : Nat => (p : Int))) hprices
  have hread : (us.map fun t => (t.priceCents : Int))
      = (before.map fun t => (t.priceCents : Int)).rtake n := by
    simpa [List.rtake, List.map_drop, Function.comp_def] using hcast
  rw [readPrices_of_entries hus, hread]

theorem WindowHolds.lastPrices {n : Nat} {before : List PricedTick} {w : SortedSet Int String}
    (h : WindowHolds n before w) : LastPrices n before (readPrices w) := by
  refine ⟨h.read, ?_⟩
  rw [h.read]
  cases hs : before.getLast? with
  | none =>
      rw [List.getLast?_eq_none_iff.mp hs]
      simp [Except.toOption, currentTickPrice]
  | some s =>
      have hlast : w.entries.getLast? = some (windowEntry s) := by rw [h.newest, hs]; rfl
      exact currentTickPrice_of_newest hlast h.read

/-- A tick that follows keeps the invariant. -/
theorem windowHolds_push {n : Nat} (hn : 0 < n) {before : List PricedTick}
    {w : SortedSet Int String} (h : WindowHolds n before w) {t : PricedTick}
    (hfollows : Follows n before t) : WindowHolds n (before ++ [t]) (pushWindow n w t) := by
  by_cases hlt : ∀ s, before.getLast? = some s → windowEntry s < windowEntry t
  · exact windowHolds_append hn h hlt
  · -- the member of the last push again: nothing changes, and nothing need change
    simp only [not_forall] at hlt
    obtain ⟨s, hs, hnlt⟩ := hlt
    rw [windowEntry_lt_iff, not_or] at hnlt
    rcases hfollows s hs with htime | htext | ⟨htime, hprice, hlen, hall⟩
    · exact absurd htime hnlt.1
    · exact absurd htext hnlt.2
    · have hsame : windowEntry s = windowEntry t := windowEntry_eq_iff.mpr ⟨htime, hprice⟩
      have hkeep := pushWindow_same h hs hsame
      obtain ⟨us, hus, hprices⟩ := h.entries
      refine ⟨⟨us, hkeep.trans hus, ?_⟩, ?_⟩
      · rw [hprices, List.map_append, List.map_singleton, eq_comm, rtake_concat_eq_iff hn,
          List.length_map]
        refine ⟨hlen, fun y hy => ?_⟩
        rw [List.rtake, List.length_map, ← List.map_drop] at hy
        obtain ⟨u, hu, rfl⟩ := List.mem_map.mp hy
        exact hall u hu
      · rw [hkeep, h.newest, hs]
        simp [hsame]

/-- A tick that does not follow breaks the law. -/
theorem follows_of_lastPrices {n : Nat} (hn : 0 < n) {before : List PricedTick}
    {w : SortedSet Int String} (h : WindowHolds n before w) {t : PricedTick}
    (htime : ∀ s, before.getLast? = some s → s.timestamp ≤ t.timestamp)
    (hlaw : LastPrices n (before ++ [t]) (readPrices (pushWindow n w t))) :
    Follows n before t := by
  intro s hs
  rcases lt_trichotomy (windowEntry s) (windowEntry t) with hlt | heq | hgt
  · rw [windowEntry_lt_iff] at hlt
    exact hlt.imp_right .inl
  · obtain ⟨hsecond, hprice⟩ := windowEntry_eq_iff.mp heq
    have hread : readPrices (pushWindow n w t) = readPrices w := by
      rw [readPrices, readPrices, pushWindow_same h hs heq]
    have hlists := Except.ok.inj (h.read.symm.trans (hread.symm.trans hlaw.1))
    rw [List.map_append, List.map_singleton, eq_comm, rtake_concat_eq_iff hn,
      List.length_map] at hlists
    refine .inr (.inr ⟨hsecond, hprice, hlists.1, fun u hu => ?_⟩)
    have hmem : (u.priceCents : Int) ∈ (before.map fun t => (t.priceCents : Int)).rtake n := by
      rw [List.rtake, List.length_map, ← List.map_drop]
      exact List.mem_map.mpr ⟨u, hu, rfl⟩
    exact_mod_cast hlists.2 _ hmem
  · -- the tick ranks below the last one, whose price is then read as the newest
    have hcurrent := currentTickPrice_of_newest (pushWindow_below hn h hs hgt) hlaw.1
    have hown := hlaw.2
    rw [hlaw.1] at hown
    have hprice : s.priceCents = t.priceCents := by
      have := hcurrent.symm.trans hown
      simpa using this
    rw [windowEntry_lt_iff] at hgt
    rcases hgt with hlt | ⟨-, htext⟩
    · exact absurd (htime s hs) (not_le_of_gt hlt)
    · exact absurd htext (hprice ▸ lt_irrefl _)

/-! ## Runs of pushes -/

/-- A window after a run of pushes. -/
def windowAfter (n : Nat) (pushes : List PricedTick) : SortedSet Int String :=
  pushes.foldl (pushWindow n) .empty

theorem windowAfter_concat (n : Nat) (pushes : List PricedTick) (t : PricedTick) :
    windowAfter n (pushes ++ [t]) = pushWindow n (windowAfter n pushes) t := by
  simp [windowAfter]

/-- Every tick of the run follows the ones before it. -/
def AllFollow (n : Nat) (pushes : List PricedTick) : Prop :=
  ∀ before t, before ++ [t] <+: pushes → Follows n before t

theorem windowHolds_windowAfter {n : Nat} (hn : 0 < n) {pushes : List PricedTick}
    (h : AllFollow n pushes) : WindowHolds n pushes (windowAfter n pushes) := by
  induction pushes using List.reverseRecOn with
  | nil => exact ⟨⟨[], rfl, by simp⟩, rfl⟩
  | append_singleton before t ih =>
      have hbefore : AllFollow n before := fun b u hb => h b u (hb.trans (List.prefix_append _ _))
      rw [windowAfter_concat]
      exact windowHolds_push hn (ih hbefore) (h before t (List.prefix_refl _))

theorem allFollow_of_lastPrices {n : Nat} (hn : 0 < n) {pushes : List PricedTick}
    (htimes : pushes.Pairwise fun s t => s.timestamp ≤ t.timestamp)
    (hlaw : ∀ p, p <+: pushes → LastPrices n p (readPrices (windowAfter n p))) :
    AllFollow n pushes := by
  induction pushes using List.reverseRecOn with
  | nil =>
      intro before t hprefix
      simp at hprefix
  | append_singleton before t ih =>
      have hbefore : AllFollow n before := by
        refine ih (List.pairwise_append.mp htimes).1 (fun p hp => ?_)
        exact hlaw p (hp.trans (List.prefix_append _ _))
      intro b u hprefix
      rcases List.prefix_concat_iff.mp hprefix with heq | hb
      · obtain ⟨rfl, hlast⟩ := List.append_inj' heq rfl
        cases hlast
        refine follows_of_lastPrices hn (windowHolds_windowAfter hn hbefore) (fun s hs => ?_) ?_
        · exact (List.pairwise_append.mp htimes).2.2 s (List.mem_of_getLast? hs) t (by simp)
        · rw [← windowAfter_concat]
          exact hlaw _ (List.prefix_refl _)
      · exact hbefore b u hb

/-- Of a run of pushes with nondecreasing seconds, every prefix obeys the law exactly when
every tick follows. -/
theorem lastPrices_iff_allFollow {n : Nat} {pushes : List PricedTick}
    (htimes : pushes.Pairwise fun s t => s.timestamp ≤ t.timestamp) :
    (∀ p, p <+: pushes → LastPrices n p (readPrices (windowAfter n p)))
      ↔ (pushes ≠ [] → 0 < n) ∧ AllFollow n pushes := by
  constructor
  · intro hlaw
    have hn : pushes ≠ [] → 0 < n := by
      intro hne
      by_contra hzero
      obtain rfl : n = 0 := by omega
      have hread := (hlaw pushes (List.prefix_refl _)).1
      have hown := (hlaw pushes (List.prefix_refl _)).2
      obtain ⟨t, ht⟩ := Option.isSome_iff_exists.mp (List.getLast?_isSome.mpr hne)
      rw [hread, ht, List.rtake_zero] at hown
      simp [Except.toOption, currentTickPrice] at hown
    refine ⟨hn, ?_⟩
    by_cases hne : pushes = []
    · subst hne
      intro before t hprefix
      simp at hprefix
    · exact allFollow_of_lastPrices (hn hne) htimes hlaw
  · rintro ⟨hn, hfollow⟩ p hp
    by_cases hne : p = []
    · subst hne
      exact ⟨by simp; rfl, rfl⟩
    · have hpos : 0 < n := hn (fun h => hne (List.prefix_nil.mp (h ▸ hp)))
      have hp' : AllFollow n p := fun before t hb => hfollow before t (hb.trans hp)
      exact (windowHolds_windowAfter hpos hp').lastPrices

/-! ## The pushes of a cache -/

section

variable {C : Type} [EdgeCache C]

/-- A run of `push_to_window` calls. -/
def pushAll (S : DetectionSettings) (cache : C) (pushes : List PricedTick) : C :=
  pushes.foldl (fun cache tick => (pushToWindow S .none tick cache).1) cache

variable [LawfulEdgeCache C]

theorem window_pushAll (S : DetectionSettings) {pushes : List PricedTick} {key : String}
    (hitem : ∀ t ∈ pushes, t.windowKey = key) (cache : C) :
    LawfulEdgeCache.window (pushAll S cache pushes) key
      = pushes.foldl (pushWindow S.slidingWindowSize) (LawfulEdgeCache.window cache key) := by
  induction pushes generalizing cache with
  | nil => rfl
  | cons t rest ih =>
      have hrest := ih (fun u hu => hitem u (List.mem_cons_of_mem _ hu))
        (pushToWindow S .none t cache).1
      rw [window_pushToWindow, if_pos (hitem t (by simp))] at hrest
      exact hrest

/-- Of the pushes for one item in nondecreasing time order, into an empty window: after
every push the prices read are the last N pushed and the current price is the price just
pushed, exactly when every tick follows the ones before it. -/
theorem windowPrices_lastPrices_iff (S : DetectionSettings) (cache : C)
    (venue marketHashName : String) (pushes : List PricedTick)
    (hempty : LawfulEdgeCache.window cache (priceWindowKey venue marketHashName) = .empty)
    (hitem : ∀ t ∈ pushes, t.venue = venue ∧ t.marketHashName = marketHashName)
    (htimes : pushes.Pairwise fun s t => s.timestamp ≤ t.timestamp) :
    (∀ p, p <+: pushes → LastPrices S.slidingWindowSize p
        (windowPrices (pushAll S cache p) (priceWindowKey venue marketHashName)))
      ↔ (pushes ≠ [] → 0 < S.slidingWindowSize) ∧ AllFollow S.slidingWindowSize pushes := by
  have hkey : ∀ t ∈ pushes, t.windowKey = priceWindowKey venue marketHashName := fun t ht => by
    rw [PricedTick.windowKey, (hitem t ht).1, (hitem t ht).2]
  rw [← lastPrices_iff_allFollow htimes]
  refine forall_congr' fun p => forall_congr' fun hp => ?_
  rw [windowPrices_eq, window_pushAll S (fun t ht => hkey t (hp.subset ht)) cache, hempty]
  rfl

end

/-- Two listings of one second, the second at the price with the greater text. -/
def sameSecondRun : List PricedTick :=
  [.listing "skinport" "AK-47" 900 10 "a" (by decide),
    .listing "skinport" "AK-47" 950 10 "b" (by decide)]

theorem windowPrices_lastPrices_iff_sameSecondRun :
    (∀ p, p <+: sameSecondRun → LastPrices 20 p
        (windowPrices (pushAll .default EdgeRedis.empty p) (priceWindowKey "skinport" "AK-47")))
      ↔ (sameSecondRun ≠ [] → 0 < 20) ∧ AllFollow 20 sameSecondRun :=
  windowPrices_lastPrices_iff .default EdgeRedis.empty "skinport" "AK-47" sameSecondRun rfl
    (by simp [sameSecondRun, PricedTick.listing, MarketTick.listing])
    (by simp [sameSecondRun, PricedTick.listing, MarketTick.listing])

/-- Within one second 10 dollars ranks before 9, so the 9 dollars pushed before it are read
as the newest price. -/
theorem not_lastPrices_same_second :
    ¬ ∀ pushes : List PricedTick,
      (∀ t ∈ pushes, t.venue = "skinport" ∧ t.marketHashName = "AK-47") →
      pushes.Pairwise (fun s t => s.timestamp ≤ t.timestamp) →
      LastPrices 20 pushes (windowPrices (pushAll .default EdgeRedis.empty pushes)
        (priceWindowKey "skinport" "AK-47")) := by
  intro h
  have hlaw := h [PricedTick.listing "skinport" "AK-47" 900 10 "a" (by decide),
      PricedTick.listing "skinport" "AK-47" 1000 10 "b" (by decide)]
    (by simp [PricedTick.listing, MarketTick.listing])
    (by simp [PricedTick.listing, MarketTick.listing])
  exact absurd hlaw.2 (by decide)

end BrandSniper
