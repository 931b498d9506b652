import Mathlib.Data.Int.ConditionallyCompleteOrder
import BrandSniper.Backtest.Store
import BrandSniper.Kit.Greatest
import BrandSniper.Listener.PriceWindow

/-!
# What the in-memory window selects

`push_to_window` over the store of `apps/listener/backtest/store.py`. A push
trims by rank, so an entry it drops is gone for good and the window is built by
local choices. All the same it is one global selection: the greatest
SLIDING_WINDOW_SIZE of the entries ever pushed (`windowAfter_entries`). A
selection from a set does not know the order of the pushes.

The member holds the second of its score, so a push never moves a member
(`zadd_entries_toFinset`); over another dictionary from members to scores this
would be false.
-/

namespace BrandSniper

open Kit

/-- The entries pushed. -/
def pushedEntries (pushes : List PricedTick) : Finset (Entry Int String) :=
  (pushes.map windowEntry).toFinset

theorem pushedEntries_concat (pushes : List PricedTick) (t : PricedTick) :
    pushedEntries (pushes ++ [t]) = insert (windowEntry t) (pushedEntries pushes) := by
  ext e
  simp [pushedEntries]

theorem pushedEntries_perm {pushes others : List PricedTick} (h : others.Perm pushes) :
    pushedEntries others = pushedEntries pushes := by
  rw [pushedEntries, pushedEntries]
  exact List.toFinset_eq_of_perm _ _ (h.map _)

/-- Adding a tick's member to a window that ticks were pushed into adds its entry. -/
theorem zadd_entries_toFinset {w : SortedSet Int String} (h : Readable w) (t : PricedTick) :
    (w.zadd (windowMember t) t.timestamp).entries.toFinset
      = insert (windowEntry t) w.entries.toFinset := by
  ext e
  rw [List.mem_toFinset, SortedSet.mem_zadd, Finset.mem_insert, List.mem_toFinset]
  constructor
  · rintro (he | ⟨he, -⟩)
    · exact .inl he
    · exact .inr he
  · rintro (he | he)
    · exact .inl he
    · by_cases hmember : e.member = windowMember t
      · obtain ⟨us, hus⟩ := h
        obtain ⟨u, -, rfl⟩ := List.mem_map.mp (hus ▸ he)
        exact .inl (windowEntry_eq_iff.mpr (windowMember_inj hmember))
      · exact .inr ⟨he, hmember⟩

/-- A push selects the greatest of the window's entries and its own. -/
theorem pushWindow_entries_eq_greatest (n : Nat) {w : SortedSet Int String} (h : Readable w)
    (t : PricedTick) : (pushWindow n w t).entries
      = greatest n (insert (windowEntry t) w.entries.toFinset) := by
  have hsorted := (w.zadd (windowMember t) t.timestamp).ranked
  rw [pushWindow_entries, greatest, ← zadd_entries_toFinset h t]
  congr 1
  exact ((List.toFinset_sort (· ≤ ·) hsorted.nodup).mpr (hsorted.imp le_of_lt)).symm

theorem readable_windowAfter (n : Nat) (pushes : List PricedTick) :
    Readable (windowAfter n pushes) := by
  induction pushes using List.reverseRecOn with
  | nil => exact readable_empty
  | append_singleton before t ih =>
      rw [windowAfter_concat]
      exact ih.pushWindow n t

/-- The window after a run of pushes is one selection among all of them. -/
theorem windowAfter_entries (n : Nat) (pushes : List PricedTick) :
    (windowAfter n pushes).entries = greatest n (pushedEntries pushes) := by
  induction pushes using List.reverseRecOn with
  | nil => simp [windowAfter, SortedSet.empty, pushedEntries, greatest]
  | append_singleton before t ih =>
      rw [windowAfter_concat, pushWindow_entries_eq_greatest n (readable_windowAfter n before) t,
        ih, greatest_insert, pushedEntries_concat]

namespace InMemoryEdgeStore

theorem ranking_pushAll (S : DetectionSettings) {store : InMemoryEdgeStore}
    {venue marketHashName : String} {pushes : List PricedTick}
    (hempty : store.sortedSet (priceWindowKey venue marketHashName) = .empty)
    (hitem : ∀ t ∈ pushes, t.venue = venue ∧ t.marketHashName = marketHashName) :
    ((pushAll S store pushes).sortedSet (priceWindowKey venue marketHashName)).ranking
      = windowAfter S.slidingWindowSize pushes := by
  have hkey : ∀ t ∈ pushes, t.windowKey = priceWindowKey venue marketHashName := by
    intro t ht
    rw [PricedTick.windowKey, (hitem t ht).1, (hitem t ht).2]
  have hrun := window_pushAll S hkey store
  have hstart : LawfulEdgeCache.window store (priceWindowKey venue marketHashName) = .empty := by
    show (store.sortedSet _).ranking = _
    rw [hempty, ranking_empty]
  rw [hstart] at hrun
  exact hrun

/-- After any pushes for one item, in any order of their seconds, the stored window is the
SLIDING_WINDOW_SIZE greatest distinct (timestamp, member) pairs pushed, in order; all of
them while there are no more. Reading it all gives their members, it is never longer than
its limit, and the same pushes in another order store the same. -/
theorem window_eq_greatest (S : DetectionSettings) (store : InMemoryEdgeStore)
    (venue marketHashName : String) (pushes : List PricedTick)
    (hempty : store.sortedSet (priceWindowKey venue marketHashName) = .empty)
    (hitem : ∀ t ∈ pushes, t.venue = venue ∧ t.marketHashName = marketHashName) :
    let key := priceWindowKey venue marketHashName
    let window := (pushAll S store pushes).sortedSet key
    window.ranking.entries = greatest S.slidingWindowSize (pushedEntries pushes) ∧
      ((pushedEntries pushes).card ≤ S.slidingWindowSize →
        window.ranking.entries = (pushedEntries pushes).sort (· ≤ ·)) ∧
      EdgeCache.zrange (pushAll S store pushes) key 0 (-1)
        = (greatest S.slidingWindowSize (pushedEntries pushes)).map Entry.member ∧
      EdgeCache.zcard (pushAll S store pushes) key ≤ S.slidingWindowSize ∧
      ∀ others : List PricedTick, others.Perm pushes →
        ((pushAll S store others).sortedSet key).ranking = window.ranking := by
  intro key window
  have hranking : window.ranking = windowAfter S.slidingWindowSize pushes :=
    ranking_pushAll S hempty hitem
  have hentries : window.ranking.entries = greatest S.slidingWindowSize (pushedEntries pushes) := by
    rw [hranking, windowAfter_entries]
  refine ⟨hentries, ?_, ?_, ?_, ?_⟩
  · intro hfew
    rw [hentries, greatest_of_card_le hfew]
  · have hread := LawfulEdgeCache.zrange_eq (pushAll S store pushes) key 0 (-1)
    rw [hread, SortedSet.zrange_all]
    exact congrArg (List.map Entry.member) hentries
  · have hcard := LawfulEdgeCache.zcard_eq (pushAll S store pushes) key
    rw [hcard]
    show window.ranking.entries.length ≤ _
    rw [hentries, length_greatest]
    exact min_le_left _ _
  · intro others hperm
    rw [ranking_pushAll S hempty (fun t ht => hitem t (hperm.subset ht)), hranking]
    apply SortedSet.ext
    rw [windowAfter_entries, windowAfter_entries, pushedEntries_perm hperm]

/-- Two listings of one second and an earlier one, which come in after each other. -/
theorem window_eq_greatest_threePushes :
    let pushes : List PricedTick :=
      [.listing "skinport" "AK-47" 900 10 "a" (by decide),
        .listing "skinport" "AK-47" 1000 10 "b" (by decide),
        .listing "skinport" "AK-47" 950 9 "c" (by decide)]
    let window := (pushAll .default empty pushes).sortedSet (priceWindowKey "skinport" "AK-47")
    window.ranking.entries = greatest 20 (pushedEntries pushes) ∧
      ((pushedEntries pushes).card ≤ 20 →
        window.ranking.entries = (pushedEntries pushes).sort (· ≤ ·)) ∧
      EdgeCache.zrange (pushAll .default empty pushes) (priceWindowKey "skinport" "AK-47") 0 (-1)
        = (greatest 20 (pushedEntries pushes)).map Entry.member ∧
      EdgeCache.zcard (pushAll .default empty pushes) (priceWindowKey "skinport" "AK-47") ≤ 20 ∧
      ∃ others : List PricedTick, others.Perm pushes ∧ others ≠ pushes ∧
        ((pushAll .default empty others).sortedSet
          (priceWindowKey "skinport" "AK-47")).ranking = window.ranking := by
  intro pushes window
  obtain ⟨hentries, hfew, hread, hcard, horder⟩ :=
    window_eq_greatest .default empty "skinport" "AK-47" pushes rfl
      (by simp [pushes, PricedTick.listing, MarketTick.listing])
  have hother : pushes.reverse ≠ pushes := by
    intro h
    have hprices := congrArg (List.map PricedTick.priceCents) h
    simp [pushes, PricedTick.listing, MarketTick.listing] at hprices
  exact ⟨hentries, hfew, hread, hcard, pushes.reverse, List.reverse_perm _, hother,
    horder _ (List.reverse_perm _)⟩

end InMemoryEdgeStore

end BrandSniper
