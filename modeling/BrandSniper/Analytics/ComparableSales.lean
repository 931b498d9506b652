import BrandSniper.Analytics.OutcomeLabels

/-!
# Comparable sales

`SoldIndex.build` and `comparable_prices` of `apps/analytics/outcome_labels.py`
against a plain scan of the sales: compare every sale with every other one to
find the first sightings, keep those of the name in the closed window, and sort
them.

The index keeps the first sightings in a dictionary and cuts ranges out of two
parallel lists; both find the same sales (`perm_firstSightings`), and sales of
different listings have one order.
-/

namespace BrandSniper.Labels

open Kit

variable {F : Type}

/-! ## The plain scan -/

/-- The sale comes before those of its listing in the list before it, and is not after those in the
list behind it. -/
def isFirstSighting (before : List (FeedSale F)) (sale : FeedSale F) (after : List (FeedSale F)) :
    Bool :=
  (before.all fun other => other.listingId ≠ sale.listingId || sale.sighting < other.sighting) &&
    after.all fun other => other.listingId ≠ sale.listingId || sale.sighting ≤ other.sighting

def firstSightingsFrom (before : List (FeedSale F)) : List (FeedSale F) → List (FeedSale F)
  | [] => []
  | sale :: after =>
      if isFirstSighting before sale after then sale :: firstSightingsFrom (before ++ [sale]) after
      else firstSightingsFrom (before ++ [sale]) after

/-- The first sighting of each listing, in the order of the sales. -/
def firstSightings (sales : List (FeedSale F)) : List (FeedSale F) := firstSightingsFrom [] sales

/-- The sale has the name and a time in the closed window, and is not the listing's. -/
def isComparable (name : String) (windowStart windowEnd : Int) (excludeListing : String)
    (sale : FeedSale F) : Bool :=
  sale.marketHashName = name && SoldIndex.inWindow windowStart windowEnd sale &&
    sale.listingId ≠ excludeListing

def plainComparablePrices (sales : List (FeedSale F)) (name : String)
    (windowStart windowEnd : Int) (excludeListing : String) : List Int :=
  (sortOn FeedSale.place ((firstSightings sales).filter
    (isComparable name windowStart windowEnd excludeListing))).map FeedSale.priceCents

/-! ## First sightings -/

theorem isFirstSighting_iff {before after : List (FeedSale F)} {sale : FeedSale F} :
    isFirstSighting before sale after = true ↔
      (∀ other ∈ before, other.listingId = sale.listingId → sale.sighting < other.sighting) ∧
        ∀ other ∈ after, other.listingId = sale.listingId → sale.sighting ≤ other.sighting := by
  simp only [isFirstSighting, Bool.and_eq_true, List.all_eq_true, Bool.or_eq_true,
    decide_eq_true_eq, ne_eq, imp_iff_not_or]

theorem mem_firstSightingsFrom {before sales : List (FeedSale F)} {sale : FeedSale F} :
    sale ∈ firstSightingsFrom before sales ↔ ∃ init after, sales = init ++ sale :: after ∧
      isFirstSighting (before ++ init) sale after = true := by
  induction sales generalizing before with
  | nil =>
      rw [firstSightingsFrom]
      refine iff_of_false List.not_mem_nil ?_
      intro ⟨init, after, hsplit, _⟩
      simp at hsplit
  | cons first rest ih =>
      have hcons : sale ∈ firstSightingsFrom before (first :: rest) ↔
          (sale = first ∧ isFirstSighting before first rest = true) ∨
            sale ∈ firstSightingsFrom (before ++ [first]) rest := by
        rw [firstSightingsFrom]
        split
        · rename_i hfirst
          rw [List.mem_cons]
          simp only [hfirst, and_true]
        · rename_i hfirst
          simp only [hfirst, Bool.false_eq_true, and_false, false_or]
      rw [hcons, ih]
      constructor
      · intro h
        rcases h with ⟨rfl, hfirst⟩ | ⟨init, after, rfl, hfirst⟩
        · exact ⟨[], rest, rfl, by rwa [List.append_nil]⟩
        · exact ⟨first :: init, after, rfl, by rwa [List.append_assoc] at hfirst⟩
      · intro ⟨init, after, hsplit, hfirst⟩
        cases init with
        | nil =>
            obtain ⟨rfl, rfl⟩ := List.cons.inj hsplit
            rw [List.append_nil] at hfirst
            exact .inl ⟨rfl, hfirst⟩
        | cons other init =>
            obtain ⟨rfl, rfl⟩ := List.cons.inj hsplit
            exact .inr ⟨init, after, rfl, by rwa [List.append_assoc]⟩

/-- No two first sightings are of one listing. -/
theorem pairwise_firstSightingsFrom (before sales : List (FeedSale F)) :
    (firstSightingsFrom before sales).Pairwise fun a b => a.listingId ≠ b.listingId := by
  induction sales generalizing before with
  | nil => exact List.Pairwise.nil
  | cons sale rest ih =>
      rw [firstSightingsFrom]
      split
      · rename_i hfirst
        refine List.pairwise_cons.mpr ⟨fun other hother hid => ?_, ih _⟩
        obtain ⟨init, after, rfl, hlater⟩ := mem_firstSightingsFrom.mp hother
        have hle := (isFirstSighting_iff.mp hfirst).2 other
          (List.mem_append_right _ List.mem_cons_self) hid.symm
        have hlt := (isFirstSighting_iff.mp hlater).1 sale
          (List.mem_append_left _ (List.mem_append_right _ (List.mem_singleton_self _))) hid
        exact absurd hlt (not_lt.mpr hle)
      · exact ih _

/-- The first sighting of a listing is the first of its sales. -/
theorem mem_firstSightings_iff {sales : List (FeedSale F)} {sale : FeedSale F} :
    sale ∈ firstSightings sales ↔
      firstOf FeedSale.sighting (sales.filter fun other => other.listingId = sale.listingId)
        = some sale := by
  rw [firstSightings, mem_firstSightingsFrom, firstOf_eq_some_iff]
  constructor
  · intro ⟨init, after, hsplit, hfirst⟩
    obtain ⟨hbefore, hafter⟩ := isFirstSighting_iff.mp hfirst
    refine ⟨init.filter fun other => other.listingId = sale.listingId,
      after.filter fun other => other.listingId = sale.listingId, ?_, fun other hother => ?_,
      fun other hother => ?_⟩
    · rw [hsplit, List.filter_append, List.filter_cons_of_pos (by simp)]
    · obtain ⟨hmem, hid⟩ := List.mem_filter.mp hother
      exact hbefore other hmem (of_decide_eq_true hid)
    · obtain ⟨hmem, hid⟩ := List.mem_filter.mp hother
      exact hafter other hmem (of_decide_eq_true hid)
  · intro ⟨before, after, hsplit, hbefore, hafter⟩
    obtain ⟨init, rest, rfl, rfl, hrest⟩ := List.filter_eq_append_iff.mp hsplit
    obtain ⟨skipped, later, rfl, hskipped, -, rfl⟩ := List.filter_eq_cons_iff.mp hrest
    refine ⟨init ++ skipped, later, by simp, isFirstSighting_iff.mpr ⟨fun other hother hid => ?_,
      fun other hother hid => ?_⟩⟩
    · rw [List.nil_append] at hother
      rcases List.mem_append.mp hother with hinit | hskip
      · exact hbefore other (List.mem_filter.mpr ⟨hinit, decide_eq_true hid⟩)
      · exact absurd (decide_eq_true hid) (hskipped other hskip)
    · exact hafter other (List.mem_filter.mpr ⟨hother, decide_eq_true hid⟩)

/-- The dictionary holds the first sightings. -/
theorem perm_firstSightings (sales : List (FeedSale F)) :
    ((firstSightingPerListing sales).items.map Prod.snd).Perm (firstSightings sales) := by
  have hnodup : (firstSightings sales).Nodup :=
    (pairwise_firstSightingsFrom [] sales).imp fun {a b} hne heq => hne (congrArg FeedSale.listingId heq)
  refine (List.perm_ext_iff_of_nodup (nodup_values_firstPerKey sales) hnodup).mpr fun sale => ?_
  rw [mem_firstSightings_iff, ← get?_firstPerKey]
  exact mem_values_firstPerKey

namespace SoldIndex

variable [DecidableEq F] (round10 : F → F)

/-- What the indexes of the sales are for. -/
structure ComparesPlainly (sales : List (FeedSale F)) : Prop where
  prices : ∀ name windowStart windowEnd excludeListing,
    (build round10 sales).comparablePrices name windowStart windowEnd excludeListing
      = plainComparablePrices sales name windowStart windowEnd excludeListing
  times : ∀ name, (((build round10 sales).timesByName.get? name).getD []).Pairwise (· ≤ ·)
  places : ∀ name, (((build round10 sales).salesByName.get? name).getD []).Pairwise
    fun a b => a.place ≤ b.place
  parallel : ∀ name, ((build round10 sales).timesByName.get? name).getD []
    = (((build round10 sales).salesByName.get? name).getD []).map FeedSale.seenAt
  lengths : ∀ name, (((build round10 sales).timesByName.get? name).getD []).length
    = (((build round10 sales).salesByName.get? name).getD []).length

theorem comparablePrices_eq_plain (sales : List (FeedSale F)) (name : String)
    (windowStart windowEnd : Int) (excludeListing : String) :
    (build round10 sales).comparablePrices name windowStart windowEnd excludeListing
      = plainComparablePrices sales name windowStart windowEnd excludeListing := by
  have hsame : ((((sortedSales sales).filter fun sale => sale.marketHashName = name).filter
      (inWindow windowStart windowEnd)).filter fun sale => sale.listingId ≠ excludeListing)
        = (sortedSales sales).filter (isComparable name windowStart windowEnd excludeListing) := by
    rw [List.filter_filter, List.filter_filter]
    congr 1
    funext sale
    rw [isComparable, Bool.and_comm, Bool.and_assoc,
      Bool.and_comm (decide (sale.listingId ≠ excludeListing))]
  have hperm := (perm_firstSightings sales).filter
    (isComparable name windowStart windowEnd excludeListing)
  rw [comparablePrices_build, hsame, sortedSales, ← sortOn_filter, plainComparablePrices]
  congr 1
  refine sortOn_eq_of_perm (fun a ha b hb hplace => ?_) hperm
  exact eq_of_mem_values (List.mem_of_mem_filter ha) (List.mem_of_mem_filter hb)
    (congrArg Prod.snd (toLex.injective hplace))

/-- For every list of sales the index gives what a plain scan of it does, and its parallel lists
belong together. -/
theorem comparesPlainly_build (sales : List (FeedSale F)) : ComparesPlainly round10 sales := by
  have hsales : ∀ name, ((build round10 sales).salesByName.get? name).getD []
      = (sortedSales sales).filter fun sale => sale.marketHashName = name := by
    intro name
    dsimp only [build]
    rw [getD_groupOn, List.map_id]
    simp only [Option.some.injEq]
  have htimes : ∀ name, ((build round10 sales).timesByName.get? name).getD []
      = ((sortedSales sales).filter fun sale => sale.marketHashName = name).map FeedSale.seenAt := by
    intro name
    dsimp only [build]
    rw [getD_groupOn]
    simp only [Option.some.injEq]
  refine ⟨comparablePrices_eq_plain round10 sales, fun name => ?_, fun name => ?_, fun name => ?_,
    fun name => ?_⟩
  · rw [htimes, List.pairwise_map]
    exact (pairwise_sortedSales sales).filter _
  · rw [hsales]
    exact (pairwise_sortOn _).filter _
  · rw [htimes, hsales]
  · rw [htimes, hsales, List.length_map]

end SoldIndex

end BrandSniper.Labels
