import BrandSniper.Analytics.SalesRuns

/-!
# Paging by offset while the feed moves

A title's sync whose feed changes between two page requests, and a quiet sync
after it. What new entries push past the pages already read is read again, and
`sale_keys` takes it for one more equal sale; what comes among the pages
already read is not read, and the next sync stops at the newest time stored.

`heldExactly_iff` says, sale by sale, when the two syncs leave the table with
the real sales of the range read.
-/

namespace BrandSniper.SalesSync

open Kit Dmarket

/-! ## Two syncs of a title -/

section

variable {F : Type}

/-- Request `number` is answered from the feed of that moment. -/
def served (feeds : Nat → Feed F) (number offset : Nat) : Except RequestError (SalesPage F) :=
  .ok (lastSales (feeds number) offset)

/-- Where a sync of the title reads back to. -/
def syncStart (table : List (VenueSale F)) (title : String) (now : Int) : Int :=
  readBackTo (newestSaleTime table title) now

/-- `sync_one` in a run of its own: a title that fails is left as it is. -/
def syncTitle [PyFloat F] (table : List (VenueSale F)) (title : String) (now : Int)
    (request : Nat → Nat → Except RequestError (SalesPage F)) : List (VenueSale F) :=
  match fetchTitleSales request (syncStart table title now) with
  | .error _ => table
  | .ok (read, _) => storeSales table read now

/-- A table that calls of `store_sales` have written. -/
inductive Written [PyFloat F] : List (VenueSale F) → Prop where
  | start {table : List (VenueSale F)} (venues : ∀ row ∈ table, row.venue ≠ venue)
      (unique : (table.map VenueSale.uniqueKey).Nodup) : Written table
  | store {table : List (VenueSale F)} (before : Written table) {title : String}
      {read : List (DMarketSale F)} (titles : ∀ sale ∈ read, sale.title = title)
      (fetchedAt : Int) : Written (storeSales table read fetchedAt)

/-- The sync with a feed that moves, and then one with a feed that stays. -/
def twoSyncs [PyFloat F] (table : List (VenueSale F)) (title : String) (now later : Int)
    (feeds : Nat → Feed F) (feed : Feed F) : List (VenueSale F) :=
  syncTitle (syncTitle table title now (served feeds)) title later (served fun _ => feed)

/-- After both syncs the table holds the real sales of the range the first one reads. -/
def HeldExactly [PyFloat F] [DecidableEq F] (table : List (VenueSale F)) (title : String)
    (now later : Int) (feeds : Nat → Feed F) (feed : Feed F) : Prop :=
  ∀ sale, sale.title = title → inRange (syncStart table title now) sale = true →
    heldCount (twoSyncs table title now later feeds feed) sale = (parseSales feed).count sale

/-! ## What the arrivals do to a sale -/

variable [DecidableEq F]

/-- How many of a sale's entries are moved past the pages read so far, less those that come among
them, from each request to the next. -/
def pushedPast (feeds : Nat → Feed F) (readBackTo : Int) (sale : DMarketSale F) : Int :=
  pushed lastSalesPageSize feeds (some sale) (finalRequest feeds readBackTo)

/-- How many of a sale's entries are not on the pages when the last one is read: those that come
later, or stand beyond the page limit. -/
def notOnPages (feeds : Nat → Feed F) (readBackTo : Int) (feed : Feed F)
    (sale : DMarketSale F) : Int :=
  (parseSales feed).count sale - (parseSales ((feeds (finalRequest feeds readBackTo)).take
    (lastSalesPageSize * (finalRequest feeds readBackTo + 1)))).count sale

omit [DecidableEq F] in
/-- Nothing newer than the sale was stored before, or stands on a page of the first sync. -/
structure NothingNewer (table : List (VenueSale F)) (title : String) (feeds : Nat → Feed F)
    (readBackTo : Int) (sale : DMarketSale F) : Prop where
  stored : ∀ newest, newestSaleTime table title = some newest → newest ≤ sale.soldAt
  onPages : ∀ i ≤ finalRequest feeds readBackTo, ∀ other,
    other ∈ parseSales (page lastSalesPageSize (feeds i) i) → other.soldAt ≤ sale.soldAt

/-- The second sync reads the sale: its second is within the history, nothing newer stops it, and
the sale is within the page limit. -/
structure ReadAgain (table : List (VenueSale F)) (title : String) (feeds : Nat → Feed F)
    (readBackTo later : Int) (feed : Feed F) (sale : DMarketSale F) : Prop where
  wanted : oldestWanted later ≤ sale.soldAt * 1000000
  newest : NothingNewer table title feeds readBackTo sale
  fits : sale ∉ parseSales (feed.drop (lastSalesPageSize * maxPagesPerTitle))

/-- What spares a sale: no row of it is there already that is no sale, what is pushed past the
pages is made up for by what comes too late for them, and exactly so unless the second sync reads
the sale or all of it was stored. -/
structure SafelyPaged [PyFloat F] (table : List (VenueSale F)) (title : String) (now later : Int)
    (feeds : Nat → Feed F) (feed : Feed F) (sale : DMarketSale F) : Prop where
  before : heldCount table sale ≤ (parseSales feed).count sale
  once : pushedPast feeds (syncStart table title now) sale
    ≤ notOnPages feeds (syncStart table title now) feed sale
  found : heldCount table sale = (parseSales feed).count sale
    ∨ pushedPast feeds (syncStart table title now) sale
      = notOnPages feeds (syncStart table title now) feed sale
    ∨ ReadAgain table title feeds (syncStart table title now) later feed sale

end

/-! ## What one sync reads -/

section

variable {F : Type}

theorem fetchTitleSales_served (feeds : Nat → Feed F) (readBackTo : Int) :
    fetchTitleSales (served feeds) readBackTo
      = .ok ((shown feeds (finalRequest feeds readBackTo + 1)).filter (inRange readBackTo),
          finalRequest feeds readBackTo + 1) :=
  fetchLoop_served feeds readBackTo (maxPagesPerTitle - 1) 0

/-- What a sync stores. -/
theorem syncTitle_served [PyFloat F] (table : List (VenueSale F)) (title : String) (now : Int)
    (feeds : Nat → Feed F) :
    syncTitle table title now (served feeds)
      = storeSales table ((shown feeds (finalRequest feeds (syncStart table title now) + 1)).filter
          (inRange (syncStart table title now))) now := by
  rw [syncTitle, fetchTitleSales_served]

theorem mem_shown {feeds : Nat → Feed F} {n : Nat} {sale : DMarketSale F} :
    sale ∈ shown feeds n ↔ ∃ i < n, sale ∈ parseSales (page lastSalesPageSize (feeds i) i) := by
  simp only [shown, parseSales, List.mem_filterMap, List.mem_flatten, List.mem_map, List.mem_range]
  constructor
  · rintro ⟨entry, ⟨pg, ⟨i, hi, rfl⟩, hentry⟩, hsale⟩
    exact ⟨i, hi, entry, hentry, hsale⟩
  · rintro ⟨i, hi, entry, hentry, hsale⟩
    exact ⟨entry, ⟨_, ⟨i, hi, rfl⟩, hentry⟩, hsale⟩

theorem titles_shown {feeds : Nat → Feed F} {title : String}
    (hfeeds : ∀ i, FeedOf title (feeds i)) (n : Nat) :
    ∀ sale ∈ shown feeds n, sale.title = title := by
  intro sale hsale
  obtain ⟨i, -, hmem⟩ := mem_shown.mp hsale
  obtain ⟨entry, hentry, heq⟩ := List.mem_filterMap.mp hmem
  exact (hfeeds i).titles sale (List.mem_filterMap.mpr
    ⟨entry, List.mem_of_mem_drop (List.mem_of_mem_take hentry), heq⟩)

variable [DecidableEq F]

/-- How often the pages of a sync hold a sale. -/
theorem count_shown (feeds : Nat → Feed F) (readBackTo : Int) (feed : Feed F)
    (sale : DMarketSale F) :
    ((shown feeds (finalRequest feeds readBackTo + 1)).count sale : Int)
      = (parseSales feed).count sale - notOnPages feeds readBackTo feed sale
        + pushedPast feeds readBackTo sale := by
  rw [shown, count_parseSales, count_pages, notOnPages, pushedPast, count_parseSales feed,
    count_parseSales (List.take _ _)]
  omega

/-- A quiet sync reads a sale of its range but for what is beyond the page limit. -/
theorem count_quiet {feed : Feed F} {readBackTo : Int} (hsorted : NewestFirst feed)
    {sale : DMarketSale F} (hin : inRange readBackTo sale = true) :
    (shown (fun _ => feed) (finalRequest (fun _ => feed) readBackTo + 1)).count sale
        + (parseSales (feed.drop (lastSalesPageSize * maxPagesPerTitle))).count sale
      = (parseSales feed).count sale := by
  have hle := lastRequest_le (endsAt (fun _ => feed) readBackTo) (maxPagesPerTitle - 1) 0
  have hrest : (parseSales
        (feed.drop (lastSalesPageSize * (finalRequest (fun _ => feed) readBackTo + 1)))).count sale
      = (parseSales (feed.drop (lastSalesPageSize * maxPagesPerTitle))).count sale := by
    rcases lastRequest_spec (endsAt (fun _ => feed) readBackTo) (maxPagesPerTitle - 1) 0 with
      hends | hlimit
    · -- Neither rest of the feed has a sale in range.
      have hnone := rest_of_endsReading hsorted hends
      have hcount : (parseSales (feed.drop (lastSalesPageSize
          * (finalRequest (fun _ => feed) readBackTo + 1)))).count sale = 0 :=
        List.count_eq_zero.mpr fun hmem => by
          rw [hnone sale hmem] at hin
          cases hin
      rw [hcount, eq_comm, List.count_eq_zero]
      intro hmem
      refine List.count_eq_zero.mp hcount ?_
      obtain ⟨entry, hentry, heq⟩ := List.mem_filterMap.mp hmem
      refine List.mem_filterMap.mpr ⟨entry, List.drop_subset_drop_left _ ?_ hentry, heq⟩
      exact Nat.mul_le_mul_left _ (Nat.succ_le_succ hle)
    · rw [finalRequest, hlimit]
      rfl
  rw [← hrest, shown, flatten_pages, ← List.count_append, ← parseSales_append, List.take_append_drop]

end

/-! ## What the second sync stops at -/

section

variable {F : Type} [PyFloat F] [DecidableEq F] [LawfulPyFloat F]

theorem Written.tallied {table : List (VenueSale F)} (h : Written table) :
    ∃ tally, Tallied table tally := by
  induction h with
  | start venues unique => exact ⟨_, Tallied.start venues unique⟩
  | store before titles fetchedAt ih =>
      obtain ⟨tally, htally⟩ := ih
      exact ⟨_, htally.storeSales titles fetchedAt⟩

/-- A sync of the title takes the larger of the table's tally and what its pages hold. -/
theorem Tallied.syncTitle {table : List (VenueSale F)} {tally : DMarketSale F → Nat}
    (h : Tallied table tally) {title : String} (now : Int) {feeds : Nat → Feed F}
    (hfeeds : ∀ i, FeedOf title (feeds i)) :
    Tallied (syncTitle table title now (served feeds)) fun sale => max (tally sale)
      (((shown feeds (finalRequest feeds (syncStart table title now) + 1)).filter
        (inRange (syncStart table title now))).count sale) := by
  rw [syncTitle_served]
  exact h.storeSales (fun sale hsale =>
    titles_shown hfeeds _ sale (List.mem_filter.mp hsale).1) now

/-- The second sync's range has the sales of the history that nothing newer stops it before. -/
theorem inRange_second_iff {table : List (VenueSale F)} {tally : DMarketSale F → Nat}
    (h : Tallied table tally) {title : String} {now : Int} (later : Int) {feeds : Nat → Feed F}
    (hfeeds : ∀ i, FeedOf title (feeds i)) {sale : DMarketSale F}
    (hin : inRange (syncStart table title now) sale = true) :
    inRange (syncStart (syncTitle table title now (served feeds)) title later) sale = true
      ↔ oldestWanted later ≤ sale.soldAt * 1000000
        ∧ NothingNewer table title feeds (syncStart table title now) sale := by
  have hfirst := h.syncTitle now hfeeds
  rw [inRange, decide_eq_true_eq, syncStart, readBackTo, max_le_iff, and_comm]
  refine and_congr_right fun hwanted => ⟨fun hle => ⟨fun newest hnewest => ?_,
    fun i hi other hother => ?_⟩, fun hnothing => ?_⟩
  · obtain ⟨held, htitle, hpos, hsold⟩ := h.held_of_newest hnewest
    obtain ⟨newest', hnewest', hge⟩ := hfirst.newest_of_held (lt_of_lt_of_le hpos (le_max_left _ _))
    rw [htitle] at hnewest'
    rw [hnewest'] at hle
    have hle' : newest' * 1000000 ≤ sale.soldAt * 1000000 := hle
    omega
  · by_contra hlt
    have hshown : other ∈ shown feeds (finalRequest feeds (syncStart table title now) + 1) :=
      mem_shown.mpr ⟨i, Nat.lt_succ_of_le hi, hother⟩
    have hread : other ∈ (shown feeds (finalRequest feeds (syncStart table title now) + 1)).filter
        (inRange (syncStart table title now)) :=
      List.mem_filter.mpr ⟨hshown, inRange_of_le (le_of_lt (lt_of_not_ge hlt)) hin⟩
    obtain ⟨newest', hnewest', hge⟩ := hfirst.newest_of_held
      (lt_of_lt_of_le (List.count_pos_iff.mpr hread) (le_max_right _ _))
    rw [titles_shown hfeeds _ other hshown] at hnewest'
    rw [hnewest'] at hle
    have hle' : newest' * 1000000 ≤ sale.soldAt * 1000000 := hle
    omega
  · cases hnewest : newestSaleTime (SalesSync.syncTitle table title now (served feeds)) title with
    | none => exact hwanted
    | some newest =>
        show newest * 1000000 ≤ sale.soldAt * 1000000
        obtain ⟨held, htitle, hpos, hsold⟩ := hfirst.held_of_newest hnewest
        rcases lt_max_iff.mp hpos with hbefore | hread
        · obtain ⟨newest', hnewest', hge⟩ := h.newest_of_held hbefore
          rw [htitle] at hnewest'
          have hle := hnothing.stored newest' hnewest'
          omega
        · obtain ⟨i, hi, hmem⟩ := mem_shown.mp
            (List.mem_filter.mp (List.count_pos_iff.mp hread)).1
          have hle := hnothing.onPages i (Nat.le_of_lt_succ hi) held hmem
          omega

/-! ## Both syncs -/

/-- How many rows of a sale the two syncs leave. -/
theorem heldCount_twoSyncs {table : List (VenueSale F)} {tally : DMarketSale F → Nat}
    (h : Tallied table tally) {title : String} {now later : Int} {feeds : Nat → Feed F}
    {feed : Feed F} (hfeeds : ∀ i, FeedOf title (feeds i)) (hfeed : FeedOf title feed)
    {sale : DMarketSale F} (hin : inRange (syncStart table title now) sale = true) :
    heldCount (twoSyncs table title now later feeds feed) sale
      = max (max (heldCount table sale)
          ((shown feeds (finalRequest feeds (syncStart table title now) + 1)).count sale))
        (if inRange (syncStart (syncTitle table title now (served feeds)) title later) sale then
          (parseSales feed).count sale
            - (parseSales (feed.drop (lastSalesPageSize * maxPagesPerTitle))).count sale
        else 0) := by
  have hsecond := (h.syncTitle now hfeeds).syncTitle later fun _ : Nat => hfeed
  rw [twoSyncs, hsecond.heldCount_eq, h.heldCount_eq, List.count_filter hin]
  split
  · next hagain =>
      rw [List.count_filter hagain, ← count_quiet hfeed.newestFirst hagain, Nat.add_sub_cancel]
  · next hagain =>
      have hnone : ((shown (fun _ : Nat => feed) (finalRequest (fun _ => feed)
          (syncStart (SalesSync.syncTitle table title now (served feeds)) title later) + 1)).filter
          (inRange (syncStart (SalesSync.syncTitle table title now (served feeds)) title
            later))).count sale = 0 :=
        List.count_eq_zero.mpr fun hmem => hagain (List.mem_filter.mp hmem).2
      rw [hnone]

/-- Sale by sale, the two syncs leave the real ones exactly if the paging spares it. -/
theorem held_iff_safelyPaged {table : List (VenueSale F)} {tally : DMarketSale F → Nat}
    (h : Tallied table tally) {title : String} {now later : Int} {feeds : Nat → Feed F}
    {feed : Feed F} (hfeeds : ∀ i, FeedOf title (feeds i)) (hfeed : FeedOf title feed)
    {sale : DMarketSale F} (hin : inRange (syncStart table title now) sale = true) :
    heldCount (twoSyncs table title now later feeds feed) sale = (parseSales feed).count sale
      ↔ SafelyPaged table title now later feeds feed sale := by
  have hpages := count_shown feeds (syncStart table title now) feed sale
  have hagain := inRange_second_iff h later hfeeds hin
  rw [heldCount_twoSyncs h hfeeds hfeed hin]
  constructor
  · intro heq
    have hbefore : heldCount table sale ≤ (parseSales feed).count sale :=
      heq ▸ (le_max_left _ _).trans (le_max_left _ _)
    have honce : (shown feeds (finalRequest feeds (syncStart table title now) + 1)).count sale
        ≤ (parseSales feed).count sale := heq ▸ (le_max_right _ _).trans (le_max_left _ _)
    refine ⟨hbefore, by omega, ?_⟩
    by_cases hheld : heldCount table sale = (parseSales feed).count sale
    · exact .inl hheld
    by_cases hshown : (shown feeds (finalRequest feeds (syncStart table title now) + 1)).count sale
        = (parseSales feed).count sale
    · exact .inr (.inl (by omega))
    -- What is left to reach the count is the second sync.
    split at heq
    · next hread =>
        obtain ⟨hwanted, hnothing⟩ := hagain.mp hread
        exact .inr (.inr ⟨hwanted, hnothing, fun hmem => by
          have hpos := List.count_pos_iff.mpr hmem
          omega⟩)
    · omega
  · rintro ⟨hbefore, honce, hheld | hexact | ⟨hwanted, hnothing, hfits⟩⟩
    · split <;> omega
    · split <;> omega
    · rw [if_pos (hagain.mpr ⟨hwanted, hnothing⟩), List.count_eq_zero.mpr hfits]
      omega

/-- **When paging is safe against a moving feed.** -/
theorem heldExactly_iff {table : List (VenueSale F)} (h : Written table) {title : String}
    (now later : Int) {feeds : Nat → Feed F} {feed : Feed F}
    (hfeeds : ∀ i, FeedOf title (feeds i)) (hfeed : FeedOf title feed) :
    HeldExactly table title now later feeds feed
      ↔ ∀ sale, sale.title = title → inRange (syncStart table title now) sale = true →
        SafelyPaged table title now later feeds feed sale := by
  obtain ⟨tally, htally⟩ := h.tallied
  exact forall_congr' fun sale => forall_congr' fun _ => forall_congr' fun hin =>
    held_iff_safelyPaged htally hfeeds hfeed hin

end

/-! ## A sale pushed onto the next page, and one that shows up late -/

/-- The case's sales in the seconds 1000 to 980: a page and one more. -/
def longFeed : Feed FloatText := (List.range 21).map fun i => some (caseSale (1000 - i))

/-- A sale comes after the first page is read: the page's last one stands on the second, too. -/
def pushedFeeds : Nat → Feed FloatText
  | 0 => longFeed
  | _ + 1 => some (caseSale 1001) :: longFeed

/-- A sale older than the newest one shows up between the syncs. -/
def lateFeed : Feed FloatText := [some (caseSale 1000), some (caseSale 990), some (caseSale 980)]

def earlyFeed : Feed FloatText := [some (caseSale 1000), some (caseSale 980)]

theorem feedOf_pushedFeeds (i : Nat) : FeedOf caseTitle (pushedFeeds i) := by
  have hsorted : ∀ feed ∈ [longFeed, some (caseSale 1001) :: longFeed],
      (parseSales feed).Pairwise (fun a b => b.soldAt ≤ a.soldAt)
        ∧ ∀ sale ∈ parseSales feed, sale.title = caseTitle := by decide +kernel
  cases i with
  | zero => exact ⟨(hsorted _ List.mem_cons_self).1, (hsorted _ List.mem_cons_self).2⟩
  | succ i =>
      have hlast := hsorted _ (List.mem_cons_of_mem _ List.mem_cons_self)
      exact ⟨hlast.1, hlast.2⟩

theorem heldExactly_iff_pushed :
    HeldExactly [] caseTitle 2000000000 3000000000 pushedFeeds (pushedFeeds 1)
      ↔ ∀ sale, sale.title = caseTitle
        → inRange (syncStart ([] : List (VenueSale FloatText)) caseTitle 2000000000) sale = true →
        SafelyPaged [] caseTitle 2000000000 3000000000 pushedFeeds (pushedFeeds 1) sale :=
  heldExactly_iff (.start (List.forall_mem_nil _) List.nodup_nil) 2000000000 3000000000
    feedOf_pushedFeeds (feedOf_pushedFeeds 1)

/-- The sale of second 981 is held twice. The one of second 990 is not held. -/
theorem not_heldExactly_pushed_late :
    ¬ HeldExactly [] caseTitle 2000000000 3000000000 pushedFeeds (pushedFeeds 1)
      ∧ ¬ HeldExactly [] caseTitle 2000000000 3000000000 (fun _ => earlyFeed) lateFeed := by
  constructor
  · intro h
    have hcount := h (caseSale 981) rfl (by decide +kernel)
    rw [show heldCount (twoSyncs [] caseTitle 2000000000 3000000000 pushedFeeds (pushedFeeds 1))
        (caseSale 981) = 2 from by decide +kernel,
      show (parseSales (pushedFeeds 1)).count (caseSale 981) = 1 from by decide +kernel] at hcount
    cases hcount
  · intro h
    have hcount := h (caseSale 990) rfl (by decide +kernel)
    rw [show heldCount (twoSyncs [] caseTitle 2000000000 3000000000 (fun _ => earlyFeed) lateFeed)
        (caseSale 990) = 0 from by decide +kernel,
      show (parseSales lateFeed).count (caseSale 990) = 1 from by decide +kernel] at hcount
    cases hcount

end BrandSniper.SalesSync
