import BrandSniper.Analytics.LabelRuns
import BrandSniper.Kit.Results
import Mathlib.Data.List.Pairwise

/-!
# The range of a labeler run

What a run makes of a listing in its range: its windows cover the range without
overlap, the fees it fetches are those in force, and so the one row it saves for
the listing's first sighting is the label over the whole history exactly if the
cut kept the listing's sales and fee (`labeledAsWhole_iff`).
-/

namespace BrandSniper.Labels

open Kit

variable {F : Type} [DecidableEq F]

/-! ## The fees in force -/

namespace LabelDatabase

/-- The fees of the builds of one moment. -/
def feesAt (builds : List BuildRow) (builtAt : Int) : OrderedDict String Int :=
  (builds.filter fun build => build.builtAt = builtAt).foldl
    (fun fees build => fees.setAll build.sellerFees.items) .empty

/-- When the newest build up to a moment was stored. -/
def newestUpTo (builds : List BuildRow) (moment : Int) : Option Int :=
  ((builds.map BuildRow.builtAt).filter fun t => t ≤ moment).max?

theorem get?_addFees (builds : List BuildRow) (t : Int) :
    (builds.foldl addFees .empty).get? t
      = if t ∈ builds.map BuildRow.builtAt then some (feesAt builds t) else none := by
  induction builds using List.reverseRecOn with
  | nil => rfl
  | append_singleton before build ih =>
      rw [List.foldl_append, List.foldl_cons, List.foldl_nil, addFees, OrderedDict.get?_set,
        List.map_append, feesAt, List.filter_append, List.foldl_append]
      by_cases ht : build.builtAt = t
      · subst ht
        have hold : ((before.foldl addFees .empty).get? build.builtAt).getD .empty
            = feesAt before build.builtAt := by
          rw [ih]
          by_cases hmem : build.builtAt ∈ before.map BuildRow.builtAt
          · rw [if_pos hmem]
            rfl
          · rw [if_neg hmem, feesAt, List.filter_eq_nil_iff.mpr]
            · rfl
            · intro other hother heq
              rw [← of_decide_eq_true heq] at hmem
              exact hmem (List.mem_map_of_mem hother)
        rw [if_pos rfl, if_pos (by simp), hold, List.filter_cons_of_pos (by simp)]
        rfl
      · rw [if_neg ht, ih, List.filter_cons_of_neg (by simpa using ht)]
        have hmem : t ∈ before.map BuildRow.builtAt ++ [build].map BuildRow.builtAt
            ↔ t ∈ before.map BuildRow.builtAt := by
          rw [List.mem_append]
          simp [Ne.symm ht]
        simp only [hmem]
        rfl

theorem newestUpTo_eq_some {builds : List BuildRow} {moment t : Int} :
    newestUpTo builds moment = some t ↔
      (t ∈ builds.map BuildRow.builtAt ∧ t ≤ moment) ∧
        ∀ other ∈ builds.map BuildRow.builtAt, other ≤ moment → other ≤ t := by
  rw [newestUpTo, List.max?_eq_some_iff]
  simp only [List.mem_filter, decide_eq_true_eq, and_imp]

/-- The fee in force is that of the newest build. -/
theorem feeBps_itemFeesOf (builds : List BuildRow) (name : String) (moment : Int) :
    (itemFeesOf builds).feeBps name moment
      = (newestUpTo builds moment).bind fun t => (feesAt builds t).get? name := by
  rw [itemFeesOf, ItemFees.feeBps_build]
  cases hnewest : newestUpTo builds moment with
  | none =>
      rw [newestUpTo, List.max?_eq_none_iff, List.filter_eq_nil_iff] at hnewest
      have hnone : ((builds.foldl addFees .empty).items.filter fun build => build.1 ≤ moment)
          = [] := by
        rw [List.filter_eq_nil_iff]
        rintro ⟨t, fees⟩ hmem
        have hget := OrderedDict.get?_eq_some.mpr hmem
        rw [get?_addFees] at hget
        split at hget
        · rename_i ht
          exact hnewest t ht
        · cases hget
      rw [hnone]
      rfl
  | some t =>
      obtain ⟨⟨ht, hmoment⟩, hmax⟩ := newestUpTo_eq_some.mp hnewest
      have hget := get?_addFees builds t
      rw [if_pos ht] at hget
      have hlast : (sortOn Prod.fst ((builds.foldl addFees .empty).items.filter
          fun build => build.1 ≤ moment)).getLast? = some (t, feesAt builds t) := by
        refine getLast?_sortOn ?_ ?_
        · exact List.mem_filter.mpr ⟨OrderedDict.get?_eq_some.mp hget, decide_eq_true hmoment⟩
        · rintro ⟨t', fees⟩ hmem hne
          obtain ⟨hitem, hle⟩ := List.mem_filter.mp hmem
          have hget' := OrderedDict.get?_eq_some.mpr hitem
          have hmem' : t' ∈ builds.map BuildRow.builtAt := by
            rw [get?_addFees] at hget'
            split at hget'
            · assumption
            · cases hget'
          have hle' := hmax t' hmem' (of_decide_eq_true hle)
          refine lt_of_le_of_ne hle' fun heq => hne ?_
          dsimp only at heq
          rw [heq, hget] at hget'
          rw [heq, Option.some.inj hget']
      rw [hlast, Option.bind_some, Option.bind_some]

/-- Builds of other moments do not matter. -/
theorem feesAt_filter {builds : List BuildRow} {p : Int → Bool} {t : Int} (h : p t = true) :
    feesAt (builds.filter fun build => p build.builtAt) t = feesAt builds t := by
  rw [feesAt, feesAt, List.filter_filter]
  congr 2
  funext build
  by_cases ht : build.builtAt = t
  · rw [ht, h, Bool.and_true]
  · rw [decide_eq_false ht, Bool.false_and]

/-- A cut of the builds that keeps the newest one keeps the fee in force. -/
theorem feeBps_filter {builds : List BuildRow} {p : Int → Bool} {moment : Int}
    (h : ∀ t, newestUpTo builds moment = some t → p t = true) (name : String) :
    (itemFeesOf (builds.filter fun build => p build.builtAt)).feeBps name moment
      = (itemFeesOf builds).feeBps name moment := by
  have hmem : ∀ t, t ∈ (builds.filter fun build => p build.builtAt).map BuildRow.builtAt
      ↔ t ∈ builds.map BuildRow.builtAt ∧ p t = true := by
    intro t
    simp only [List.mem_map, List.mem_filter]
    constructor
    · rintro ⟨build, ⟨hbuild, hp⟩, rfl⟩
      exact ⟨⟨build, hbuild, rfl⟩, hp⟩
    · rintro ⟨⟨build, hbuild, rfl⟩, hp⟩
      exact ⟨build, ⟨hbuild, hp⟩, rfl⟩
  rw [feeBps_itemFeesOf, feeBps_itemFeesOf]
  cases hnewest : newestUpTo builds moment with
  | none =>
      rw [newestUpTo, List.max?_eq_none_iff, List.filter_eq_nil_iff] at hnewest
      have hnone : newestUpTo (builds.filter fun build => p build.builtAt) moment = none := by
        rw [newestUpTo, List.max?_eq_none_iff, List.filter_eq_nil_iff]
        exact fun t ht => hnewest t ((hmem t).mp ht).1
      rw [hnone]
      rfl
  | some t =>
      obtain ⟨⟨ht, hmoment⟩, hmax⟩ := newestUpTo_eq_some.mp hnewest
      have hkept : newestUpTo (builds.filter fun build => p build.builtAt) moment = some t :=
        newestUpTo_eq_some.mpr ⟨⟨(hmem t).mpr ⟨ht, h t hnewest⟩, hmoment⟩,
          fun other hother => hmax other ((hmem other).mp hother).1⟩
      rw [hkept, Option.bind_some, Option.bind_some, feesAt_filter (h t hnewest)]

variable (db : LabelDatabase F)

/-- The builds of a venue that have fees, from the one in force at a moment on. -/
def buildsWithFees (venue : String) (start : Int) : List BuildRow :=
  db.builds.filter fun build =>
    (decide (build.venue = venue) && decide (build.sellerFees.items ≠ [])) &&
      decide (db.feesFrom venue start ≤ build.builtAt)

omit [DecidableEq F] in
/-- The fee of a listing does not depend on the end of the run that fetches it. -/
theorem feeBps_fetchItemFees (venue : String) (start : Int) {stop moment : Int}
    (h : moment ≤ stop) (name : String) :
    (db.fetchItemFees venue start stop).feeBps name moment
      = (itemFeesOf (db.buildsWithFees venue start)).feeBps name moment := by
  rw [← feeBps_filter (p := fun t => t ≤ stop), fetchItemFees, buildsWithFees, List.filter_filter]
  · congr 3
    funext build
    rw [Bool.and_left_comm]
  · intro t ht
    exact decide_eq_true ((newestUpTo_eq_some.mp ht).1.2.trans h)

omit [DecidableEq F] in
/-- Where all builds of a venue have fees, the newest one up to a moment is among those that have
fees from the one in force at an earlier moment on. -/
theorem feeBps_of_stored {venue : String}
    (hstored : ∀ build ∈ db.builds, build.venue = venue → build.sellerFees.items ≠ [])
    {start moment : Int} (h : start ≤ moment) (name : String) :
    (itemFeesOf (db.buildsWithFees venue start)).feeBps name moment
      = (itemFeesOf (db.builds.filter fun build => build.venue = venue)).feeBps name moment := by
  have hcut : db.buildsWithFees venue start
      = (db.builds.filter fun build => build.venue = venue).filter fun build =>
          decide (db.feesFrom venue start ≤ build.builtAt) := by
    rw [List.filter_filter]
    refine List.filter_congr fun build hbuild => ?_
    by_cases hvenue : build.venue = venue
    · rw [decide_eq_true (hstored build hbuild hvenue), Bool.and_true, Bool.and_comm]
    · rw [decide_eq_false hvenue, Bool.false_and, Bool.false_and, Bool.and_false]
  rw [hcut]
  refine feeBps_filter (p := fun t => db.feesFrom venue start ≤ t) (fun t ht => decide_eq_true ?_) name
  obtain ⟨⟨ht, -⟩, hmax⟩ := newestUpTo_eq_some.mp ht
  rw [feesFrom]
  cases hfrom : (((db.builds.filter fun build => build.venue = venue).map BuildRow.builtAt).filter
      fun t => t ≤ start).max? with
  | some first =>
      rw [List.max?_eq_some_iff, List.mem_filter, decide_eq_true_eq] at hfrom
      exact hmax first hfrom.1.1 (hfrom.1.2.trans h)
  | none =>
      -- no build up to the start, so all come after it
      rw [List.max?_eq_none_iff, List.filter_eq_nil_iff] at hfrom
      have hlate := hfrom t ht
      rw [decide_eq_true_eq, Int.not_le] at hlate
      exact hlate.le

end LabelDatabase

section
variable {round10 : F → F} {db : LabelDatabase F} {config : LabelConfig}

omit [DecidableEq F] in
theorem isNone_runFees (asOf start stop : Int) :
    (runFees db config asOf start stop).isNone = (everyBuildsFees db config).isNone := by
  rw [runFees, everyBuildsFees]
  cases config.itemSellerFees <;> rfl

/-- The item's fee in the newest of these builds up to the listing. -/
def feeInForce (builds : List BuildRow) (listing : FeedSale F) : Option Int :=
  (LabelDatabase.newestUpTo builds listing.seenAt).bind fun t =>
    (LabelDatabase.feesAt builds t).get? listing.marketHashName

/-- The prices of the sales a listing is compared with, in the whole history. -/
def resalePrices (round10 : F → F) (db : LabelDatabase F) (config : LabelConfig)
    (listing : FeedSale F) : List Int :=
  comparableSales round10 config listing (.build round10 (soldHistory db config))

/-- With fees by item, and sales enough to have a resale price: the item's fee in the newest build
that has fees, of those from the one in force at `start` on, is the same cents of that price as its
fee in the newest build. -/
def FeesKept (round10 : F → F) (db : LabelDatabase F) (config : LabelConfig) (start : Int)
    (listing : FeedSale F) : Prop :=
  config.itemSellerFees = true →
    config.minComparableSales ≤ (resalePrices round10 db config listing).length →
    ∀ priceCents, medianLow (resalePrices round10 db config listing) = .ok priceCents →
      sellerFeeCents priceCents config.fees
          (feeInForce (db.builds.filter fun build => build.venue = config.venue) listing)
        = sellerFeeCents priceCents config.fees
          (feeInForce (db.buildsWithFees config.venue start) listing)

omit [DecidableEq F] in
theorem feeBps_everyBuildsFees (hitem : config.itemSellerFees = true) (listing : FeedSale F) :
    ((everyBuildsFees db config).bind fun fees =>
        fees.feeBps listing.marketHashName listing.seenAt)
      = feeInForce (db.builds.filter fun build => build.venue = config.venue) listing := by
  rw [everyBuildsFees, if_pos hitem, Option.bind_some, LabelDatabase.feeBps_itemFeesOf, feeInForce]

omit [DecidableEq F] in
/-- A run reads a listing's fee from the builds with fees up to the listing. -/
theorem feeBps_runFees (hitem : config.itemSellerFees = true) {asOf start stop : Int}
    {listing : FeedSale F} (h : listing.seenAt < runEnd db config asOf stop) :
    ((runFees db config asOf start stop).bind fun fees =>
        fees.feeBps listing.marketHashName listing.seenAt)
      = feeInForce (db.buildsWithFees config.venue start) listing := by
  rw [runFees, if_pos hitem, Option.bind_some,
    LabelDatabase.feeBps_fetchItemFees db config.venue start h.le,
    LabelDatabase.feeBps_itemFeesOf, feeInForce]

/-- Where every build of the venue has fees, the cut keeps the one in force. -/
theorem feesKept_of_stored {start : Int} {listing : FeedSale F} (hstart : start ≤ listing.seenAt)
    (hstored : ∀ build ∈ db.builds, build.venue = config.venue → build.sellerFees.items ≠ []) :
    FeesKept round10 db config start listing := by
  intro _ _ priceCents _
  rw [feeInForce, feeInForce, ← LabelDatabase.feeBps_itemFeesOf, ← LabelDatabase.feeBps_itemFeesOf,
    LabelDatabase.feeBps_of_stored db hstored hstart]

end

/-! ## Windows -/

/-- The windows begin at the cursor, end by the stop and follow one another. -/
theorem iterWindowsFrom_ordered {stop window : Int} (hwindow : 0 < window) (fuel : Nat)
    (cursor : Int) :
    (∀ w ∈ iterWindowsFrom stop window fuel cursor, cursor ≤ w.1 ∧ w.2 ≤ stop) ∧
      (iterWindowsFrom stop window fuel cursor).Pairwise fun a b => a.2 ≤ b.1 := by
  induction fuel generalizing cursor with
  | zero => exact ⟨nofun, .nil⟩
  | succ fuel ih =>
      rw [iterWindowsFrom]
      split
      · rename_i hcursor
        obtain ⟨hbounds, hrest⟩ := ih (min (cursor + window) stop)
        refine ⟨fun w hw => ?_, List.pairwise_cons.mpr ⟨fun w hw => (hbounds w hw).1, hrest⟩⟩
        rcases List.mem_cons.mp hw with rfl | hw
        · exact ⟨Int.le_refl _, min_le_right _ _⟩
        · have hnext := hbounds w hw
          omega
      · exact ⟨nofun, .nil⟩

theorem iterWindowsFrom_cover {stop window : Int} (hwindow : 0 < window) {fuel : Nat}
    {cursor t : Int} (hfuel : stop ≤ cursor + window * fuel) (hcursor : cursor ≤ t) (ht : t < stop) :
    ∃ w ∈ iterWindowsFrom stop window fuel cursor, w.1 ≤ t ∧ t < w.2 := by
  induction fuel generalizing cursor with
  | zero => omega
  | succ fuel ih =>
      rw [iterWindowsFrom, if_pos (by omega)]
      by_cases hin : t < min (cursor + window) stop
      · exact ⟨_, List.mem_cons_self, hcursor, hin⟩
      · have hnext : stop ≤ min (cursor + window) stop + window * fuel := by
          have hpos : 0 ≤ window * (fuel : Int) := Int.mul_nonneg hwindow.le (Int.natCast_nonneg _)
          push_cast at hfuel
          rw [Int.mul_add, Int.mul_one] at hfuel
          omega
        obtain ⟨w, hw, hbounds⟩ := ih hnext (by omega)
        exact ⟨w, List.mem_cons_of_mem _ hw, hbounds⟩

/-- One window holds a moment of the range. -/
theorem iterWindows_cover {start stop window t : Int} (hwindow : 0 < window) (hstart : start ≤ t)
    (hstop : t < stop) : ∃ w ∈ iterWindows start stop window, w.1 ≤ t ∧ t < w.2 := by
  refine iterWindowsFrom_cover hwindow ?_ hstart hstop
  have hdiv : 0 ≤ (stop - start) / window := Int.ediv_nonneg (by omega) hwindow.le
  have hrest := Int.lt_ediv_add_one_mul_self (stop - start) hwindow
  rw [Int.toNat_of_nonneg (by omega), Int.mul_comm]
  omega

theorem iterWindows_unique {start stop window t : Int} (hwindow : 0 < window) {v w : Int × Int}
    (hv : v ∈ iterWindows start stop window) (hw : w ∈ iterWindows start stop window)
    (hvt : v.1 ≤ t ∧ t < v.2) (hwt : w.1 ≤ t ∧ t < w.2) : v = w := by
  have hordered : (iterWindows start stop window).Pairwise fun a b => a.2 ≤ b.1 :=
    (iterWindowsFrom_ordered hwindow ((stop - start) / window + 1).toNat start).2
  have hapart : (iterWindows start stop window).Pairwise fun a b => a.2 ≤ b.1 ∨ b.2 ≤ a.1 :=
    hordered.imp fun h => .inl h
  have : Std.Symm fun a b : Int × Int => a.2 ≤ b.1 ∨ b.2 ≤ a.1 := ⟨fun _ _ h => h.symm⟩
  by_contra hne
  rcases hapart.forall hv hw hne with h | h
  · omega
  · omega

/-! ## The rows of a run -/

section
variable {round10 : F → F} {db : LabelDatabase F} {config : LabelConfig}

/-- The rows of a list of events: one for each listing's first sighting among them, up to the
cutoff. -/
theorem labelListings_ok {listed : List (FeedSale F)} {sold : SoldIndex F} {cutoff : Int}
    {fees : Option ItemFees} {rows : List ListingOutcome}
    (h : labelListings round10 listed sold config cutoff fees = .ok rows) :
    (∀ listing, (firstSightingPerListing listed).get? listing.listingId = some listing →
      listing.seenAt ≤ cutoff → ∃ row ∈ rows, labelListing round10 listing sold config fees = .ok row) ∧
    ∀ row ∈ rows, ∃ listing,
      (firstSightingPerListing listed).get? listing.listingId = some listing ∧
        labelListing round10 listing sold config fees = .ok row := by
  rw [labelListings] at h
  cases hrows : ((((firstSightingPerListing listed).items.map Prod.snd).filter fun listing =>
      listing.seenAt ≤ cutoff).mapM fun listing =>
        labelListing round10 listing sold config fees) with
  | error e =>
      rw [hrows] at h
      cases h
  | ok labels =>
      rw [hrows] at h
      cases h
      constructor
      · intro listing hfirst hcutoff
        obtain ⟨row, hrow, hok⟩ := exists_of_mapM_ok hrows (a := listing)
          (List.mem_filter.mpr ⟨mem_values_firstPerKey.mpr hfirst, decide_eq_true hcutoff⟩)
        exact ⟨row, mem_sortOn.mpr hrow, hok⟩
      · intro row hrow
        obtain ⟨listing, hlisting, hok⟩ := (mem_mapM_ok hrows).mp (mem_sortOn.mp hrow)
        exact ⟨listing, mem_values_firstPerKey.mp (List.mem_of_mem_filter hlisting), hok⟩

theorem listedEvents_eq (start stop : Int) : listedEvents db config start stop
    = (listedHistory db config).filter (LabelDatabase.inRange start stop) :=
  sortOn_filter _ _

/-- The row is the only one that the run saves for that sighting of the listing. -/
def OnlyRow (rows : List (List ListingOutcome)) (listing : FeedSale F) (row : ListingOutcome) :
    Prop :=
  row ∈ rows.flatten ∧ ∀ other ∈ rows.flatten,
    other.listingId = listing.listingId → other.listedAt = listing.seenAt → other = row

/-- A run saves one row for the first sighting of a listing in its range: the label it makes. -/
theorem onlyRow_of_run {asOf start stop windowHours : Int} {rows : List (List ListingOutcome)}
    (h : labelListingOutcomes round10 db config asOf start stop windowHours = .ok rows)
    {listing : FeedSale F}
    (hfirst : (firstSightingPerListing (listedHistory db config)).get? listing.listingId
      = some listing)
    (hstart : start ≤ listing.seenAt) (hend : listing.seenAt < runEnd db config asOf stop) :
    ∃ row, runLabel round10 db config asOf start stop listing = .ok row ∧
      OnlyRow rows listing row := by
  rw [labelListingOutcomes] at h
  split at h
  · cases h
  rename_i hhours
  rw [if_neg (by omega)] at h
  have hwindow : 0 < seconds (3600 * windowHours) := by
    unfold seconds
    omega
  obtain ⟨w, hw, hin⟩ := iterWindows_cover hwindow hstart hend
  obtain ⟨saved, hsaved, hlabels⟩ := exists_of_mapM_ok h hw
  have hhere : (firstSightingPerListing (listedEvents db config w.1 w.2)).get? listing.listingId
      = some listing := by
    rw [listedEvents_eq]
    refine get?_firstPerKey_filter_of_pos hfirst ?_
    rw [LabelDatabase.inRange, decide_eq_true hin.1, decide_eq_true hin.2]
    rfl
  have hcutoff : listing.seenAt ≤ latestLabelable asOf config (salesSyncedAt db config) :=
    hend.le.trans (min_le_right _ _)
  obtain ⟨row, hrow, hlabel⟩ := (labelListings_ok hlabels).1 listing hhere hcutoff
  refine ⟨row, hlabel, List.mem_flatten.mpr ⟨saved, hsaved, hrow⟩, fun other hother hid hseen => ?_⟩
  obtain ⟨saved', hsaved', hother⟩ := List.mem_flatten.mp hother
  obtain ⟨v, hv, hlabels'⟩ := (mem_mapM_ok h).mp hsaved'
  obtain ⟨listing', hfirst', hlabel'⟩ := (labelListings_ok hlabels').2 other hother
  obtain ⟨hid', hseen', -⟩ := labelListing_fields hlabel'
  -- the sighting lies in one window, which keeps one sighting of each listing
  have hmem := (key_of_get?_firstPerKey hfirst').1
  rw [listedEvents_eq, List.mem_filter, LabelDatabase.inRange, Bool.and_eq_true,
    decide_eq_true_eq, decide_eq_true_eq] at hmem
  have hsame : v = w := by
    refine iterWindows_unique hwindow hv hw (t := listing.seenAt) ?_ hin
    rw [← hseen, hseen']
    exact hmem.2
  subst hsame
  rw [← hid', hid, hhere] at hfirst'
  cases hfirst'
  rw [hlabel] at hlabel'
  cases hlabel'
  rfl

/-- An item's next listing comes after the listing. -/
theorem lt_nextListedAt {listing : FeedSale F} {t : Int} (h : listing ∈ listedHistory db config)
    (ht : listing.nextListedAt = some t) : listing.seenAt < t := by
  rw [listedHistory, mem_sortOn, List.mem_filterMap] at h
  obtain ⟨row, -, hrow⟩ := h
  rw [LabelDatabase.listingEvent] at hrow
  split at hrow
  · rename_i listingId observedAt _ _
    split at hrow
    · cases hrow
      dsimp only at ht ⊢
      split at ht
      · rw [LabelDatabase.nextListedAt] at ht
        have hmem := List.min?_mem ht
        obtain ⟨later, -, hlater⟩ := List.mem_filterMap.mp hmem
        split at hlater
        · rw [Option.filter_eq_some_iff] at hlater
          exact of_decide_eq_true hlater.2
        · cases hlater
      · cases ht
    · cases hrow
  · cases hrow

/-- What a cut at `start` must keep for the label of a listing. -/
def LabelKept (round10 : F → F) (db : LabelDatabase F) (config : LabelConfig) (start : Int)
    (listing : FeedSale F) : Prop :=
  SalesKept round10 db config start listing ∧ FeesKept round10 db config start listing

/-- A listing's sales are kept exactly if its label reads the same of those from `start` on, and
one of the two comparisons is part of the other wherever the times to sell agree. -/
theorem salesKept_iff {start : Int} {listing : FeedSale F} (hstart : start ≤ listing.seenAt)
    (hnext : ∀ t, listing.nextListedAt = some t → listing.seenAt < t) :
    (soldWithin config listing.seenAt
          (ownSale round10 config listing (.build round10 (soldHistory db config)))
        = soldWithin config listing.seenAt
          (ownSale round10 config listing (.build round10 (since start (soldHistory db config)))) →
      (comparableSales round10 config listing (.build round10 (soldHistory db config))).Sublist
        (comparableSales round10 config listing
          (.build round10 (since start (soldHistory db config)))) ∨
      (comparableSales round10 config listing
          (.build round10 (since start (soldHistory db config)))).Sublist
        (comparableSales round10 config listing (.build round10 (soldHistory db config)))) ∧
    (SalesKept round10 db config start listing ↔ SameReading round10 db config start listing) := by
  rw [SalesKept]
  cases hmode : config.ownSaleByItem with
  | true =>
      obtain ⟨hpart, hiff⟩ := itemSaleKept_iff hmode hstart hnext
      rw [if_pos rfl]
      exact ⟨fun hsold => .inr (hpart hsold), hiff⟩
  | false =>
      rw [if_neg (by simp)]
      exact ⟨fun _ => .inl (comparableSales_sublist hmode hstart), feedSalesKept_iff hmode hstart⟩

/-- A run's label of a listing is the one over the whole history exactly if the cut at its start
keeps the listing's sales and fee. -/
theorem wholeLabel_iff {asOf start stop : Int} {listing : FeedSale F} {row : ListingOutcome}
    (hstart : start ≤ listing.seenAt) (hend : listing.seenAt < runEnd db config asOf stop)
    (hnext : ∀ t, listing.nextListedAt = some t → listing.seenAt < t)
    (h : runLabel round10 db config asOf start stop listing = .ok row) :
    wholeLabel round10 db config listing = .ok row ↔ LabelKept round10 db config start listing := by
  obtain ⟨hpart, hkept⟩ := @salesKept_iff F _ round10 db config start listing hstart hnext
  rw [runLabel_eq hend] at h
  rw [wholeLabel, labelListing_eq_iff hpart (isNone_runFees asOf start stop).symm h, LabelKept,
    hkept, SameReading]
  refine and_congr_right fun hsame => ?_
  obtain ⟨-, -, -, -, hresale⟩ := labelListing_fields h
  rw [hresale]
  rw [resaleAt, ← hsame.1] at hresale
  rw [resaleAt, resaleOf_eq_iff hresale, FeesKept, resalePrices]
  refine forall_congr' fun hitem => ?_
  rw [feeBps_everyBuildsFees hitem, feeBps_runFees hitem hend]

/-- Two runs save the label over the whole history for a sighting, and no other row for it. -/
def LabeledAlike (round10 : F → F) (db : LabelDatabase F) (config : LabelConfig)
    (rows rows' : List (List ListingOutcome)) (listing : FeedSale F) : Prop :=
  ∃ row, wholeLabel round10 db config listing = .ok row ∧ OnlyRow rows listing row ∧
    OnlyRow rows' listing row

/-- Two runs whose ranges include the first sighting of a listing label it alike, as the whole
history does, exactly if both cuts keep its sales and fee. -/
theorem labeledAlike_iff {asOf start stop windowHours asOf' start' stop' windowHours' : Int}
    {rows rows' : List (List ListingOutcome)}
    (h : labelListingOutcomes round10 db config asOf start stop windowHours = .ok rows)
    (h' : labelListingOutcomes round10 db config asOf' start' stop' windowHours' = .ok rows')
    {listing : FeedSale F}
    (hfirst : (firstSightingPerListing (listedHistory db config)).get? listing.listingId
      = some listing)
    (hstart : start ≤ listing.seenAt) (hend : listing.seenAt < runEnd db config asOf stop)
    (hstart' : start' ≤ listing.seenAt) (hend' : listing.seenAt < runEnd db config asOf' stop') :
    LabeledAlike round10 db config rows rows' listing ↔
      LabelKept round10 db config start listing ∧ LabelKept round10 db config start' listing := by
  have hnext : ∀ t, listing.nextListedAt = some t → listing.seenAt < t := fun t ht =>
    lt_nextListedAt (key_of_get?_firstPerKey hfirst).1 ht
  obtain ⟨row, hlabel, honly⟩ := onlyRow_of_run h hfirst hstart hend
  obtain ⟨row', hlabel', honly'⟩ := onlyRow_of_run h' hfirst hstart' hend'
  rw [← wholeLabel_iff hstart hend hnext hlabel, ← wholeLabel_iff hstart' hend' hnext hlabel']
  obtain ⟨hid, hseen, -⟩ := labelListing_fields hlabel
  obtain ⟨hid', hseen', -⟩ := labelListing_fields hlabel'
  constructor
  · rintro ⟨whole, hwhole, hrows, hrows'⟩
    rw [hrows.2 row honly.1 hid hseen, hrows'.2 row' honly'.1 hid' hseen']
    exact ⟨hwhole, hwhole⟩
  · rintro ⟨hwhole, hwhole'⟩
    rw [hwhole] at hwhole'
    cases hwhole'
    exact ⟨row, hwhole, honly, honly'⟩

end

/-- A sale of the knife on the venue. -/
def knifeSold (id : Nat) (priceCents second : Int) : VenueSaleRow Nat :=
  ⟨id, "dmarket", "★ Karambit | Doppler (Factory New) Phase 2", seconds second, priceCents, "offer",
    some 12, some 412⟩

/-- The knife sells thirty seconds before its listing is recorded, and three times more in the
listing's resale window. -/
def knifeSales : List (VenueSaleRow Nat) :=
  [knifeSold 7 90000 172770, knifeSold 8 100000 792000, knifeSold 9 104000 828000,
    knifeSold 10 98000 864000]

theorem nodup_knifeSales : (knifeSales.map VenueSaleRow.id).Nodup := by decide

def knifeDatabase : LabelDatabase Nat where
  ticks := [⟨"dmarket", some "listed", some "o-1", some (seconds 172800),
    "★ Karambit | Doppler (Factory New) Phase 2", 90000, some 12, some 412⟩]
  venueSales := knifeSales
  builds := [⟨"dmarket", seconds 3600, (knifeFee 1 1000).2⟩,
    ⟨"dmarket", seconds 1512000, (knifeFee 420 200).2⟩]
  saleIds := nodup_knifeSales

/-- The label of the knife's listing, sold when it was recorded. -/
def knifeOutcome : ListingOutcome where
  venue := "dmarket"
  listingId := "o-1"
  labelVersion := "v1-dmarket"
  marketHashName := "★ Karambit | Doppler (Factory New) Phase 2"
  listedAt := seconds 172800
  listedPriceCents := 90000
  comparableSales := 3
  resalePriceCents := some 100000
  resaleNetMarginCents := some 0
  isProfitable := some true
  listingSoldWithinS := some 0
  saleCensored := false
  labelAvailableAt := seconds 1382400

theorem wholeLabel_knife :
    wholeLabel id knifeDatabase dmarketLabels (knifeSale "o-1" 90000 48) = .ok knifeOutcome := by
  decide +kernel

/-- The rows of a run that starts before the knife's sale. -/
theorem labelListingOutcomes_knife :
    labelListingOutcomes id knifeDatabase dmarketLabels (seconds 1800000) (seconds 86400)
      (seconds 259200) 24 = .ok [[], [knifeOutcome]] := by
  decide +kernel

theorem labelListingOutcomes_knifeTwoDays :
    labelListingOutcomes id knifeDatabase dmarketLabels (seconds 1800000) 0 (seconds 259200) 48
      = .ok [[], [knifeOutcome]] := by
  decide +kernel

/-- From a start before the item's first sale nothing of the listing's label is cut. -/
theorem labelKept_knife {start : Int} (h : start ≤ seconds 86400) :
    LabelKept id knifeDatabase dmarketLabels start (knifeSale "o-1" 90000 48) := by
  have hstart : start ≤ (knifeSale "o-1" 90000 48).seenAt := h.trans (by decide)
  refine ⟨?_, feesKept_of_stored hstart (by decide)⟩
  rw [SalesKept, if_pos (show dmarketLabels.ownSaleByItem = true from rfl)]
  intro first hfirst hearly
  have hsold : ((itemSales id knifeDatabase dmarketLabels (knifeSale "o-1" 90000 48)).head?).all
      (fun sale => seconds 86400 ≤ sale.seenAt) := by decide +kernel
  rw [hfirst] at hsold
  have hlate := of_decide_eq_true hsold
  omega

/-- Two runs from before the knife's sale, cut otherwise, label it alike. -/
theorem labeledAlike_iff_knife :
    LabeledAlike id knifeDatabase dmarketLabels [[], [knifeOutcome]] [[], [knifeOutcome]]
      (knifeSale "o-1" 90000 48) :=
  (labeledAlike_iff labelListingOutcomes_knife labelListingOutcomes_knifeTwoDays
    (by decide +kernel) (by decide) (by decide +kernel) (by decide) (by decide +kernel)).mpr
    ⟨labelKept_knife (Int.le_refl _), labelKept_knife (by decide)⟩

/-- The run that starts with the knife's listing does not see its sale, thirty seconds before. -/
theorem not_labeledAlike_knife :
    ∃ rows rows', labelListingOutcomes id knifeDatabase dmarketLabels (seconds 1800000)
        (seconds 86400) (seconds 259200) 24 = .ok rows ∧
      labelListingOutcomes id knifeDatabase dmarketLabels (seconds 1800000)
        (seconds 172800) (seconds 259200) 24 = .ok rows' ∧
      seconds 172800 ≤ (knifeSale "o-1" 90000 48).seenAt ∧
      (knifeSale "o-1" 90000 48).seenAt
        < runEnd knifeDatabase dmarketLabels (seconds 1800000) (seconds 259200) ∧
      (firstSightingPerListing (listedHistory knifeDatabase dmarketLabels)).get? "o-1"
        = some (knifeSale "o-1" 90000 48) ∧
      ¬ LabeledAlike id knifeDatabase dmarketLabels rows rows' (knifeSale "o-1" 90000 48) := by
  refine ⟨[[], [knifeOutcome]],
    [[{ knifeOutcome with listingSoldWithinS := none, saleCensored := true }]],
    labelListingOutcomes_knife, by decide +kernel, by decide, by decide +kernel,
    by decide +kernel, ?_⟩
  rintro ⟨row, hwhole, -, hrow, -⟩
  rw [wholeLabel_knife] at hwhole
  cases hwhole
  rw [List.mem_flatten] at hrow
  simp [knifeOutcome] at hrow

end BrandSniper.Labels
