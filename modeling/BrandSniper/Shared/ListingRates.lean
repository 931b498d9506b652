import BrandSniper.Kit.Expiry
import BrandSniper.Kit.OrderedDict
import Mathlib.Data.List.Induction

/-!
# Listing rates

`ListingRateTracker` of `packages/shared_utils/src/shared_utils/features.py`:
how many listings of an item came in the window before a listing. Each item has
a queue of times, which expires at the front as listings come.

What has expired is outside the window of the item's last listing, so of any
later one too (`Tracks`): the length of the queue is the plain count.
-/

namespace BrandSniper

open Kit

/-- A call of `record`. -/
structure RateListing where
  venue : String
  marketHashName : String
  timestamp : Int

namespace RateListing

/-- The key of the item's queue. -/
def item (listing : RateListing) : String × String := (listing.venue, listing.marketHashName)

end RateListing

structure ListingRateTracker where
  windowSeconds : Int
  times : OrderedDict (String × String) (List Int)

namespace ListingRateTracker

def new (windowSeconds : Int) : ListingRateTracker := ⟨windowSeconds, .empty⟩

def queue (tracker : ListingRateTracker) (item : String × String) : List Int :=
  (tracker.times.get? item).getD []

/-- Adds a listing and returns how many of the item's listings came in the window before it. -/
def record (tracker : ListingRateTracker) (listing : RateListing) : ListingRateTracker × Nat :=
  let times := expire (fun first => tracker.windowSeconds ≤ listing.timestamp - first)
    (tracker.queue listing.item)
  ({ tracker with times := tracker.times.set listing.item (times ++ [listing.timestamp]) },
    times.length)

/-- What the calls return, in order. -/
def recordAll (tracker : ListingRateTracker) : List RateListing → List Nat
  | [] => []
  | listing :: rest =>
      (tracker.record listing).2 :: (tracker.record listing).1.recordAll rest

end ListingRateTracker

/-! ## The plain count -/

/-- The listing before comes in the window before the listing. -/
def inRateWindow (windowSeconds : Int) (listing before : RateListing) : Bool :=
  decide (before.item = listing.item) && decide (listing.timestamp - before.timestamp < windowSeconds)

/-- Of every listing, how many before it come in its window. -/
def plainRates (windowSeconds : Int) (before : List RateListing) : List RateListing → List Nat
  | [] => []
  | listing :: rest =>
      before.countP (inRateWindow windowSeconds listing)
        :: plainRates windowSeconds (before ++ [listing]) rest

/-- The times of an item's listings. -/
def itemTimes (listings : List RateListing) (item : String × String) : List Int :=
  (listings.filter fun listing => listing.item = item).map RateListing.timestamp

/-- The times of each item do not decrease. -/
def NondecreasingPerItem (listings : List RateListing) : Prop :=
  listings.Pairwise fun a b => a.item = b.item → a.timestamp ≤ b.timestamp

theorem itemTimes_concat (before : List RateListing) (listing : RateListing)
    (item : String × String) : itemTimes (before ++ [listing]) item
      = if listing.item = item then itemTimes before item ++ [listing.timestamp]
        else itemTimes before item := by
  rw [itemTimes, List.filter_append, List.map_append]
  by_cases hitem : listing.item = item
  · rw [if_pos hitem, List.filter_cons_of_pos (by simpa using hitem)]
    rfl
  · rw [if_neg hitem, List.filter_cons_of_neg (by simpa using hitem), List.filter_nil, List.map_nil,
      List.append_nil]
    rfl

theorem countP_inRateWindow (windowSeconds : Int) (before : List RateListing)
    (listing : RateListing) : before.countP (inRateWindow windowSeconds listing)
      = ((itemTimes before listing.item).filter
          fun t => !decide (windowSeconds ≤ listing.timestamp - t)).length := by
  rw [itemTimes, List.filter_map, List.length_map, List.countP_eq_length_filter, List.filter_filter]
  congr 2
  funext other
  rw [inRateWindow, Bool.and_comm]
  congr 1
  show decide _ = !decide (windowSeconds ≤ listing.timestamp - other.timestamp)
  rw [← decide_not]
  exact decide_eq_decide.mpr Int.not_le.symm

/-! ## What the queues hold -/

namespace ListingRateTracker

/-- An item's queue holds its last listings, and those that are gone are outside the window of the
last one. -/
structure Tracks (tracker : ListingRateTracker) (before : List RateListing) : Prop where
  queues : ∀ item, ∃ gone, itemTimes before item = gone ++ tracker.queue item ∧
    ∀ t ∈ gone, ∀ last, (itemTimes before item).getLast? = some last →
      tracker.windowSeconds ≤ last - t

theorem tracks_new (windowSeconds : Int) : (new windowSeconds).Tracks [] where
  queues := fun _ => ⟨[], rfl, List.forall_mem_nil _⟩

/-- Before the next listing of an item, its queue is sorted, and what is gone is outside the window
of that listing. -/
theorem Tracks.outside {tracker : ListingRateTracker} {before : List RateListing}
    (h : tracker.Tracks before) {listing : RateListing}
    (hsorted : NondecreasingPerItem (before ++ [listing])) :
    ∃ gone, itemTimes before listing.item = gone ++ tracker.queue listing.item ∧
      (tracker.queue listing.item).Pairwise (· ≤ ·) ∧
      ∀ t ∈ gone, tracker.windowSeconds ≤ listing.timestamp - t := by
  obtain ⟨gone, hsplit, hgone⟩ := h.queues listing.item
  have hpairs : (itemTimes before listing.item ++ [listing.timestamp]).Pairwise (· ≤ ·) := by
    have hfiltered := hsorted.filter fun other => other.item = listing.item
    have htimes := itemTimes_concat before listing listing.item
    rw [if_pos rfl] at htimes
    rw [← htimes, itemTimes, List.pairwise_map]
    refine hfiltered.imp_of_mem fun {a b} ha hb hle => hle ?_
    rw [of_decide_eq_true (List.mem_filter.mp ha).2, of_decide_eq_true (List.mem_filter.mp hb).2]
  obtain ⟨htimes, -, hlast⟩ := List.pairwise_append.mp hpairs
  refine ⟨gone, hsplit, ?_, fun t ht => ?_⟩
  · rw [hsplit] at htimes
    exact (List.pairwise_append.mp htimes).2.1
  · cases hend : (itemTimes before listing.item).getLast? with
    | none =>
        rw [List.getLast?_eq_none_iff.mp hend] at hsplit
        rw [(List.append_eq_nil_iff.mp hsplit.symm).1] at ht
        cases ht
    | some last =>
        have hle := hlast last (List.mem_of_getLast? hend) _ (List.mem_singleton_self _)
        have hwindow := hgone t ht last hend
        omega

/-- A call returns the plain count. -/
theorem Tracks.record_count {tracker : ListingRateTracker} {before : List RateListing}
    (h : tracker.Tracks before) {listing : RateListing}
    (hsorted : NondecreasingPerItem (before ++ [listing])) :
    (tracker.record listing).2 = before.countP (inRateWindow tracker.windowSeconds listing) := by
  obtain ⟨gone, hsplit, hqueue, hout⟩ := h.outside hsorted
  have hgone : gone.filter (fun t => !decide (tracker.windowSeconds ≤ listing.timestamp - t)) = [] := by
    rw [List.filter_eq_nil_iff]
    intro t ht
    simpa using hout t ht
  have hexpire : expire (fun first => tracker.windowSeconds ≤ listing.timestamp - first)
      (tracker.queue listing.item) = (tracker.queue listing.item).filter
        fun t => !decide (tracker.windowSeconds ≤ listing.timestamp - t) := by
    refine expire_eq_filter (hqueue.imp fun {a b} hab ha => ?_)
    rw [decide_eq_false_iff_not] at ha ⊢
    omega
  rw [countP_inRateWindow, hsplit, List.filter_append, hgone, List.nil_append, ← hexpire]
  rfl

theorem queue_record (tracker : ListingRateTracker) (listing : RateListing) (item : String × String) :
    (tracker.record listing).1.queue item
      = if listing.item = item then expire
          (fun first => tracker.windowSeconds ≤ listing.timestamp - first)
          (tracker.queue listing.item) ++ [listing.timestamp]
        else tracker.queue item := by
  rw [queue, record]
  dsimp only
  rw [OrderedDict.get?_set]
  split <;> rfl

theorem Tracks.record {tracker : ListingRateTracker} {before : List RateListing}
    (h : tracker.Tracks before) {listing : RateListing}
    (hsorted : NondecreasingPerItem (before ++ [listing])) :
    (tracker.record listing).1.Tracks (before ++ [listing]) where
  queues := by
    intro item
    rw [itemTimes_concat, queue_record]
    by_cases hitem : listing.item = item
    · subst hitem
      obtain ⟨gone, hsplit, -, hout⟩ := h.outside hsorted
      obtain ⟨expired, hqueue, hexpired⟩ := expire_split
        (fun first => tracker.windowSeconds ≤ listing.timestamp - first) (tracker.queue listing.item)
      rw [if_pos rfl, if_pos rfl]
      refine ⟨gone ++ expired, ?_, fun t ht last hlast => ?_⟩
      · rw [hsplit, List.append_assoc gone expired, ← List.append_assoc expired, ← hqueue,
          List.append_assoc]
      · rw [List.getLast?_concat] at hlast
        obtain rfl := Option.some.inj hlast
        rcases List.mem_append.mp ht with hold | hnew
        · exact hout t hold
        · exact of_decide_eq_true (hexpired t hnew)
    · rw [if_neg hitem, if_neg hitem]
      exact h.queues item

theorem Tracks.recordAll {listings before : List RateListing} {tracker : ListingRateTracker}
    (h : tracker.Tracks before) (hsorted : NondecreasingPerItem (before ++ listings)) :
    tracker.recordAll listings = plainRates tracker.windowSeconds before listings := by
  induction listings generalizing tracker before with
  | nil => rfl
  | cons listing rest ih =>
      have hassoc : before ++ listing :: rest = before ++ [listing] ++ rest := by simp
      rw [hassoc] at hsorted
      have hfirst : NondecreasingPerItem (before ++ [listing]) := (List.pairwise_append.mp hsorted).1
      rw [ListingRateTracker.recordAll, plainRates, h.record_count hfirst, ih (h.record hfirst) hsorted]
      rfl

/-- Where the times of each item do not decrease, every call returns the plain count. -/
theorem recordAll_eq_plainRates (windowSeconds : Int) {listings : List RateListing}
    (h : NondecreasingPerItem listings) :
    (new windowSeconds).recordAll listings = plainRates windowSeconds [] listings :=
  (tracks_new windowSeconds).recordAll h

/-- Two listings of an item in one second, one at the edge of their window, one of another item. -/
def edgeListings : List RateListing :=
  [⟨"skinport", "AK-47 | Redline", 100⟩, ⟨"skinport", "AK-47 | Redline", 100⟩,
    ⟨"waxpeer", "AK-47 | Redline", 90⟩, ⟨"skinport", "AK-47 | Redline", 3699⟩,
    ⟨"skinport", "AK-47 | Redline", 3700⟩]

theorem recordAll_eq_plainRates_edgeListings :
    (new 3600).recordAll edgeListings = plainRates 3600 [] edgeListings ∧
      (new 3600).recordAll edgeListings = [0, 1, 0, 2, 1] :=
  ⟨recordAll_eq_plainRates 3600 (by unfold NondecreasingPerItem; decide), by decide⟩

end ListingRateTracker

end BrandSniper
