import Mathlib.Data.Finset.Lattice.Fold
import Mathlib.Data.List.Sort
import Mathlib.Data.String.Basic
import BrandSniper.Kit.OrderedDict
import BrandSniper.Kit.Runs

/-!
# The DMarket listing poller

`ListingPoller` of `apps/listener/scrapers/dmarket.py`: a live poll of the
newest pages, and pages back through the stretches not read yet.

The methods run in a state monad whose exceptions keep the state, so what a
failing call has assigned before the fetch raised stays assigned. A fetch is
a function of the request's number within the call and of its cursor.

A set is iterated in whatever order Python likes (`SetOrder`).
-/

namespace BrandSniper.Dmarket

open Kit

/-- `LIVE_OVERLAP_MS` -/
def liveOverlapMs : Int := 5000

/-- `LIVE_MAX_PAGES` -/
def liveMaxPages : Nat := 10

/-- `RESUME_OVERLAP_MS` -/
def resumeOverlapMs : Int := 120000

structure DMarketOffer where
  offerId : String
  createdAtMs : Int
  deriving DecidableEq

structure OffersPage (ε : Type) where
  entries : List ε
  /-- The cursor of the next page. -/
  cursor : Option String

structure CatchUpGap where
  cursor : String
  untilMs : Int
  skipIds : Finset String
  deriving DecidableEq

structure ResumePoint where
  newestMs : Int
  recordedIds : Finset String
  gaps : List CatchUpGap
  deriving DecidableEq

/-- The order a set of texts is iterated in. -/
structure SetOrder where
  iter : Finset String → List String
  mem_iter : ∀ s x, x ∈ iter s ↔ x ∈ s
  nodup : ∀ s, (iter s).Nodup

/-- `sorted(ids)` -/
def sortedIds (ids : Finset String) : List String :=
  Quot.liftOn ids.val (fun l => l.insertionSort (· ≤ ·)) fun _ _ hperm =>
    ((List.perm_insertionSort _ _).trans
      (hperm.trans (List.perm_insertionSort _ _).symm)).eq_of_pairwise'
      (List.pairwise_insertionSort _ _) (List.pairwise_insertionSort _ _)

theorem coe_sortedIds (ids : Finset String) : (sortedIds ids : Multiset String) = ids.val := by
  obtain ⟨val, hnodup⟩ := ids
  induction val using Quot.inductionOn with
  | h l => exact Quot.sound (List.perm_insertionSort _ l)

theorem mem_sortedIds (ids : Finset String) (x : String) : x ∈ sortedIds ids ↔ x ∈ ids := by
  rw [← Multiset.mem_coe, coe_sortedIds, Finset.mem_val]

theorem nodup_sortedIds (ids : Finset String) : (sortedIds ids).Nodup := by
  rw [← Multiset.coe_nodup, coe_sortedIds]
  exact ids.nodup

def SetOrder.sorted : SetOrder := ⟨sortedIds, mem_sortedIds, nodup_sortedIds⟩

/-- What a poll returns of an entry: its offer if it parses, and when its page arrived. -/
structure ReadEntry (ε : Type) where
  offer : Option DMarketOffer
  entry : ε
  receivedAtMs : Int

structure ListingPoller where
  newestMs : Option Int
  gaps : List CatchUpGap
  nextFloorMs : Option Int
  seen : OrderedDict String Unit
  maxSeen : Nat
  recorded : OrderedDict String Int

inductive FetchError where
  | raised

abbrev PollM := EStateM FetchError ListingPoller

/-- The page that answers the request of this number with this cursor, and when it arrives;
nothing if the request raises. -/
abbrev Fetch (ε : Type) := Nat → Option String → Option (OffersPage ε × Int)

/-- `remaining_ms`, for the creation times cursors point at -/
def CatchUpGap.remainingMs (position : String → Option Int) (gap : CatchUpGap) : Int :=
  match position gap.cursor with
  | some created => max 0 (created - gap.untilMs)
  | none => 0

namespace ListingPoller

/-- `ListingPoller(max_seen)` -/
def new (maxSeen : Nat) : ListingPoller := ⟨none, [], none, .empty, maxSeen, .empty⟩

def started (p : ListingPoller) : Bool := p.nextFloorMs.isSome || p.newestMs.isSome

def remember (p : ListingPoller) (listingId : String) : ListingPoller :=
  { p with seen := ((p.seen.set listingId ()).moveToEnd listingId).trim p.maxSeen }

/-- `_recorded[listing_id] = created` -/
def record (p : ListingPoller) (listingId : String) (created : Int) : ListingPoller :=
  { p with recorded := p.recorded.set listingId created }

/-- A gap of the resume point, not below the oldest time allowed. -/
def clipGap (oldestAllowedMs : Int) (gap : CatchUpGap) : CatchUpGap :=
  if gap.untilMs < oldestAllowedMs then { gap with untilMs := oldestAllowedMs } else gap

def resumeFrom (order : SetOrder) (position : String → Option Int) (point : ResumePoint)
    (nowMs maxCatchUpMs : Int) (p : ListingPoller) : ListingPoller :=
  let oldestAllowedMs := nowMs - maxCatchUpMs
  let p := { p with nextFloorMs := some (max (point.newestMs - resumeOverlapMs) oldestAllowedMs) }
  let p := (order.iter point.recordedIds).foldl
    (fun p listingId => (p.remember listingId).record listingId point.newestMs) p
  { p with gaps := p.gaps ++ (point.gaps.map (clipGap oldestAllowedMs)).filter fun gap =>
      0 < gap.remainingMs position }

/-- `_take_unseen`: the offer is remembered when it is read for the first time. -/
def takeUnseen (p : ListingPoller) (offer : DMarketOffer) (skipIds : Finset String) :
    Bool × ListingPoller :=
  if p.seen.contains offer.offerId || offer.offerId ∈ skipIds then (false, p)
  else (true, p.remember offer.offerId)

def noteRecorded (p : ListingPoller) (offer : DMarketOffer) : ListingPoller :=
  p.record offer.offerId offer.createdAtMs

/-- What `resume_document` drops before it writes the rest. -/
def dropOldRecorded (p : ListingPoller) : ListingPoller :=
  match p.newestMs with
  | none => p
  | some newest =>
      { p with recorded := p.recorded.filter fun kv => newest - resumeOverlapMs ≤ kv.2 }

end ListingPoller

section
variable {ε : Type} (parseOffer : ε → Option DMarketOffer)

/-! ## The live poll -/

/-- The local variables of a live poll. -/
structure LiveWalk (ε : Type) where
  newestMs : Option Int
  read : List (ReadEntry ε)
  readIds : Finset String
  /-- Oldest creation time on the page. -/
  oldestMs : Option Int

/-- One entry of a page of the live poll. -/
def readLive (floorMs : Option Int) (seen : OrderedDict String Unit) (receivedAtMs : Int)
    (walk : LiveWalk ε) (entry : ε) : LiveWalk ε :=
  match parseOffer entry with
  | none => { walk with read := walk.read ++ [⟨none, entry, receivedAtMs⟩] }
  | some offer =>
      let created := offer.createdAtMs
      let walk := { walk with
        oldestMs := some (walk.oldestMs.elim created fun oldest => min oldest created)
        newestMs := some (walk.newestMs.elim created fun newest => max newest created) }
      if floorMs.any fun floor => created < floor then walk
      else if seen.contains offer.offerId || offer.offerId ∈ walk.readIds then walk
      else { walk with
        readIds := insert offer.offerId walk.readIds
        read := walk.read ++ [⟨some offer, entry, receivedAtMs⟩] }

/-- Whether the live poll stops after a page. -/
def stopsAt (floorMs : Option Int) (cursor : Option String) (oldestMs : Option Int) : Bool :=
  match floorMs, cursor, oldestMs with
  | some floor, some _, some oldest => oldest < floor
  | _, _, _ => true

/-- The pages of a live poll, as many as are left: nothing if a fetch raises. The cursor is that
of the last page when the poll fell behind. -/
def livePages (fetch : Fetch ε) (floorMs : Option Int) (seen : OrderedDict String Unit) :
    Nat → Option String → LiveWalk ε → Option (LiveWalk ε × Option String)
  | 0, cursor, walk => some (walk, cursor)
  | left + 1, cursor, walk =>
      (fetch (liveMaxPages - (left + 1)) cursor).bind fun (page, receivedAtMs) =>
        let walk := page.entries.foldl (readLive parseOffer floorMs seen receivedAtMs)
          { walk with oldestMs := none }
        if stopsAt floorMs page.cursor walk.oldestMs then some (walk, none)
        else livePages fetch floorMs seen left page.cursor walk

/-- The gap of a poll that fell behind. -/
def behindGap (recorded : OrderedDict String Int) (cursor : String) (floorMs : Int) : CatchUpGap where
  cursor := cursor
  untilMs := floorMs
  skipIds := (recorded.filter fun kv => floorMs ≤ kv.2).keys.toFinset

/-- Oldest first; what did not parse comes before everything else. -/
def createdOrder (a b : ReadEntry ε) : Prop :=
  a.offer.elim 0 DMarketOffer.createdAtMs ≤ b.offer.elim 0 DMarketOffer.createdAtMs

instance : DecidableRel (createdOrder (ε := ε)) := fun _ _ => inferInstanceAs (Decidable (_ ≤ _))

def livePoll (order : SetOrder) (fetch : Fetch ε) : PollM (List (ReadEntry ε)) := do
  let p ← get
  let floorMs := p.nextFloorMs
  match livePages parseOffer fetch floorMs p.seen liveMaxPages none ⟨p.newestMs, [], ∅, none⟩ with
  | none => throw .raised
  | some (walk, behind) =>
      match behind, floorMs with
      | some cursor, some floor =>
          modify fun p => { p with gaps := p.gaps ++ [behindGap p.recorded cursor floor] }
      | _, _ => pure ()
      -- only a poll whose pages all arrived moves the poller on
      modify fun p => (order.iter walk.readIds).foldl ListingPoller.remember p
      modify fun p => { p with newestMs := walk.newestMs }
      match walk.newestMs with
      | some newest => modify fun p => { p with nextFloorMs := some (newest - liveOverlapMs) }
      | none => pure ()
      return walk.read.insertionSort createdOrder

/-! ## Catching up -/

/-- The local variables of a page of catching up. -/
structure GapWalk (ε : Type) where
  poller : ListingPoller
  read : List (ReadEntry ε)
  reachedEnd : Bool

/-- One entry of a page of a gap. -/
def readGap (gap : CatchUpGap) (receivedAtMs : Int) (walk : GapWalk ε) (entry : ε) : GapWalk ε :=
  match parseOffer entry with
  | none => { walk with read := walk.read ++ [⟨none, entry, receivedAtMs⟩] }
  | some offer =>
      if offer.createdAtMs < gap.untilMs then { walk with reachedEnd := true }
      else
        match walk.poller.takeUnseen offer gap.skipIds with
        | (false, _) => walk
        | (true, p) =>
            { walk with poller := p, read := walk.read ++ [⟨some offer, entry, receivedAtMs⟩] }

/-- The gaps after a page of the first. -/
def advanceGap (gap : CatchUpGap) (rest : List CatchUpGap) (reachedEnd : Bool)
    (cursor : Option String) : List CatchUpGap :=
  match reachedEnd, cursor with
  | false, some next => { gap with cursor := next } :: rest
  | _, _ => rest

def catchUpPage (fetch : Fetch ε) : PollM (List (ReadEntry ε)) := do
  let p ← get
  match p.gaps with
  | [] => return []
  | gap :: rest =>
      match fetch 0 (some gap.cursor) with
      | none => throw .raised
      | some (page, receivedAtMs) =>
          let walk := page.entries.foldl (readGap parseOffer gap receivedAtMs)
            ⟨p, [], page.cursor.isNone || page.entries.isEmpty⟩
          set { walk.poller with gaps := advanceGap gap rest walk.reachedEnd page.cursor }
          return walk.read

/-! ## What the calls do -/

/-- The poller after a live poll whose pages all arrived. -/
def moveOn (order : SetOrder) (p : ListingPoller) (walk : LiveWalk ε) (behind : Option String) :
    ListingPoller where
  newestMs := walk.newestMs
  gaps :=
    match behind, p.nextFloorMs with
    | some cursor, some floor => p.gaps ++ [behindGap p.recorded cursor floor]
    | _, _ => p.gaps
  nextFloorMs := walk.newestMs.elim p.nextFloorMs fun newest => some (newest - liveOverlapMs)
  seen := ((order.iter walk.readIds).foldl ListingPoller.remember p).seen
  maxSeen := p.maxSeen
  recorded := p.recorded

/-- Remembering listings touches nothing else. -/
theorem foldl_remember (ids : List String) (p : ListingPoller) :
    ids.foldl ListingPoller.remember p
      = { p with seen := (ids.foldl ListingPoller.remember p).seen } := by
  induction ids generalizing p with
  | nil => rfl
  | cons listingId rest ih => exact ih (p.remember listingId)

theorem seen_foldl_remember_congr (ids : List String) {p q : ListingPoller} (hseen : p.seen = q.seen)
    (hmax : p.maxSeen = q.maxSeen) :
    (ids.foldl ListingPoller.remember p).seen = (ids.foldl ListingPoller.remember q).seen := by
  induction ids generalizing p q with
  | nil => exact hseen
  | cons listingId rest ih =>
      refine ih ?_ hmax
      rw [ListingPoller.remember, ListingPoller.remember, hseen, hmax]

theorem bind_get {α : Type} (body : ListingPoller → PollM α) (p : ListingPoller) :
    (get >>= body : PollM α) p = body p p := rfl

theorem livePoll_eq (order : SetOrder) (fetch : Fetch ε) (p : ListingPoller) :
    livePoll parseOffer order fetch p
      = match livePages parseOffer fetch p.nextFloorMs p.seen liveMaxPages none
            ⟨p.newestMs, [], ∅, none⟩ with
        | none => .error .raised p
        | some (walk, behind) =>
            .ok (walk.read.insertionSort createdOrder) (moveOn order p walk behind) := by
  rw [livePoll, bind_get]
  cases hpages : livePages parseOffer fetch p.nextFloorMs p.seen liveMaxPages none
      ⟨p.newestMs, [], ∅, none⟩ with
  | none => rfl
  | some result =>
      obtain ⟨walk, behind⟩ := result
      have hmove : ∀ gaps, (order.iter walk.readIds).foldl ListingPoller.remember
          { p with gaps := gaps }
            = { p with gaps := gaps
                       seen := ((order.iter walk.readIds).foldl ListingPoller.remember p).seen } := by
        intro gaps
        rw [foldl_remember, seen_foldl_remember_congr (p := { p with gaps := gaps }) (q := p) _ rfl rfl]
      have hend : ∀ q : ListingPoller, q = (order.iter walk.readIds).foldl ListingPoller.remember
            { p with gaps := (moveOn order p walk behind).gaps } →
          EStateM.bind (modify fun p : ListingPoller => { p with newestMs := walk.newestMs })
            (fun _ => match walk.newestMs with
              | some newest => EStateM.bind
                  (modify fun p : ListingPoller =>
                    { p with nextFloorMs := some (newest - liveOverlapMs) })
                  fun _ => pure (walk.read.insertionSort createdOrder)
              | none => (pure (walk.read.insertionSort createdOrder) : PollM _)) q
            = .ok (walk.read.insertionSort createdOrder) (moveOn order p walk behind) := by
        intro q hq
        rw [hmove] at hq
        subst hq
        cases hnewest : walk.newestMs with
        | none => simp only [moveOn, hnewest]; rfl
        | some newest => simp only [moveOn, hnewest]; rfl
      cases behind with
      | none => exact hend _ rfl
      | some cursor =>
          cases hfloor : p.nextFloorMs with
          | none =>
              have hgaps : (moveOn order p walk (some cursor)).gaps = p.gaps := by
                simp only [moveOn, hfloor]
              exact hend _ (by rw [hgaps])
          | some floor =>
              have hgaps : (moveOn order p walk (some cursor)).gaps
                  = p.gaps ++ [behindGap p.recorded cursor floor] := by
                simp only [moveOn, hfloor]
              exact hend _ (by rw [hgaps])

theorem catchUpPage_eq (fetch : Fetch ε) (p : ListingPoller) :
    catchUpPage parseOffer fetch p
      = match p.gaps with
        | [] => .ok [] p
        | gap :: rest =>
            match fetch 0 (some gap.cursor) with
            | none => .error .raised p
            | some (page, receivedAtMs) =>
                let walk := page.entries.foldl (readGap parseOffer gap receivedAtMs)
                  ⟨p, [], page.cursor.isNone || page.entries.isEmpty⟩
                .ok walk.read
                  { walk.poller with gaps := advanceGap gap rest walk.reachedEnd page.cursor } := by
  rw [catchUpPage, bind_get]
  cases hgaps : p.gaps with
  | nil => rfl
  | cons gap rest =>
      cases hpage : fetch 0 (some gap.cursor) with
      | none => simp only [hpage]; rfl
      | some answer => simp only [hpage]; rfl

/-- The offer ids a call returns. -/
def offerIds (read : List (ReadEntry ε)) : List String :=
  read.filterMap fun item => item.offer.map DMarketOffer.offerId

theorem offerIds_append (a b : List (ReadEntry ε)) :
    offerIds (a ++ b) = offerIds a ++ offerIds b := List.filterMap_append

/-! ## What a live poll reads -/

/-- The listings a live poll has read are those it has not seen, each once. -/
structure LiveWalk.Fresh (seen : OrderedDict String Unit) (walk : LiveWalk ε) : Prop where
  nodup : (offerIds walk.read).Nodup
  mem_iff : ∀ x, x ∈ offerIds walk.read ↔ x ∈ walk.readIds
  unseen : ∀ x ∈ walk.readIds, seen.contains x = false

theorem readLive_fresh {floorMs : Option Int} {seen : OrderedDict String Unit} {receivedAtMs : Int}
    {walk : LiveWalk ε} (h : walk.Fresh seen) (entry : ε) :
    (readLive parseOffer floorMs seen receivedAtMs walk entry).Fresh seen := by
  unfold readLive
  split
  · refine ⟨?_, ?_, h.unseen⟩
    · rw [offerIds_append]
      simpa [offerIds] using h.nodup
    · intro x
      rw [offerIds_append, List.mem_append]
      simpa [offerIds] using h.mem_iff x
  · rename_i offer hoffer
    dsimp only
    split
    · exact ⟨h.nodup, h.mem_iff, h.unseen⟩
    · split
      · exact ⟨h.nodup, h.mem_iff, h.unseen⟩
      · rename_i hnew
        simp only [Bool.or_eq_true, decide_eq_true_eq, not_or, Bool.not_eq_true] at hnew
        have hsingle : offerIds [(⟨some offer, entry, receivedAtMs⟩ : ReadEntry ε)]
            = [offer.offerId] := rfl
        refine ⟨?_, ?_, ?_⟩
        · rw [offerIds_append, hsingle]
          refine List.nodup_append.mpr ⟨h.nodup, List.nodup_singleton _, fun x hx y hy => ?_⟩
          rw [List.mem_singleton.mp hy]
          intro heq
          exact hnew.2 (heq ▸ (h.mem_iff x).mp hx)
        · intro x
          rw [offerIds_append, hsingle, List.mem_append, List.mem_singleton, Finset.mem_insert,
            h.mem_iff, or_comm]
        · intro x hx
          rcases Finset.mem_insert.mp hx with rfl | hx
          · exact hnew.1
          · exact h.unseen x hx

theorem foldl_readLive_fresh {floorMs : Option Int} {seen : OrderedDict String Unit}
    {receivedAtMs : Int} (entries : List ε) {walk : LiveWalk ε} (h : walk.Fresh seen) :
    (entries.foldl (readLive parseOffer floorMs seen receivedAtMs) walk).Fresh seen := by
  induction entries generalizing walk with
  | nil => exact h
  | cons entry rest ih => exact ih (readLive_fresh parseOffer h entry)

theorem livePages_fresh {fetch : Fetch ε} {floorMs : Option Int} {seen : OrderedDict String Unit}
    {left : Nat} {cursor : Option String} {walk : LiveWalk ε} {result : LiveWalk ε × Option String}
    (h : walk.Fresh seen)
    (hpages : livePages parseOffer fetch floorMs seen left cursor walk = some result) :
    result.1.Fresh seen := by
  induction left generalizing cursor walk with
  | zero =>
      cases hpages
      exact h
  | succ left ih =>
      obtain ⟨⟨page, receivedAtMs⟩, hfetch, hrest⟩ := Option.bind_eq_some_iff.mp hpages
      have hpage : (page.entries.foldl (readLive parseOffer floorMs seen receivedAtMs)
          { walk with oldestMs := none }).Fresh seen :=
        foldl_readLive_fresh parseOffer page.entries ⟨h.nodup, h.mem_iff, h.unseen⟩
      dsimp only at hrest
      split at hrest
      · cases hrest
        exact hpage
      · exact ih hpage hrest

theorem fresh_nil (seen : OrderedDict String Unit) (newestMs oldestMs : Option Int) :
    (⟨newestMs, [], ∅, oldestMs⟩ : LiveWalk ε).Fresh seen where
  nodup := List.nodup_nil
  mem_iff := by
    intro x
    exact ⟨fun hx => absurd hx List.not_mem_nil, fun hx => absurd hx (Finset.notMem_empty x)⟩
  unseen := fun x hx => absurd hx (Finset.notMem_empty x)

/-! ## The listings seen -/

/-- The listings returned are the last ones seen, as long as they are not too many. -/
def Keeps (p : ListingPoller) (returned : List String) : Prop :=
  returned.toFinset.card ≤ p.maxSeen →
    ∃ before last, p.seen.keys = before ++ last ∧ last.Perm returned

theorem keeps_nil (p : ListingPoller) : Keeps p [] :=
  fun _ => ⟨p.seen.keys, [], (List.append_nil _).symm, List.Perm.refl _⟩

theorem Keeps.nodup {p : ListingPoller} {returned : List String} (h : Keeps p returned)
    (hcard : returned.toFinset.card ≤ p.maxSeen) : returned.Nodup := by
  obtain ⟨before, last, hkeys, hperm⟩ := h hcard
  have hnodup : p.seen.keys.Nodup := p.seen.nodupKeys
  rw [hkeys] at hnodup
  exact hperm.nodup_iff.mp (List.nodup_append.mp hnodup).2.1

theorem Keeps.perm {p : ListingPoller} {a b : List String} (h : Keeps p a) (hperm : a.Perm b) :
    Keeps p b := by
  intro hcard
  rw [← List.toFinset_eq_of_perm _ _ hperm] at hcard
  obtain ⟨before, last, hkeys, hlast⟩ := h hcard
  exact ⟨before, last, hkeys, hlast.trans hperm⟩

theorem Keeps.congr {p q : ListingPoller} {returned : List String} (h : Keeps p returned)
    (hseen : q.seen = p.seen) (hmax : q.maxSeen = p.maxSeen) : Keeps q returned := by
  unfold Keeps
  rw [hseen, hmax]
  exact h

theorem keys_seen_remember {p : ListingPoller} {listingId : String}
    (h : p.seen.contains listingId = false) :
    (p.remember listingId).seen.keys
      = (p.seen.keys ++ [listingId]).drop (p.seen.keys.length + 1 - p.maxSeen) := by
  have hnot : listingId ∉ p.seen.keys := by
    intro hmem
    rw [OrderedDict.contains_iff_mem.mpr hmem] at h
    cases h
  have hset : (p.seen.set listingId ()).keys = p.seen.keys ++ [listingId] := by
    rw [OrderedDict.keys_set, if_neg hnot]
  have hmoved : ((p.seen.set listingId ()).moveToEnd listingId).keys = p.seen.keys ++ [listingId] := by
    rw [OrderedDict.keys_moveToEnd _ (by rw [hset]; simp), hset, List.filter_append]
    have hsame : (p.seen.keys.filter fun k => k ≠ listingId) = p.seen.keys :=
      List.filter_eq_self.mpr fun k hk => by
        simp only [ne_eq, decide_not, Bool.not_eq_eq_eq_not, Bool.not_true, decide_eq_false_iff_not]
        exact fun heq => hnot (heq ▸ hk)
    rw [hsame]
    simp
  rw [ListingPoller.remember, OrderedDict.keys_trim, hmoved, List.length_append,
    List.length_singleton]

/-- A listing read for the first time is kept as the newest one. -/
theorem Keeps.remember {p : ListingPoller} {returned : List String} (h : Keeps p returned)
    {listingId : String} (hnew : p.seen.contains listingId = false) :
    Keeps (p.remember listingId) (returned ++ [listingId]) := by
  intro hcard
  have hmono : returned.toFinset.card ≤ (returned ++ [listingId]).toFinset.card :=
    Finset.card_le_card (by rw [List.toFinset_append]; exact Finset.subset_union_left)
  have hcard' : returned.toFinset.card ≤ p.maxSeen := hmono.trans hcard
  obtain ⟨before, last, hkeys, hperm⟩ := h hcard'
  have hnot : listingId ∉ returned := by
    intro hmem
    have hkey : listingId ∈ p.seen.keys := by
      rw [hkeys]
      exact List.mem_append_right _ (hperm.mem_iff.mpr hmem)
    rw [OrderedDict.contains_iff_mem.mpr hkey] at hnew
    cases hnew
  have hnodup : (returned ++ [listingId]).Nodup :=
    List.nodup_append.mpr ⟨h.nodup hcard', List.nodup_singleton _, fun x hx y hy => by
      rw [List.mem_singleton.mp hy]; exact fun heq => hnot (heq ▸ hx)⟩
  rw [List.toFinset_card_of_nodup hnodup, List.length_append, List.length_singleton,
    ← hperm.length_eq] at hcard
  have hroom : last.length + 1 ≤ p.maxSeen := hcard
  refine ⟨before.drop (p.seen.keys.length + 1 - p.maxSeen), last ++ [listingId], ?_,
    hperm.append_right _⟩
  have hdrop : p.seen.keys.length + 1 - p.maxSeen ≤ before.length := by
    rw [hkeys, List.length_append]
    omega
  rw [keys_seen_remember hnew, hkeys, List.append_assoc,
    List.drop_append_of_le_length (by rwa [hkeys] at hdrop)]

/-- What is seen after a listing was remembered was seen before, or is that listing. -/
theorem contains_seen_of_remember {p : ListingPoller} {listingId x : String}
    (h : (p.remember listingId).seen.contains x = true) :
    x = listingId ∨ p.seen.contains x = true := by
  have hkey : x ∈ (p.remember listingId).seen.keys := OrderedDict.contains_iff_mem.mp h
  rw [ListingPoller.remember, OrderedDict.keys_trim] at hkey
  have hmoved := OrderedDict.contains_iff_mem.mpr ((List.drop_subset _ _) hkey)
  rw [OrderedDict.contains, OrderedDict.get?_moveToEnd, ← OrderedDict.contains,
    OrderedDict.contains_set, Bool.or_eq_true, decide_eq_true_eq] at hmoved
  exact hmoved.imp_left Eq.symm

theorem contains_seen_of_foldl_remember {ids : List String} {p : ListingPoller} {x : String}
    (h : (ids.foldl ListingPoller.remember p).seen.contains x = true) :
    x ∈ ids ∨ p.seen.contains x = true := by
  induction ids generalizing p with
  | nil => exact .inr h
  | cons listingId rest ih =>
      rcases ih h with hrest | hseen
      · exact .inl (List.mem_cons_of_mem _ hrest)
      · rcases contains_seen_of_remember hseen with rfl | hseen
        · exact .inl List.mem_cons_self
        · exact .inr hseen

theorem Keeps.foldl_remember {ids : List String} {p : ListingPoller} {returned : List String}
    (h : Keeps p returned) (hnodup : ids.Nodup) (hnew : ∀ x ∈ ids, p.seen.contains x = false) :
    Keeps (ids.foldl ListingPoller.remember p) (returned ++ ids) := by
  induction ids generalizing p returned with
  | nil => rwa [List.append_nil]
  | cons listingId rest ih =>
      obtain ⟨hnot, hrest⟩ := List.nodup_cons.mp hnodup
      have hkeep := h.remember (hnew listingId List.mem_cons_self)
      have hunseen : ∀ x ∈ rest, (p.remember listingId).seen.contains x = false := by
        intro x hx
        by_contra hseen
        rcases contains_seen_of_remember (Bool.not_eq_false _ ▸ hseen) with rfl | hbefore
        · exact hnot hx
        · rw [hnew x (List.mem_cons_of_mem _ hx)] at hbefore
          cases hbefore
      have hall := ih hkeep hrest hunseen
      rwa [List.append_assoc, List.singleton_append] at hall

theorem livePoll_keeps {order : SetOrder} {fetch : Fetch ε} {p p' : ListingPoller}
    {read : List (ReadEntry ε)} {returned : List String} (h : Keeps p returned)
    (hcall : livePoll parseOffer order fetch p = .ok read p') :
    Keeps p' (returned ++ offerIds read) := by
  rw [livePoll_eq] at hcall
  split at hcall
  · cases hcall
  · rename_i walk behind hpages
    cases hcall
    have hfresh := livePages_fresh parseOffer (fresh_nil p.seen p.newestMs none) hpages
    have hiter : (order.iter walk.readIds).Perm (offerIds (walk.read.insertionSort createdOrder)) := by
      refine List.Perm.trans ?_ ((List.perm_insertionSort createdOrder walk.read).filterMap _).symm
      refine (List.perm_ext_iff_of_nodup (order.nodup _) hfresh.nodup).mpr fun x => ?_
      rw [order.mem_iter]
      exact (hfresh.mem_iff x).symm
    have hkeep := h.foldl_remember (order.nodup walk.readIds) fun x hx =>
      hfresh.unseen x ((order.mem_iter _ x).mp hx)
    refine (hkeep.perm (hiter.append_left returned)).congr rfl ?_
    rw [Dmarket.foldl_remember]
    rfl

/-- Reading one entry of a gap keeps the count. -/
theorem readGap_keeps {gap : CatchUpGap} {receivedAtMs : Int} {walk : GapWalk ε}
    {returned : List String} (h : Keeps walk.poller (returned ++ offerIds walk.read)) (entry : ε) :
    Keeps (readGap parseOffer gap receivedAtMs walk entry).poller
      (returned ++ offerIds (readGap parseOffer gap receivedAtMs walk entry).read) := by
  unfold readGap ListingPoller.takeUnseen
  split
  · rw [offerIds_append]
    simpa [offerIds] using h
  · rename_i offer hoffer
    split
    · exact h
    · by_cases hseen : (walk.poller.seen.contains offer.offerId || offer.offerId ∈ gap.skipIds) = true
      · rw [if_pos hseen]
        exact h
      · rw [if_neg hseen]
        simp only [Bool.or_eq_true, decide_eq_true_eq, not_or, Bool.not_eq_true] at hseen
        have hkeep := h.remember hseen.1
        rw [List.append_assoc] at hkeep
        rw [offerIds_append]
        exact hkeep

theorem foldl_readGap_keeps {gap : CatchUpGap} {receivedAtMs : Int} (entries : List ε)
    {walk : GapWalk ε} {returned : List String}
    (h : Keeps walk.poller (returned ++ offerIds walk.read)) :
    Keeps (entries.foldl (readGap parseOffer gap receivedAtMs) walk).poller
      (returned ++ offerIds (entries.foldl (readGap parseOffer gap receivedAtMs) walk).read) := by
  induction entries generalizing walk with
  | nil => exact h
  | cons entry rest ih => exact ih (readGap_keeps parseOffer h entry)

theorem catchUpPage_keeps {fetch : Fetch ε} {p p' : ListingPoller} {read : List (ReadEntry ε)}
    {returned : List String} (h : Keeps p returned)
    (hcall : catchUpPage parseOffer fetch p = .ok read p') :
    Keeps p' (returned ++ offerIds read) := by
  rw [catchUpPage_eq] at hcall
  split at hcall
  · cases hcall
    rwa [offerIds, List.filterMap_nil, List.append_nil]
  · rename_i gap rest hgaps
    split at hcall
    · cases hcall
    · rename_i page receivedAtMs hfetch
      cases hcall
      have hstart : Keeps (GapWalk.mk p ([] : List (ReadEntry ε))
          (page.cursor.isNone || page.entries.isEmpty)).poller
            (returned ++ offerIds ([] : List (ReadEntry ε))) := by
        rwa [offerIds, List.filterMap_nil, List.append_nil]
      exact (foldl_readGap_keeps parseOffer page.entries hstart).congr rfl rfl

/-- A call that raises has changed nothing. -/
theorem livePoll_of_raise {order : SetOrder} {fetch : Fetch ε} {p p' : ListingPoller}
    {err : FetchError} (hcall : livePoll parseOffer order fetch p = .error err p') : p' = p := by
  rw [livePoll_eq] at hcall
  split at hcall
  · cases hcall
    rfl
  · cases hcall

theorem catchUpPage_of_raise {fetch : Fetch ε} {p p' : ListingPoller} {err : FetchError}
    (hcall : catchUpPage parseOffer fetch p = .error err p') : p' = p := by
  rw [catchUpPage_eq] at hcall
  split at hcall
  · cases hcall
  · split at hcall
    · cases hcall
      rfl
    · cases hcall

/-! ## Runs -/

/-- A poller, the offer ids its calls have returned, and the listings noted as recorded, those of
the resume point with the time it resumed from. -/
structure PollRun where
  poller : ListingPoller
  returned : List String
  noted : List DMarketOffer

inductive PollEvent (ε : Type) where
  | resume (point : ResumePoint) (nowMs maxCatchUpMs : Int)
  | live (fetch : Fetch ε)
  | catchUp (fetch : Fetch ε)
  | note (offer : DMarketOffer)
  /-- The resume document is written. -/
  | save

namespace PollRun

def start (maxSeen : Nat) : PollRun := ⟨.new maxSeen, [], []⟩

/-- The state after a call, whether it returns or raises. -/
def called (st : PollRun) : EStateM.Result FetchError ListingPoller (List (ReadEntry ε)) → PollRun
  | .ok read p => { st with poller := p, returned := st.returned ++ offerIds read }
  | .error _ p => { st with poller := p }

def step (order : SetOrder) (position : String → Option Int) (st : PollRun) :
    PollEvent ε → Option PollRun
  | .resume point nowMs maxCatchUpMs =>
      if st.poller.started then none
      else some { st with
        poller := st.poller.resumeFrom order position point nowMs maxCatchUpMs
        noted := st.noted ++ (order.iter point.recordedIds).map fun listingId =>
          ⟨listingId, point.newestMs⟩ }
  | .live fetch => some (st.called (livePoll parseOffer order fetch st.poller))
  | .catchUp fetch => some (st.called (catchUpPage parseOffer fetch st.poller))
  | .note offer => some { st with poller := st.poller.noteRecorded offer, noted := st.noted ++ [offer] }
  | .save => some { st with poller := st.poller.dropOldRecorded }

end PollRun

/-! ## Each listing once -/

/-- A poll that has no newest time had none before and has read no listing. -/
theorem readLive_blank {floorMs : Option Int} {seen : OrderedDict String Unit} {receivedAtMs : Int}
    {walk : LiveWalk ε} {entry : ε}
    (h : (readLive parseOffer floorMs seen receivedAtMs walk entry).newestMs = none) :
    walk.newestMs = none ∧
      offerIds (readLive parseOffer floorMs seen receivedAtMs walk entry).read
        = offerIds walk.read := by
  unfold readLive at h ⊢
  split at h
  · refine ⟨h, ?_⟩
    rw [offerIds_append]
    exact List.append_nil _
  · dsimp only at h
    split at h
    · cases h
    · split at h
      · cases h
      · cases h

theorem foldl_readLive_blank {floorMs : Option Int} {seen : OrderedDict String Unit}
    {receivedAtMs : Int} (entries : List ε) {walk : LiveWalk ε}
    (h : (entries.foldl (readLive parseOffer floorMs seen receivedAtMs) walk).newestMs = none) :
    walk.newestMs = none ∧
      offerIds (entries.foldl (readLive parseOffer floorMs seen receivedAtMs) walk).read
        = offerIds walk.read := by
  induction entries generalizing walk with
  | nil => exact ⟨h, rfl⟩
  | cons entry rest ih =>
      obtain ⟨hentry, hrest⟩ := ih h
      obtain ⟨hwalk, hsame⟩ := readLive_blank parseOffer hentry
      exact ⟨hwalk, hrest.trans hsame⟩

theorem livePages_blank {fetch : Fetch ε} {floorMs : Option Int} {seen : OrderedDict String Unit}
    {left : Nat} {cursor : Option String} {walk : LiveWalk ε} {result : LiveWalk ε × Option String}
    (hpages : livePages parseOffer fetch floorMs seen left cursor walk = some result)
    (h : result.1.newestMs = none) :
    walk.newestMs = none ∧ offerIds result.1.read = offerIds walk.read := by
  induction left generalizing cursor walk with
  | zero =>
      cases hpages
      exact ⟨h, rfl⟩
  | succ left ih =>
      obtain ⟨⟨page, receivedAtMs⟩, hfetch, hrest⟩ := Option.bind_eq_some_iff.mp hpages
      dsimp only at hrest
      split at hrest
      · cases hrest
        exact foldl_readLive_blank parseOffer page.entries h
      · obtain ⟨hpage, hread⟩ := ih hrest
        obtain ⟨hwalk, hsame⟩ := foldl_readLive_blank parseOffer page.entries hpage
        exact ⟨hwalk, hread.trans hsame⟩

theorem offerIds_insertionSort (read : List (ReadEntry ε)) :
    (offerIds (read.insertionSort createdOrder)).Perm (offerIds read) :=
  (List.perm_insertionSort createdOrder read).filterMap _

/-- Reading a gap touches only the listings seen. -/
theorem foldl_readGap_poller (gap : CatchUpGap) (receivedAtMs : Int) (entries : List ε)
    (walk : GapWalk ε) :
    (entries.foldl (readGap parseOffer gap receivedAtMs) walk).poller
      = { walk.poller with
          seen := (entries.foldl (readGap parseOffer gap receivedAtMs) walk).poller.seen } := by
  induction entries generalizing walk with
  | nil => rfl
  | cons entry rest ih =>
      have hone : (readGap parseOffer gap receivedAtMs walk entry).poller
          = { walk.poller with
              seen := (readGap parseOffer gap receivedAtMs walk entry).poller.seen } := by
        unfold readGap ListingPoller.takeUnseen
        split
        · rfl
        · split
          · rfl
          · split
            · rfl
            · rename_i hunseen
              split at hunseen
              · cases hunseen
              · cases hunseen
                rfl
      rw [List.foldl_cons, ih, hone]

theorem catchUpPage_kept {fetch : Fetch ε} {p p' : ListingPoller} {read : List (ReadEntry ε)}
    (hcall : catchUpPage parseOffer fetch p = .ok read p') :
    p'.nextFloorMs = p.nextFloorMs ∧ p'.newestMs = p.newestMs ∧ p'.maxSeen = p.maxSeen ∧
      p'.recorded = p.recorded := by
  rw [catchUpPage_eq] at hcall
  split at hcall
  · cases hcall
    exact ⟨rfl, rfl, rfl, rfl⟩
  · split at hcall
    · cases hcall
    · cases hcall
      dsimp only
      rw [foldl_readGap_poller]
      exact ⟨rfl, rfl, rfl, rfl⟩

theorem dropOldRecorded_kept (p : ListingPoller) :
    p.dropOldRecorded.seen = p.seen ∧ p.dropOldRecorded.maxSeen = p.maxSeen ∧
      p.dropOldRecorded.gaps = p.gaps ∧ p.dropOldRecorded.started = p.started := by
  unfold ListingPoller.dropOldRecorded ListingPoller.started
  split
  · rename_i hnewest
    exact ⟨rfl, rfl, rfl, rfl⟩
  · exact ⟨rfl, rfl, rfl, rfl⟩

theorem foldl_resume (newestMs : Int) (ids : List String) (p : ListingPoller) :
    let q := ids.foldl (fun p listingId => (p.remember listingId).record listingId newestMs) p
    q.nextFloorMs = p.nextFloorMs ∧ q.maxSeen = p.maxSeen ∧ q.gaps = p.gaps ∧
      q.newestMs = p.newestMs := by
  induction ids generalizing p with
  | nil => exact ⟨rfl, rfl, rfl, rfl⟩
  | cons listingId rest ih => exact ih _

theorem nextFloorMs_resumeFrom (order : SetOrder) (position : String → Option Int)
    (point : ResumePoint) (nowMs maxCatchUpMs : Int) (p : ListingPoller) :
    (p.resumeFrom order position point nowMs maxCatchUpMs).nextFloorMs
      = some (max (point.newestMs - resumeOverlapMs) (nowMs - maxCatchUpMs)) :=
  (foldl_resume point.newestMs _ _).1

theorem maxSeen_resumeFrom (order : SetOrder) (position : String → Option Int)
    (point : ResumePoint) (nowMs maxCatchUpMs : Int) (p : ListingPoller) :
    (p.resumeFrom order position point nowMs maxCatchUpMs).maxSeen = p.maxSeen :=
  (foldl_resume point.newestMs _ _).2.1

theorem maxSeen_step {order : SetOrder} {position : String → Option Int} {st st' : PollRun}
    {e : PollEvent ε} (h : st.step parseOffer order position e = some st') :
    st'.poller.maxSeen = st.poller.maxSeen := by
  cases e with
  | resume point nowMs maxCatchUpMs =>
      rw [PollRun.step] at h
      split at h
      · cases h
      · cases h
        exact maxSeen_resumeFrom order position point nowMs maxCatchUpMs st.poller
  | live fetch =>
      cases h
      cases hcall : livePoll parseOffer order fetch st.poller with
      | error err p => exact congrArg _ (livePoll_of_raise parseOffer hcall)
      | ok read p =>
          rw [livePoll_eq] at hcall
          split at hcall
          · cases hcall
          · cases hcall
            rfl
  | catchUp fetch =>
      cases h
      cases hcall : catchUpPage parseOffer fetch st.poller with
      | error err p => exact congrArg _ (catchUpPage_of_raise parseOffer hcall)
      | ok read p => exact (catchUpPage_kept parseOffer hcall).2.2.1
  | note offer =>
      cases h
      rfl
  | save =>
      cases h
      exact (dropOldRecorded_kept st.poller).2.1

/-- A poller that has read nothing is not started; one that has keeps what it returned. -/
structure PollRun.Inv (st : PollRun) : Prop where
  keeps : Keeps st.poller st.returned
  idle : st.poller.started = false → st.poller.gaps = [] ∧ st.returned = []

theorem PollRun.inv_start (maxSeen : Nat) : (start maxSeen).Inv := ⟨keeps_nil _, fun _ => ⟨rfl, rfl⟩⟩

theorem PollRun.Inv.live {order : SetOrder} {st : PollRun} (hI : st.Inv) (fetch : Fetch ε) :
    (st.called (livePoll parseOffer order fetch st.poller)).Inv := by
  cases hcall : livePoll parseOffer order fetch st.poller with
  | error err p =>
      rw [livePoll_of_raise parseOffer hcall]
      exact hI
  | ok read p =>
      refine ⟨livePoll_keeps parseOffer hI.keeps hcall, fun hidle => ?_⟩
      rw [livePoll_eq] at hcall
      split at hcall
      · cases hcall
      · rename_i walk behind hpages
        cases hcall
        simp only [called, moveOn, ListingPoller.started, Bool.or_eq_false_iff,
          Option.isSome_eq_false_iff, Option.isNone_iff_eq_none] at hidle ⊢
        obtain ⟨hfloor, hnewest⟩ := hidle
        rw [hnewest, Option.elim_none] at hfloor
        obtain ⟨hbefore, hread⟩ := livePages_blank parseOffer hpages hnewest
        have hidle' : st.poller.started = false := by
          rw [ListingPoller.started, hfloor, show st.poller.newestMs = none from hbefore]
          rfl
        obtain ⟨hgaps, hreturned⟩ := hI.idle hidle'
        refine ⟨?_, ?_⟩
        · rw [hfloor, hgaps]
          cases behind <;> rfl
        · have hperm := offerIds_insertionSort walk.read
          rw [hread] at hperm
          rw [hreturned, List.nil_append]
          exact List.Perm.eq_nil hperm

theorem PollRun.Inv.catchUp {st : PollRun} (hI : st.Inv) (fetch : Fetch ε) :
    (st.called (catchUpPage parseOffer fetch st.poller)).Inv := by
  cases hcall : catchUpPage parseOffer fetch st.poller with
  | error err p =>
      rw [catchUpPage_of_raise parseOffer hcall]
      exact hI
  | ok read p =>
      refine ⟨catchUpPage_keeps parseOffer hI.keeps hcall, fun hidle => ?_⟩
      have hkept := catchUpPage_kept parseOffer hcall
      have hidle' : st.poller.started = false := by
        rw [ListingPoller.started, ← hkept.1, ← hkept.2.1]
        exact hidle
      obtain ⟨hgaps, hreturned⟩ := hI.idle hidle'
      rw [catchUpPage_eq, hgaps] at hcall
      cases hcall
      exact ⟨hgaps, by rw [called, hreturned]; rfl⟩

/-- Every call, whether it raises or not, keeps the count. -/
theorem PollRun.Inv.step {order : SetOrder} {position : String → Option Int} {st st' : PollRun}
    {e : PollEvent ε} (hI : st.Inv) (h : st.step parseOffer order position e = some st') :
    st'.Inv := by
  cases e with
  | resume point nowMs maxCatchUpMs =>
      rw [PollRun.step] at h
      split at h
      · cases h
      · rename_i hidle
        cases h
        rw [Bool.not_eq_true] at hidle
        refine ⟨?_, fun hstopped => ?_⟩
        · rw [(hI.idle hidle).2]
          exact keeps_nil _
        · have hfloor := nextFloorMs_resumeFrom order position point nowMs maxCatchUpMs st.poller
          rw [ListingPoller.started, hfloor, Option.isSome_some, Bool.true_or] at hstopped
          cases hstopped
  | live fetch =>
      cases h
      exact hI.live parseOffer fetch
  | catchUp fetch =>
      cases h
      exact hI.catchUp parseOffer fetch
  | note offer =>
      cases h
      exact ⟨hI.keeps.congr rfl rfl, hI.idle⟩
  | save =>
      cases h
      obtain ⟨hseen, hmax, hgaps, hstarted⟩ := dropOldRecorded_kept st.poller
      refine ⟨hI.keeps.congr hseen hmax, fun hidle => ?_⟩
      obtain ⟨hgaps', hreturned⟩ := hI.idle (hstarted ▸ hidle)
      exact ⟨hgaps.trans hgaps', hreturned⟩

/-- From any resume point, over any pages: no listing is returned twice as long as no more than
`max_seen` are returned at all, and a call that raises leaves the poller as it was. -/
theorem returnedOnce_of_run {order : SetOrder} {position : String → Option Int} {maxSeen : Nat}
    {es : List (PollEvent ε)} {st : PollRun}
    (hrun : runFrom (PollRun.step parseOffer order position) (.start maxSeen) es = some st)
    (hseen : st.returned.toFinset.card ≤ maxSeen) :
    st.returned.Nodup ∧ ∀ (fetch : Fetch ε) (err : FetchError) (p : ListingPoller),
      (livePoll parseOffer order fetch st.poller = .error err p ∨
        catchUpPage parseOffer fetch st.poller = .error err p) → p = st.poller := by
  have hI : st.Inv ∧ st.poller.maxSeen = maxSeen :=
    runFrom_inv (fun st : PollRun => st.Inv ∧ st.poller.maxSeen = maxSeen)
      (fun st e st' h hstep => ⟨h.1.step parseOffer hstep, by
        rw [maxSeen_step parseOffer hstep, h.2]⟩) ⟨PollRun.inv_start maxSeen, rfl⟩ hrun
  refine ⟨hI.1.keeps.nodup (hI.2 ▸ hseen), fun fetch err p hraise => ?_⟩
  rcases hraise with hraise | hraise
  · exact livePoll_of_raise parseOffer hraise
  · exact catchUpPage_of_raise parseOffer hraise

end

/-- A page of a live poll that overlaps a resumed gap. -/
def newestPage : OffersPage (Option DMarketOffer) where
  entries := [some ⟨"c", 210000⟩, none, some ⟨"recorded", 199000⟩, some ⟨"b", 85000⟩]
  cursor := some "85000"

def gapPage : OffersPage (Option DMarketOffer) where
  entries := [some ⟨"b", 85000⟩, some ⟨"a", 60000⟩, some ⟨"a", 60000⟩]
  cursor := some "60000"

/-- A resume, a poll that fails on its second page, the poll again, and two pages of the gap. -/
def resumedRun : List (PollEvent (Option DMarketOffer)) :=
  [.resume ⟨200000, {"recorded"}, [⟨"90000", 50000, ∅⟩]⟩ 250000 1000000,
    .live fun i _ => if i = 0 then some (newestPage, 250000) else none,
    .live fun _ _ => some ({ newestPage with cursor := none }, 251000),
    .catchUp fun _ _ => some (gapPage, 252000), .save, .catchUp fun _ _ => none]

theorem returnedOnce_of_run_resumed :
    ∃ st, runFrom (PollRun.step id .sorted fun _ => some 90000) (.start 3) resumedRun = some st ∧
      st.returned.Nodup := by
  have hrun : ∃ st, runFrom (PollRun.step id .sorted fun _ => some 90000) (.start 3) resumedRun
      = some st ∧ decide (st.returned.toFinset.card ≤ 3) = true :=
    (Option.any_eq_true _ _).mp (by decide +kernel)
  obtain ⟨st, hst, hcard⟩ := hrun
  exact ⟨st, hst, (returnedOnce_of_run id hst (of_decide_eq_true hcard)).1⟩

end BrandSniper.Dmarket
