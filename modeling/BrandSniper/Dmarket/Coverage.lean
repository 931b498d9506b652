import BrandSniper.Dmarket.Poller

/-!
# No listing between polls is missed

A market lists its offers newest first and pages through them by a keyset
cursor: a page starts right after the entry its cursor was made from. New
listings appear at the top between any two requests of a run.

`Covers` is what the poller owes: every listing from the first floor up to
the current one was returned, or was recorded before, or lies in an open gap.
A live poll stops at a page none of whose entries parses, so it can move the
floor past listings it has not read. In every run in which nothing unread lies
below such a page, `Covers` holds in every state (`covers_of_run`).
-/

namespace BrandSniper.Dmarket

open Kit

variable {ε : Type}

structure Market (ε : Type) where
  /-- Every listing there ever is, newest first. -/
  history : List ε
  /-- The cursor of a page that ends with the entry. -/
  cursor : ε → String

/-- One request of the poller to the market. -/
structure Visit (ε : Type) where
  /-- How many listings appear before it. -/
  arrived : Nat
  /-- One less than the size of the page; nothing if the request fails. -/
  size : Option Nat
  receivedAtMs : Int
  /-- The page if the cursor is not one of this market. -/
  foreign : OffersPage ε

namespace Market

variable (m : Market ε)

/-- The entries after the one the cursor was made from. -/
def after (cursor : String) : Option (List ε) :=
  match m.history.dropWhile fun entry => m.cursor entry ≠ cursor with
  | [] => none
  | _ :: rest => some rest

/-- The first page of these entries. -/
def pageOf (rest : List ε) (size : Nat) : OffersPage ε where
  entries := rest.take (size + 1)
  cursor := if rest.length ≤ size + 1 then none else (rest[size]?).map m.cursor

/-- The page a request gets while the first `hidden` listings have not appeared. -/
def answer (hidden : Nat) (visit : Visit ε) (cursor : Option String) :
    Option (OffersPage ε × Int) :=
  visit.size.map fun size =>
    (match cursor with
      | none => m.pageOf (m.history.drop hidden) size
      | some cursor =>
          match m.after cursor with
          | some rest => m.pageOf rest size
          | none => visit.foreign,
     visit.receivedAtMs)

/-- How many listings have not appeared after the requests. -/
def hiddenAfter (hidden : Nat) (visits : List (Visit ε)) : Nat :=
  visits.foldl (fun hidden visit => hidden - visit.arrived) hidden

/-- The requests of one call. -/
def fetch (hidden : Nat) (visits : List (Visit ε)) : Fetch ε := fun i cursor =>
  (visits[i]?).bind fun visit => m.answer (hiddenAfter hidden (visits.take (i + 1))) visit cursor

/-- Listings are sorted by their creation times, and each cursor is that of one entry. -/
structure Lawful (parseOffer : ε → Option DMarketOffer) : Prop where
  sorted : m.history.Pairwise fun a b => ∀ offer older, parseOffer a = some offer →
    parseOffer b = some older → older.createdAtMs ≤ offer.createdAtMs
  cursors : (m.history.map m.cursor).Nodup

theorem after_eq_some {cursor : String} {rest : List ε} (h : m.after cursor = some rest) :
    ∃ before entry, m.history = before ++ entry :: rest ∧ m.cursor entry = cursor := by
  unfold after at h
  split at h
  · cases h
  · rename_i entry tail hdrop
    cases h
    refine ⟨m.history.takeWhile fun entry => m.cursor entry ≠ cursor, entry, ?_, ?_⟩
    · rw [← hdrop, List.takeWhile_append_dropWhile]
    · have hhead := List.head?_dropWhile_not (fun entry => decide (m.cursor entry ≠ cursor)) m.history
      rw [hdrop] at hhead
      simpa using hhead

theorem after_cursor {before rest : List ε} {entry : ε} (hnodup : (m.history.map m.cursor).Nodup)
    (h : m.history = before ++ entry :: rest) : m.after (m.cursor entry) = some rest := by
  have hskip : ∀ a ∈ before, (decide (m.cursor a ≠ m.cursor entry)) = true := by
    intro a ha
    rw [h, List.map_append, List.map_cons] at hnodup
    have hne := (List.nodup_append.mp hnodup).2.2 (m.cursor a) (List.mem_map.mpr ⟨a, ha, rfl⟩)
      (m.cursor entry) List.mem_cons_self
    exact decide_eq_true hne
  have hdrop : m.history.dropWhile (fun a => decide (m.cursor a ≠ m.cursor entry)) = entry :: rest := by
    rw [h, List.dropWhile_append_of_pos hskip, List.dropWhile_cons_of_neg (by simp)]
  rw [after, hdrop]

/-- The entries a page of a suffix leaves are those after its cursor. -/
theorem after_pageOf {before rest : List ε} (hnodup : (m.history.map m.cursor).Nodup)
    (h : m.history = before ++ rest) {size : Nat} {cursor : String}
    (hcursor : (m.pageOf rest size).cursor = some cursor) :
    m.after cursor = some (rest.drop (size + 1)) := by
  unfold pageOf at hcursor
  split at hcursor
  · cases hcursor
  · rename_i hlength
    obtain ⟨entry, hentry, rfl⟩ := Option.map_eq_some_iff.mp hcursor
    obtain ⟨hsize, hget⟩ := List.getElem?_eq_some_iff.mp hentry
    have hsplit : m.history = (before ++ rest.take size) ++ entry :: rest.drop (size + 1) := by
      rw [h, List.append_assoc, ← hget, List.cons_getElem_drop_succ, List.take_append_drop]
    exact m.after_cursor hnodup hsplit

theorem pageOf_cursor_eq_none {rest : List ε} {size : Nat}
    (h : (m.pageOf rest size).cursor = none) : rest.drop (size + 1) = [] := by
  unfold pageOf at h
  split at h
  · rename_i hlength
    exact List.drop_eq_nil_of_le hlength
  · rename_i hlength
    rw [Option.map_eq_none_iff, List.getElem?_eq_none_iff] at h
    omega

theorem mem_pageOf_or {rest : List ε} {entry : ε} (h : entry ∈ rest) (size : Nat) :
    entry ∈ (m.pageOf rest size).entries ∨ entry ∈ rest.drop (size + 1) := by
  rw [← List.take_append_drop (size + 1) rest] at h
  exact List.mem_append.mp h

end Market

/-! ## The pages of a live poll -/

section
variable (parseOffer : ε → Option DMarketOffer) (m : Market ε)

/-- What reading a page of a live poll comes to. -/
structure ReadsPage (floorMs : Option Int) (seen : OrderedDict String Unit) (entries : List ε)
    (walk walk' : LiveWalk ε) : Prop where
  /-- Nothing read is forgotten. -/
  grows : walk.readIds ⊆ walk'.readIds
  /-- Every listing at or above the floor is read, or was seen. -/
  reads : ∀ e ∈ entries, ∀ offer, parseOffer e = some offer →
    (∀ floor, floorMs = some floor → floor ≤ offer.createdAtMs) →
    seen.contains offer.offerId = true ∨ offer.offerId ∈ walk'.readIds
  newest : ∀ newest, walk'.newestMs = some newest → walk.newestMs = some newest ∨
    ∃ e ∈ entries, ∃ offer, parseOffer e = some offer ∧ offer.createdAtMs = newest
  oldest : ∀ oldest, walk'.oldestMs = some oldest → walk.oldestMs = some oldest ∨
    ∃ e ∈ entries, ∃ offer, parseOffer e = some offer ∧ offer.createdAtMs = oldest
  blank : walk'.oldestMs = none → ∀ e ∈ entries, parseOffer e = none

theorem readsPage_nil (floorMs : Option Int) (seen : OrderedDict String Unit) (walk : LiveWalk ε) :
    ReadsPage parseOffer floorMs seen [] walk walk where
  grows := Finset.Subset.refl _
  reads := by simp
  newest := fun _ h => .inl h
  oldest := fun _ h => .inl h
  blank := by simp

theorem ReadsPage.append {floorMs : Option Int} {seen : OrderedDict String Unit} {a b : List ε}
    {walk mid walk' : LiveWalk ε} (ha : ReadsPage parseOffer floorMs seen a walk mid)
    (hb : ReadsPage parseOffer floorMs seen b mid walk')
    (hkept : walk'.oldestMs = none → mid.oldestMs = none) :
    ReadsPage parseOffer floorMs seen (a ++ b) walk walk' where
  grows := ha.grows.trans hb.grows
  reads := by
    intro e he offer hoffer hfloor
    rcases List.mem_append.mp he with he | he
    · exact (ha.reads e he offer hoffer hfloor).imp_right fun h => hb.grows h
    · exact hb.reads e he offer hoffer hfloor
  newest := by
    intro newest h
    rcases hb.newest newest h with hmid | ⟨e, he, hoffer⟩
    · rcases ha.newest newest hmid with hwalk | ⟨e, he, hoffer⟩
      · exact .inl hwalk
      · exact .inr ⟨e, List.mem_append_left _ he, hoffer⟩
    · exact .inr ⟨e, List.mem_append_right _ he, hoffer⟩
  oldest := by
    intro oldest h
    rcases hb.oldest oldest h with hmid | ⟨e, he, hoffer⟩
    · rcases ha.oldest oldest hmid with hwalk | ⟨e, he, hoffer⟩
      · exact .inl hwalk
      · exact .inr ⟨e, List.mem_append_left _ he, hoffer⟩
    · exact .inr ⟨e, List.mem_append_right _ he, hoffer⟩
  blank := by
    intro h e he
    rcases List.mem_append.mp he with he | he
    · exact ha.blank (hkept h) e he
    · exact hb.blank h e he

theorem readLive_oldest {floor : Option Int} {seen : OrderedDict String Unit} {receivedAtMs : Int}
    {walk : LiveWalk ε} {entry : ε}
    (h : (readLive parseOffer floor seen receivedAtMs walk entry).oldestMs = none) :
    walk.oldestMs = none := by
  unfold readLive at h
  split at h
  · exact h
  · dsimp only at h
    split at h
    · cases h
    · split at h
      · cases h
      · cases h

theorem foldl_readLive_oldest {floor : Option Int} {seen : OrderedDict String Unit}
    {receivedAtMs : Int} (entries : List ε) {walk : LiveWalk ε}
    (h : (entries.foldl (readLive parseOffer floor seen receivedAtMs) walk).oldestMs = none) :
    walk.oldestMs = none := by
  induction entries generalizing walk with
  | nil => exact h
  | cons entry rest ih => exact readLive_oldest parseOffer (ih h)

theorem readsPage_one {floorMs : Option Int} {seen : OrderedDict String Unit} {receivedAtMs : Int}
    (walk : LiveWalk ε) (entry : ε) : ReadsPage parseOffer floorMs seen [entry] walk
      (readLive parseOffer floorMs seen receivedAtMs walk entry) := by
  cases hparse : parseOffer entry with
  | none =>
      have hread : readLive parseOffer floorMs seen receivedAtMs walk entry
          = { walk with read := walk.read ++ [⟨none, entry, receivedAtMs⟩] } := by
        rw [readLive, hparse]
      rw [hread]
      refine ⟨Finset.Subset.refl _, ?_, fun _ h => .inl h, fun _ h => .inl h, ?_⟩
      · intro e he offer hoffer
        rw [List.mem_singleton.mp he, hparse] at hoffer
        cases hoffer
      · intro _ e he
        rw [List.mem_singleton.mp he]
        exact hparse
  | some offer =>
      have hmax : ∀ current : Option Int, ∀ t,
          some (current.elim offer.createdAtMs fun c => max c offer.createdAtMs) = some t →
          current = some t ∨
            ∃ e ∈ [entry], ∃ o, parseOffer e = some o ∧ o.createdAtMs = t := by
        intro current t ht
        have hself : ∃ e ∈ [entry], ∃ o, parseOffer e = some o ∧ o.createdAtMs = offer.createdAtMs :=
          ⟨entry, List.mem_singleton_self _, offer, hparse, rfl⟩
        cases current with
        | none => exact .inr (Option.some.inj ht ▸ hself)
        | some c =>
            rw [Option.elim_some] at ht
            rcases max_choice c offer.createdAtMs with hc | hc
            · exact .inl (by rw [← ht, hc])
            · rw [hc] at ht
              exact .inr (Option.some.inj ht ▸ hself)
      have hmin : ∀ current : Option Int, ∀ t,
          some (current.elim offer.createdAtMs fun c => min c offer.createdAtMs) = some t →
          current = some t ∨
            ∃ e ∈ [entry], ∃ o, parseOffer e = some o ∧ o.createdAtMs = t := by
        intro current t ht
        have hself : ∃ e ∈ [entry], ∃ o, parseOffer e = some o ∧ o.createdAtMs = offer.createdAtMs :=
          ⟨entry, List.mem_singleton_self _, offer, hparse, rfl⟩
        cases current with
        | none => exact .inr (Option.some.inj ht ▸ hself)
        | some c =>
            rw [Option.elim_some] at ht
            rcases min_choice c offer.createdAtMs with hc | hc
            · exact .inl (by rw [← ht, hc])
            · rw [hc] at ht
              exact .inr (Option.some.inj ht ▸ hself)
      have honly : ∀ e ∈ [entry], ∀ o, parseOffer e = some o → o = offer := by
        intro e he o ho
        rw [List.mem_singleton.mp he, hparse] at ho
        exact (Option.some.inj ho).symm
      rw [readLive, hparse]
      dsimp only
      split
      · rename_i hbelow
        refine ⟨Finset.Subset.refl _, ?_, hmax walk.newestMs, hmin walk.oldestMs,
          fun h => by cases h⟩
        intro e he o ho hfloor
        rw [honly e he o ho] at hfloor
        obtain ⟨floor, hsome, hlow⟩ := (Option.any_eq_true _ _).mp hbelow
        have := hfloor floor hsome
        have := of_decide_eq_true hlow
        omega
      · split
        · rename_i hseen
          refine ⟨Finset.Subset.refl _, ?_, hmax walk.newestMs, hmin walk.oldestMs,
            fun h => by cases h⟩
          intro e he o ho _
          rw [honly e he o ho]
          simpa using hseen
        · refine ⟨Finset.subset_insert _ _, ?_, hmax walk.newestMs, hmin walk.oldestMs,
            fun h => by cases h⟩
          intro e he o ho _
          rw [honly e he o ho]
          exact .inr (Finset.mem_insert_self _ _)

theorem readsPage_foldl {floorMs : Option Int} {seen : OrderedDict String Unit} {receivedAtMs : Int}
    (entries : List ε) (walk : LiveWalk ε) : ReadsPage parseOffer floorMs seen entries walk
      (entries.foldl (readLive parseOffer floorMs seen receivedAtMs) walk) := by
  induction entries generalizing walk with
  | nil => exact readsPage_nil parseOffer floorMs seen walk
  | cons entry rest ih =>
      exact ReadsPage.append parseOffer (readsPage_one parseOffer walk entry) (ih _)
        (foldl_readLive_oldest parseOffer rest)

/-- The pages a chain of requests is served, each with the cursor of the one before. -/
def servedPages (fetch : Fetch ε) : Nat → Option String → List (OffersPage ε)
  | 0, _ => []
  | left + 1, cursor =>
      match fetch (liveMaxPages - (left + 1)) cursor with
      | none => []
      | some (page, _) =>
          page :: match page.cursor with
            | none => []
            | some next => servedPages fetch left (some next)

/-- Below every page of the chain on which nothing parses, each listing at or above the floor is
one of `known`. -/
def NothingBelowBlank (fetch : Fetch ε) (left : Nat) (cursor : Option String) (floor : Int)
    (known : ε → DMarketOffer → Prop) : Prop :=
  ∀ page ∈ servedPages fetch left cursor, (∀ e ∈ page.entries, parseOffer e = none) →
    ∀ next rest, page.cursor = some next → m.after next = some rest →
      ∀ e ∈ rest, ∀ offer, parseOffer e = some offer → floor ≤ offer.createdAtMs → known e offer

/-- What a live poll that got all its pages has read of the entries from its first page on. -/
structure Walked (floorMs : Option Int) (seen : OrderedDict String Unit)
    (known : ε → DMarketOffer → Prop)
    (rest : List ε) (walk walk' : LiveWalk ε) (behind : Option String) : Prop where
  grows : walk.readIds ⊆ walk'.readIds
  reads : ∀ floor, floorMs = some floor → ∀ e ∈ rest, ∀ offer, parseOffer e = some offer →
    floor ≤ offer.createdAtMs →
    (seen.contains offer.offerId = true ∨ offer.offerId ∈ walk'.readIds) ∨
      (∃ cursor below, behind = some cursor ∧ m.after cursor = some below ∧ e ∈ below) ∨
      known e offer
  newest : ∀ newest, walk'.newestMs = some newest → walk.newestMs = some newest ∨
    ∃ e ∈ rest, ∃ offer, parseOffer e = some offer ∧ offer.createdAtMs = newest

variable {parseOffer} {m}

/-- Listings after one below the floor are below it. -/
theorem Market.Lawful.below (hm : m.Lawful parseOffer) {before rest : List ε}
    (hrest : m.history = before ++ rest) {size : Nat} {newer older : ε} {offer offer' : DMarketOffer}
    (hnewer : newer ∈ (m.pageOf rest size).entries) (holder : older ∈ rest.drop (size + 1))
    (hoffer : parseOffer newer = some offer) (hoffer' : parseOffer older = some offer') :
    offer'.createdAtMs ≤ offer.createdAtMs := by
  have hsorted := hm.sorted
  rw [hrest, ← List.take_append_drop (size + 1) rest] at hsorted
  exact (List.pairwise_append.mp (List.pairwise_append.mp hsorted).2.1).2.2 newer hnewer older holder
    offer offer' hoffer hoffer'

theorem livePages_walked (hm : m.Lawful parseOffer) {fetch : Fetch ε} {floorMs : Option Int}
    {seen : OrderedDict String Unit} {known : ε → DMarketOffer → Prop} {left : Nat}
    {cursor : Option String} {walk walk' : LiveWalk ε} {behind : Option String}
    {before rest : List ε} (hrest : m.history = before ++ rest)
    (hserves : ∀ page receivedAtMs, fetch (liveMaxPages - left) cursor = some (page, receivedAtMs) →
      ∃ size, page = m.pageOf rest size)
    (hfetch : ∀ i next below, m.after next = some below → ∀ page receivedAtMs,
      fetch i (some next) = some (page, receivedAtMs) → ∃ size, page = m.pageOf below size)
    (hat : ∀ next, cursor = some next → m.after next = some rest)
    (hleft : left = 0 → cursor ≠ none)
    (hblank : ∀ floor, floorMs = some floor →
      NothingBelowBlank parseOffer m fetch left cursor floor known)
    (hpages : livePages parseOffer fetch floorMs seen left cursor walk = some (walk', behind)) :
    Walked parseOffer m floorMs seen known rest walk walk' behind := by
  induction left generalizing cursor walk before rest with
  | zero =>
      cases hpages
      refine ⟨Finset.Subset.refl _, fun floor _ e he offer _ _ => .inr (.inl ?_), fun _ h => .inl h⟩
      obtain ⟨next, hnext⟩ := Option.ne_none_iff_exists'.mp (hleft rfl)
      exact ⟨next, rest, hnext, hat next hnext, he⟩
  | succ left ih =>
      obtain ⟨⟨page, receivedAtMs⟩, hpage, hgoes⟩ := Option.bind_eq_some_iff.mp hpages
      obtain ⟨size, rfl⟩ := hserves page receivedAtMs hpage
      have hread : ReadsPage parseOffer floorMs seen _ _ (List.foldl
          (readLive parseOffer floorMs seen receivedAtMs) _ _) :=
        readsPage_foldl parseOffer (m.pageOf rest size).entries { walk with oldestMs := none }
      have hserved : m.pageOf rest size ∈ servedPages fetch (left + 1) cursor := by
        rw [servedPages, hpage]
        exact List.mem_cons_self
      have hinRest : ∀ e ∈ (m.pageOf rest size).entries, e ∈ rest := fun e he =>
        List.mem_of_mem_take he
      dsimp only at hgoes
      generalize hmid : (m.pageOf rest size).entries.foldl
        (readLive parseOffer floorMs seen receivedAtMs) { walk with oldestMs := none } = mid
        at hgoes hread
      split at hgoes
      · -- the poll stops at this page
        rename_i hstop
        cases hgoes
        refine ⟨hread.grows, fun floor hsome e he offer hoffer hfloor => ?_, fun newest h => ?_⟩
        · rcases m.mem_pageOf_or he size with hon | hbelow
          · refine .inl (hread.reads e hon offer hoffer fun floor' h => ?_)
            obtain rfl := Option.some.inj (hsome.symm.trans h)
            exact hfloor
          · cases hcursor : (m.pageOf rest size).cursor with
            | none =>
                rw [m.pageOf_cursor_eq_none hcursor] at hbelow
                cases hbelow
            | some next =>
                have hnext := m.after_pageOf hm.cursors hrest hcursor
                cases holdest : walk'.oldestMs with
                | none =>
                    exact .inr (.inr (hblank floor hsome _ hserved (hread.blank holdest) next _ hcursor hnext e
                      hbelow offer hoffer hfloor))
                | some oldest =>
                    rw [hsome, hcursor, holdest] at hstop
                    have hlow : oldest < floor := of_decide_eq_true hstop
                    rcases hread.oldest oldest holdest with hnone | ⟨e', he', offer', hoffer', rfl⟩
                    · cases hnone
                    · have := hm.below hrest he' hbelow hoffer' hoffer
                      omega
        · rcases hread.newest newest h with hwalk | ⟨e, he, hoffer⟩
          · exact .inl hwalk
          · exact .inr ⟨e, hinRest e he, hoffer⟩
      · -- it goes on below it
        rename_i hgo
        cases hcursor : (m.pageOf rest size).cursor with
        | none =>
            rw [hcursor, stopsAt] at hgo
            · exact absurd rfl hgo
            · intro _ _ _ _ hnone
              cases hnone
        | some next =>
            have hnext := m.after_pageOf hm.cursors hrest hcursor
            have hsplit : m.history = (before ++ rest.take (size + 1)) ++ rest.drop (size + 1) := by
              rw [List.append_assoc, List.take_append_drop, hrest]
            rw [hcursor] at hgoes
            have hwalked := ih hsplit (hfetch _ next _ hnext)
              (fun next' h => by cases h; exact hnext) (fun _ h => by cases h)
              (fun floor hsome page hp => hblank floor hsome page (by
                rw [servedPages, hpage]
                refine List.mem_cons_of_mem _ ?_
                rw [hcursor]
                exact hp)) hgoes
            refine ⟨hread.grows.trans hwalked.grows, fun floor hsome e he offer hoffer hfloor => ?_,
              fun newest h => ?_⟩
            · rcases m.mem_pageOf_or he size with hon | hbelow
              · refine .inl ((hread.reads e hon offer hoffer fun floor' h => ?_).imp_right fun h =>
                  hwalked.grows h)
                obtain rfl := Option.some.inj (hsome.symm.trans h)
                exact hfloor
              · exact hwalked.reads floor hsome e hbelow offer hoffer hfloor
            · rcases hwalked.newest newest h with hmid' | ⟨e, he, hoffer⟩
              · rcases hread.newest newest hmid' with hwalk | ⟨e, he, hoffer⟩
                · exact .inl hwalk
                · exact .inr ⟨e, hinRest e he, hoffer⟩
              · exact .inr ⟨e, List.mem_of_mem_drop he, hoffer⟩

/-! ## A page of a gap -/

/-- What reading entries of a gap comes to. -/
structure ReadsGap (parseOffer : ε → Option DMarketOffer) (gap : CatchUpGap) (entries : List ε)
    (walk walk' : GapWalk ε) : Prop where
  grows : ∀ x ∈ offerIds walk.read, x ∈ offerIds walk'.read
  seen : ∀ x, walk'.poller.seen.contains x = true →
    walk.poller.seen.contains x = true ∨ x ∈ offerIds walk'.read
  reads : ∀ e ∈ entries, ∀ offer, parseOffer e = some offer → gap.untilMs ≤ offer.createdAtMs →
    walk.poller.seen.contains offer.offerId = true ∨ offer.offerId ∈ gap.skipIds ∨
      offer.offerId ∈ offerIds walk'.read
  ends : walk'.reachedEnd = true → walk.reachedEnd = true ∨
    ∃ e ∈ entries, ∃ offer, parseOffer e = some offer ∧ offer.createdAtMs < gap.untilMs

theorem readsGap_one (gap : CatchUpGap) (receivedAtMs : Int) (walk : GapWalk ε) (entry : ε) :
    ReadsGap parseOffer gap [entry] walk (readGap parseOffer gap receivedAtMs walk entry) := by
  cases hparse : parseOffer entry with
  | none =>
      have hread : readGap parseOffer gap receivedAtMs walk entry
          = { walk with read := walk.read ++ [⟨none, entry, receivedAtMs⟩] } := by
        rw [readGap, hparse]
      rw [hread]
      refine ⟨fun x hx => ?_, fun _ h => .inl h, ?_, .inl⟩
      · rw [offerIds_append]
        exact List.mem_append_left _ hx
      · intro e he offer hoffer
        rw [List.mem_singleton.mp he, hparse] at hoffer
        cases hoffer
  | some offer =>
      have honly : ∀ e ∈ [entry], ∀ o, parseOffer e = some o → o = offer := by
        intro e he o ho
        rw [List.mem_singleton.mp he, hparse] at ho
        exact (Option.some.inj ho).symm
      rw [readGap, hparse]
      dsimp only
      split
      · rename_i hbelow
        refine ⟨fun _ h => h, fun _ h => .inl h, ?_,
          fun _ => .inr ⟨entry, List.mem_singleton_self _, offer, hparse, hbelow⟩⟩
        intro e he o ho hfloor
        rw [honly e he o ho] at hfloor
        omega
      · unfold ListingPoller.takeUnseen
        by_cases hseen : (walk.poller.seen.contains offer.offerId
            || decide (offer.offerId ∈ gap.skipIds)) = true
        · rw [if_pos hseen]
          refine ⟨fun _ h => h, fun _ h => .inl h, ?_, .inl⟩
          intro e he o ho _
          rw [honly e he o ho]
          rw [Bool.or_eq_true, decide_eq_true_eq] at hseen
          exact hseen.imp_right .inl
        · rw [if_neg hseen]
          have hlast : offer.offerId
              ∈ offerIds (walk.read ++ [⟨some offer, entry, receivedAtMs⟩]) := by
            rw [offerIds_append]
            exact List.mem_append_right _ (List.mem_singleton_self _)
          refine ⟨fun x hx => ?_, fun x hx => ?_, ?_, .inl⟩
          · rw [offerIds_append]
            exact List.mem_append_left _ hx
          · rcases contains_seen_of_remember hx with rfl | hbefore
            · exact .inr hlast
            · exact .inl hbefore
          · intro e he o ho _
            rw [honly e he o ho]
            exact .inr (.inr hlast)

theorem readsGap_foldl (gap : CatchUpGap) (receivedAtMs : Int) (entries : List ε)
    (walk : GapWalk ε) : ReadsGap parseOffer gap entries walk
      (entries.foldl (readGap parseOffer gap receivedAtMs) walk) := by
  induction entries generalizing walk with
  | nil => exact ⟨fun _ h => h, fun _ h => .inl h, by simp, .inl⟩
  | cons entry rest ih =>
      have hone : ReadsGap parseOffer gap [entry] walk _ :=
        readsGap_one gap receivedAtMs walk entry
      have hrest := ih (readGap parseOffer gap receivedAtMs walk entry)
      rw [List.foldl_cons]
      refine ⟨fun x hx => hrest.grows x (hone.grows x hx), fun x hx => ?_,
        fun e he offer hoffer hfloor => ?_, fun hend => ?_⟩
      · rcases hrest.seen x hx with hmid | hread
        · exact (hone.seen x hmid).imp_right (hrest.grows x)
        · exact .inr hread
      · rcases List.mem_cons.mp he with rfl | he
        · rcases hone.reads e List.mem_cons_self offer hoffer hfloor with hseen | hskip | hread
          · exact .inl hseen
          · exact .inr (.inl hskip)
          · exact .inr (.inr (hrest.grows _ hread))
        · rcases hrest.reads e he offer hoffer hfloor with hseen | hskip | hread
          · exact (hone.seen _ hseen).imp_right fun h => .inr (hrest.grows _ h)
          · exact .inr (.inl hskip)
          · exact .inr (.inr hread)
      · rcases hrest.ends hend with hmid | ⟨e, he, hlow⟩
        · rcases hone.ends hmid with hwalk | ⟨e, he, hlow⟩
          · exact .inl hwalk
          · exact .inr ⟨e, by rw [List.mem_singleton.mp he]; exact List.mem_cons_self, hlow⟩
        · exact .inr ⟨e, List.mem_cons_of_mem _ he, hlow⟩

end

/-! ## Runs against the market -/

/-- A run of the poller against a market. -/
structure MarketRun where
  /-- How many of the newest listings have not appeared. -/
  hidden : Nat
  run : PollRun
  /-- The skip ids of every gap there has been. -/
  skipped : Finset String
  /-- The listings recorded before the run, by the resume point. -/
  resumed : Finset String
  firstFloorMs : Option Int

inductive MarketEvent (ε : Type) where
  | arrive (count : Nat)
  | resume (point : ResumePoint) (nowMs maxCatchUpMs : Int)
  | live (visits : List (Visit ε))
  | catchUp (visits : List (Visit ε))
  | note (offer : DMarketOffer)
  | save

namespace MarketRun

/-- A poller that has read nothing, and a market some of whose listings have appeared. -/
def start (hidden maxSeen : Nat) : MarketRun := ⟨hidden, .start maxSeen, ∅, ∅, none⟩

def skipIds (gaps : List CatchUpGap) : Finset String :=
  gaps.foldr (fun gap ids => gap.skipIds ∪ ids) ∅

def moved (st : MarketRun) (hidden : Nat) (run : PollRun) : MarketRun where
  hidden := hidden
  run := run
  skipped := st.skipped ∪ skipIds run.poller.gaps
  resumed := st.resumed
  firstFloorMs := st.firstFloorMs.or run.poller.nextFloorMs

section
variable (m : Market ε) (parseOffer : ε → Option DMarketOffer) (order : SetOrder)
  (position : String → Option Int)

def step (st : MarketRun) : MarketEvent ε → Option MarketRun
  | .arrive count => some (st.moved (st.hidden - count) st.run)
  | .resume point nowMs maxCatchUpMs =>
      (st.run.step parseOffer order position (.resume point nowMs maxCatchUpMs)).map fun run =>
        { st with resumed := st.resumed ∪ point.recordedIds }.moved st.hidden run
  | .live visits =>
      (st.run.step parseOffer order position (.live (m.fetch st.hidden visits))).map
        (st.moved (Market.hiddenAfter st.hidden visits))
  | .catchUp visits =>
      (st.run.step parseOffer order position (.catchUp (m.fetch st.hidden visits))).map
        (st.moved (Market.hiddenAfter st.hidden visits))
  | .note offer => (st.run.step parseOffer order position (.note offer)).map (st.moved st.hidden)
  | .save => (st.run.step parseOffer order position .save).map (st.moved st.hidden)

/-- The listing was returned, was recorded before, or lies in an open gap. -/
def Covered (st : MarketRun) (entry : ε) (offer : DMarketOffer) : Prop :=
  offer.offerId ∈ st.run.returned ∨ offer.offerId ∈ st.skipped ∨ offer.offerId ∈ st.resumed ∨
    ∃ gap ∈ st.run.poller.gaps, ∃ rest, m.after gap.cursor = some rest ∧ entry ∈ rest ∧
      gap.untilMs ≤ offer.createdAtMs

/-- Every listing there is from the first floor up to the current one is covered. -/
def Covers (st : MarketRun) : Prop :=
  ∀ first floor, st.firstFloorMs = some first → st.run.poller.nextFloorMs = some floor →
    ∀ entry ∈ m.history.drop st.hidden, ∀ offer, parseOffer entry = some offer →
      first ≤ offer.createdAtMs → offer.createdAtMs < floor → st.Covered m entry offer

/-- A live poll with a floor gets no page on which nothing parses while a listing at or above the
floor that is not covered lies below that page. -/
def ReadsOn (st : MarketRun) : MarketEvent ε → Prop
  | .live visits => ∀ floor, st.run.poller.nextFloorMs = some floor →
      NothingBelowBlank parseOffer m (m.fetch st.hidden visits) liveMaxPages none floor
        (st.Covered m)
  | _ => True

variable {m} {parseOffer} {order} {position}

structure Inv (m : Market ε) (parseOffer : ε → Option DMarketOffer) (st : MarketRun) : Prop where
  covers : st.Covers m parseOffer
  seen : ∀ x, st.run.poller.seen.contains x = true →
    x ∈ st.run.returned ∨ x ∈ st.skipped ∨ x ∈ st.resumed
  skips : ∀ gap ∈ st.run.poller.gaps, gap.skipIds ⊆ st.skipped
  /-- The newest time is that of a listing there is, and the floor stays under it. -/
  newest : ∀ newest, st.run.poller.newestMs = some newest →
    st.run.poller.nextFloorMs = some (newest - liveOverlapMs) ∧
      ∃ e ∈ m.history.drop st.hidden, ∃ offer, parseOffer e = some offer ∧
        offer.createdAtMs = newest
  first : st.run.poller.newestMs = none → st.firstFloorMs = st.run.poller.nextFloorMs

theorem inv_start (hidden maxSeen : Nat) : Inv m parseOffer (start hidden maxSeen) where
  covers := by
    intro first floor hfirst
    cases hfirst
  seen := by
    intro x hx
    cases hx
  skips := by
    intro gap hgap
    cases hgap
  newest := by
    intro newest hnewest
    cases hnewest
  first := fun _ => rfl

theorem skipIds_subset {gaps : List CatchUpGap} {gap : CatchUpGap} (h : gap ∈ gaps) :
    gap.skipIds ⊆ skipIds gaps := by
  induction gaps with
  | nil => cases h
  | cons head rest ih =>
      rcases List.mem_cons.mp h with rfl | h
      · exact Finset.subset_union_left
      · exact (ih h).trans Finset.subset_union_right

/-- Listings that have not appeared are no older than any that have. -/
theorem newer_of_hidden (hm : m.Lawful parseOffer) {hidden : Nat} {newer older : ε}
    {offer offer' : DMarketOffer} (hnewer : newer ∈ m.history) (hhidden : newer ∉ m.history.drop hidden)
    (holder : older ∈ m.history.drop hidden) (hoffer : parseOffer newer = some offer)
    (hoffer' : parseOffer older = some offer') : offer'.createdAtMs ≤ offer.createdAtMs := by
  have hsorted := hm.sorted
  rw [← List.take_append_drop hidden m.history] at hsorted hnewer
  exact (List.pairwise_append.mp hsorted).2.2 newer
    ((List.mem_append.mp hnewer).resolve_right hhidden) older holder offer offer' hoffer hoffer'

/-- A listing under the floor, from the first floor on, has been there since. -/
theorem Inv.appeared (hm : m.Lawful parseOffer) {st : MarketRun} (hI : Inv m parseOffer st)
    {first floor : Int} (hfirst : st.firstFloorMs = some first)
    (hfloor : st.run.poller.nextFloorMs = some floor) {entry : ε} (hentry : entry ∈ m.history)
    {offer : DMarketOffer} (hoffer : parseOffer entry = some offer)
    (habove : first ≤ offer.createdAtMs) (hbelow : offer.createdAtMs < floor) :
    entry ∈ m.history.drop st.hidden := by
  by_contra hhidden
  cases hnewest : st.run.poller.newestMs with
  | none =>
      have hsame := hI.first hnewest
      rw [hfirst, hfloor] at hsame
      obtain rfl := Option.some.inj hsame
      omega
  | some newest =>
      obtain ⟨hunder, e, he, offer', hoffer', rfl⟩ := hI.newest newest hnewest
      have hle := newer_of_hidden hm hentry hhidden he hoffer hoffer'
      rw [hfloor] at hunder
      have hfloor' := Option.some.inj hunder
      rw [liveOverlapMs] at hfloor'
      omega

theorem Inv.covered (hm : m.Lawful parseOffer) {st : MarketRun} (hI : Inv m parseOffer st)
    {first floor : Int} (hfirst : st.firstFloorMs = some first)
    (hfloor : st.run.poller.nextFloorMs = some floor) {entry : ε} (hentry : entry ∈ m.history)
    {offer : DMarketOffer} (hoffer : parseOffer entry = some offer)
    (habove : first ≤ offer.createdAtMs) (hbelow : offer.createdAtMs < floor) :
    st.Covered m entry offer :=
  hI.covers first floor hfirst hfloor entry
    (hI.appeared hm hfirst hfloor hentry hoffer habove hbelow) offer hoffer habove hbelow

theorem Covered.moved {st : MarketRun} {entry : ε} {offer : DMarketOffer}
    (h : st.Covered m entry offer) {hidden : Nat} {run : PollRun}
    (hreturned : ∀ x ∈ st.run.returned, x ∈ run.returned)
    (hgaps : ∀ gap ∈ st.run.poller.gaps, ∀ rest, m.after gap.cursor = some rest → entry ∈ rest →
      gap.untilMs ≤ offer.createdAtMs → (st.moved hidden run).Covered m entry offer) :
    (st.moved hidden run).Covered m entry offer := by
  rcases h with h | h | h | ⟨gap, hgap, rest, hafter, hentry, hfloor⟩
  · exact .inl (hreturned _ h)
  · exact .inr (.inl (Finset.mem_union_left _ h))
  · exact .inr (.inr (.inl h))
  · exact hgaps gap hgap rest hafter hentry hfloor

/-- What a step has to show. -/
theorem Inv.moved {st : MarketRun} (hI : Inv m parseOffer st) {hidden : Nat} {run : PollRun}
    (hseen : ∀ x, run.poller.seen.contains x = true →
      x ∈ run.returned ∨ x ∈ st.skipped ∨ x ∈ st.resumed)
    (hnewest : ∀ newest, run.poller.newestMs = some newest →
      run.poller.nextFloorMs = some (newest - liveOverlapMs) ∧
        ∃ e ∈ m.history.drop hidden, ∃ offer, parseOffer e = some offer ∧
          offer.createdAtMs = newest)
    (hfirst : run.poller.newestMs = none → st.run.poller.newestMs = none ∧
      (st.run.poller.nextFloorMs = none ∨ run.poller.nextFloorMs = st.run.poller.nextFloorMs))
    (hcovers : ∀ first floor, st.firstFloorMs = some first → run.poller.nextFloorMs = some floor →
      ∀ entry ∈ m.history.drop hidden, ∀ offer, parseOffer entry = some offer →
        first ≤ offer.createdAtMs → offer.createdAtMs < floor →
          (st.moved hidden run).Covered m entry offer) :
    Inv m parseOffer (st.moved hidden run) where
  covers := by
    intro first floor hfirst' hfloor entry hentry offer hoffer habove hbelow
    cases hbefore : st.firstFloorMs with
    | none =>
        rw [MarketRun.moved, hbefore, Option.none_or] at hfirst'
        have hsame : some first = some floor := hfirst'.symm.trans hfloor
        obtain rfl := Option.some.inj hsame
        omega
    | some earlier =>
        rw [MarketRun.moved, hbefore, Option.some_or] at hfirst'
        obtain rfl := Option.some.inj hfirst'
        exact hcovers earlier floor hbefore hfloor entry hentry offer hoffer habove hbelow
  seen := fun x hx => (hseen x hx).imp_right fun h => h.imp_left (Finset.mem_union_left _)
  skips := fun gap hgap => (skipIds_subset hgap).trans Finset.subset_union_right
  newest := hnewest
  first := by
    intro hnone
    obtain ⟨hnone', hfloor⟩ := hfirst hnone
    show st.firstFloorMs.or run.poller.nextFloorMs = run.poller.nextFloorMs
    rw [hI.first hnone']
    rcases hfloor with hfloor | hfloor
    · rw [hfloor, Option.none_or]
    · rw [hfloor]
      cases st.run.poller.nextFloorMs with
      | none => rfl
      | some floor => rfl

theorem hiddenAfter_le (hidden : Nat) (visits : List (Visit ε)) :
    Market.hiddenAfter hidden visits ≤ hidden := by
  induction visits generalizing hidden with
  | nil => exact Nat.le_refl _
  | cons visit rest ih => exact (ih (hidden - visit.arrived)).trans (Nat.sub_le _ _)

theorem mem_drop_mono {l : List ε} {entry : ε} {a b : Nat} (h : b ≤ a) (hentry : entry ∈ l.drop a) :
    entry ∈ l.drop b := by
  obtain ⟨k, rfl⟩ := Nat.exists_eq_add_of_le h
  rw [← List.drop_drop] at hentry
  exact List.mem_of_mem_drop hentry

/-- A step that leaves the newest time, the floor, the gaps and what is seen as they were. -/
theorem Inv.quiet (hm : m.Lawful parseOffer) {st : MarketRun} (hI : Inv m parseOffer st)
    {hidden : Nat} (hhidden : hidden ≤ st.hidden) {run : PollRun}
    (hreturned : run.returned = st.run.returned) (hseen : run.poller.seen = st.run.poller.seen)
    (hgaps : run.poller.gaps = st.run.poller.gaps)
    (hnewest : run.poller.newestMs = st.run.poller.newestMs)
    (hfloor : run.poller.nextFloorMs = st.run.poller.nextFloorMs) :
    Inv m parseOffer (st.moved hidden run) := by
  refine hI.moved ?_ ?_ ?_ ?_
  · intro x hx
    rw [hseen] at hx
    rw [hreturned]
    exact hI.seen x hx
  · intro newest h
    rw [hnewest] at h
    obtain ⟨hunder, e, he, hoffer⟩ := hI.newest newest h
    exact ⟨hfloor.trans hunder, e, mem_drop_mono hhidden he, hoffer⟩
  · intro hnone
    exact ⟨hnewest ▸ hnone, .inr hfloor⟩
  · intro first floor hfirst hfloor' entry hentry offer hoffer habove hbelow
    rw [hfloor] at hfloor'
    have hcovered := hI.covered hm hfirst hfloor' (List.mem_of_mem_drop hentry) hoffer habove hbelow
    refine hcovered.moved (fun x hx => hreturned ▸ hx) fun gap hgap rest hafter hmem huntil => ?_
    exact .inr (.inr (.inr ⟨gap, hgaps ▸ hgap, rest, hafter, hmem, huntil⟩))

theorem offerIds_sorted_mem {read : List (ReadEntry ε)} {x : String} :
    x ∈ offerIds (read.insertionSort createdOrder) ↔ x ∈ offerIds read :=
  (offerIds_insertionSort read).mem_iff

/-- The pages of a live poll are those from the listings there are at its first request on. -/
theorem livePoll_walked (hm : m.Lawful parseOffer) {st : MarketRun} {visits : List (Visit ε)}
    {walk : LiveWalk ε} {behind : Option String}
    (hok : st.ReadsOn m parseOffer (.live visits))
    (hpages : livePages parseOffer (m.fetch st.hidden visits) st.run.poller.nextFloorMs
      st.run.poller.seen liveMaxPages none ⟨st.run.poller.newestMs, [], ∅, none⟩
        = some (walk, behind)) :
    Walked parseOffer m st.run.poller.nextFloorMs st.run.poller.seen (st.Covered m)
      (m.history.drop (Market.hiddenAfter st.hidden (visits.take 1)))
      ⟨st.run.poller.newestMs, [], ∅, none⟩ walk behind := by
  refine livePages_walked hm (List.take_append_drop _ _).symm ?_ ?_ (fun _ h => by cases h)
    (fun h => by cases h) hok hpages
  · intro page receivedAtMs hpage
    obtain ⟨visit, -, hanswer⟩ := Option.bind_eq_some_iff.mp hpage
    obtain ⟨size, -, heq⟩ := Option.map_eq_some_iff.mp hanswer
    exact ⟨size, (congrArg Prod.fst heq).symm⟩
  · intro i next below hafter page receivedAtMs hpage
    obtain ⟨visit, -, hanswer⟩ := Option.bind_eq_some_iff.mp hpage
    obtain ⟨size, -, heq⟩ := Option.map_eq_some_iff.mp hanswer
    have hpage' := congrArg Prod.fst heq
    simp only [hafter] at hpage'
    exact ⟨size, hpage'.symm⟩

theorem hiddenAfter_take_le (hidden : Nat) (visits : List (Visit ε)) :
    Market.hiddenAfter hidden visits ≤ Market.hiddenAfter hidden (visits.take 1) := by
  cases visits with
  | nil => exact Nat.le_refl _
  | cons visit rest => exact hiddenAfter_le (hidden - visit.arrived) rest

/-- A live poll that got all its pages. -/
theorem Inv.live (hm : m.Lawful parseOffer) {st : MarketRun} (hI : Inv m parseOffer st)
    {visits : List (Visit ε)} (hok : st.ReadsOn m parseOffer (.live visits))
    {walk : LiveWalk ε} {behind : Option String}
    (hpages : livePages parseOffer (m.fetch st.hidden visits) st.run.poller.nextFloorMs
      st.run.poller.seen liveMaxPages none ⟨st.run.poller.newestMs, [], ∅, none⟩
        = some (walk, behind)) :
    Inv m parseOffer (st.moved (Market.hiddenAfter st.hidden visits)
      { st.run with
        poller := moveOn order st.run.poller walk behind
        returned := st.run.returned ++ offerIds (walk.read.insertionSort createdOrder) }) := by
  have hwalked := livePoll_walked hm hok hpages
  have hfresh := livePages_fresh parseOffer (fresh_nil st.run.poller.seen st.run.poller.newestMs none)
    hpages
  have hread : ∀ x, x ∈ walk.readIds →
      x ∈ st.run.returned ++ offerIds (walk.read.insertionSort createdOrder) := fun x hx =>
    List.mem_append_right _ (offerIds_sorted_mem.mpr ((hfresh.mem_iff x).mpr hx))
  have hnewest : ∀ newest, walk.newestMs = some newest →
      ∃ e ∈ m.history.drop (Market.hiddenAfter st.hidden (visits.take 1)), ∃ offer,
        parseOffer e = some offer ∧ offer.createdAtMs = newest := by
    intro newest h
    rcases hwalked.newest newest h with hbefore | hnew
    · obtain ⟨-, e, he, hoffer⟩ := hI.newest newest hbefore
      exact ⟨e, mem_drop_mono (hiddenAfter_le _ _) he, hoffer⟩
    · exact hnew
  refine hI.moved ?_ ?_ ?_ ?_
  · intro x hx
    rcases contains_seen_of_foldl_remember hx with hids | hbefore
    · exact .inl (hread x ((order.mem_iter _ x).mp hids))
    · exact (hI.seen x hbefore).imp_left (List.mem_append_left _)
  · intro newest h
    have h' : walk.newestMs = some newest := h
    obtain ⟨e, he, hoffer⟩ := hnewest newest h'
    refine ⟨?_, e, mem_drop_mono (hiddenAfter_take_le _ _) he, hoffer⟩
    show walk.newestMs.elim _ _ = _
    rw [h', Option.elim_some]
  · intro hnone
    have hnone' : walk.newestMs = none := hnone
    obtain ⟨hbefore, -⟩ := livePages_blank parseOffer hpages hnone'
    refine ⟨hbefore, .inr ?_⟩
    show walk.newestMs.elim _ _ = _
    rw [hnone', Option.elim_none]
  · intro first floor' hfirst hfloor' entry hentry offer hoffer habove hbelow
    have hentry' := List.mem_of_mem_drop hentry
    have hkept : ∀ gap ∈ st.run.poller.gaps,
        gap ∈ (moveOn order st.run.poller walk behind).gaps := by
      intro gap hgap
      unfold moveOn
      dsimp only
      split
      · exact List.mem_append_left _ hgap
      · exact hgap
    have hmono : st.Covered m entry offer → (st.moved (Market.hiddenAfter st.hidden visits)
        { st.run with
          poller := moveOn order st.run.poller walk behind
          returned := st.run.returned ++ offerIds (walk.read.insertionSort createdOrder) }).Covered
            m entry offer := fun hcovered =>
      hcovered.moved (fun x hx => List.mem_append_left _ hx) fun gap hgap rest hafter hmem huntil =>
        .inr (.inr (.inr ⟨gap, hkept gap hgap, rest, hafter, hmem, huntil⟩))
    cases hfloor : st.run.poller.nextFloorMs with
    | none =>
        -- without a floor there was no first floor either
        cases hbefore : st.run.poller.newestMs with
        | none =>
            rw [hI.first hbefore, hfloor] at hfirst
            cases hfirst
        | some newest =>
            rw [(hI.newest newest hbefore).1] at hfloor
            cases hfloor
    | some floor =>
        by_cases hunder : offer.createdAtMs < floor
        · exact hmono (hI.covered hm hfirst hfloor hentry' hoffer habove hunder)
        · -- between the two floors: the poll has read it, or left it to a gap
          have hthere : entry ∈ m.history.drop (Market.hiddenAfter st.hidden (visits.take 1)) := by
            by_contra hhidden
            cases hnew : walk.newestMs with
            | none =>
                have hsame : (moveOn order st.run.poller walk behind).nextFloorMs = some floor := by
                  show walk.newestMs.elim _ _ = _
                  rw [hnew, Option.elim_none, hfloor]
                rw [show (moveOn order st.run.poller walk behind).nextFloorMs = some floor' from
                  hfloor'] at hsame
                obtain rfl := Option.some.inj hsame
                exact hunder hbelow
            | some newest =>
                have hmoved : (moveOn order st.run.poller walk behind).nextFloorMs
                    = some (newest - liveOverlapMs) := by
                  show walk.newestMs.elim _ _ = _
                  rw [hnew, Option.elim_some]
                rw [show (moveOn order st.run.poller walk behind).nextFloorMs = some floor' from
                  hfloor'] at hmoved
                have heq := Option.some.inj hmoved
                rw [liveOverlapMs] at heq
                obtain ⟨e, he, offer', hoffer', rfl⟩ := hnewest newest hnew
                have := newer_of_hidden hm hentry' hhidden he hoffer hoffer'
                omega
          rcases hwalked.reads floor hfloor entry hthere offer hoffer (by omega) with
            (hseen | hids) | ⟨cursor, below, rfl, hafter, hmem⟩ | hknown
          · rcases hI.seen _ hseen with h | h | h
            · exact .inl (List.mem_append_left _ h)
            · exact .inr (.inl (Finset.mem_union_left _ h))
            · exact .inr (.inr (.inl h))
          · exact .inl (hread _ hids)
          · have huntil : (behindGap st.run.poller.recorded cursor floor).untilMs
                ≤ offer.createdAtMs := by
              show floor ≤ offer.createdAtMs
              omega
            have hgap : behindGap st.run.poller.recorded cursor floor
                ∈ (moveOn order st.run.poller walk (some cursor)).gaps := by
              simp only [moveOn, hfloor]
              exact List.mem_append_right _ (List.mem_singleton_self _)
            exact .inr (.inr (.inr ⟨_, hgap, below, hafter, hmem, huntil⟩))
          · exact hmono hknown

/-- A page of the first gap. -/
theorem Inv.catchUp (hm : m.Lawful parseOffer) {st : MarketRun} (hI : Inv m parseOffer st)
    {visits : List (Visit ε)} {gap : CatchUpGap} {rest : List CatchUpGap}
    (hgaps : st.run.poller.gaps = gap :: rest) {page : OffersPage ε} {receivedAtMs : Int}
    (hpage : m.fetch st.hidden visits 0 (some gap.cursor) = some (page, receivedAtMs))
    {walk : GapWalk ε} (hwalk : page.entries.foldl (readGap parseOffer gap receivedAtMs)
      ⟨st.run.poller, [], page.cursor.isNone || page.entries.isEmpty⟩ = walk) :
    Inv m parseOffer (st.moved (Market.hiddenAfter st.hidden visits)
      { st.run with
        poller := { walk.poller with gaps := advanceGap gap rest walk.reachedEnd page.cursor }
        returned := st.run.returned ++ offerIds walk.read }) := by
  have hread : ReadsGap parseOffer gap page.entries _ _ :=
    readsGap_foldl gap receivedAtMs page.entries
      ⟨st.run.poller, [], page.cursor.isNone || page.entries.isEmpty⟩
  have hpoller := foldl_readGap_poller parseOffer gap receivedAtMs page.entries
    ⟨st.run.poller, [], page.cursor.isNone || page.entries.isEmpty⟩
  rw [hwalk] at hread hpoller
  have hnewest : walk.poller.newestMs = st.run.poller.newestMs := by rw [hpoller]
  have hfloor : walk.poller.nextFloorMs = st.run.poller.nextFloorMs := by rw [hpoller]
  refine hI.moved ?_ ?_ ?_ ?_
  · intro x hx
    rcases hread.seen x hx with hbefore | hids
    · exact (hI.seen x hbefore).imp_left (List.mem_append_left _)
    · exact .inl (List.mem_append_right _ hids)
  · intro newest h
    obtain ⟨hunder, e, he, hoffer⟩ := hI.newest newest (hnewest ▸ h)
    exact ⟨hfloor.trans hunder, e, mem_drop_mono (hiddenAfter_le _ _) he, hoffer⟩
  · intro hnone
    exact ⟨hnewest ▸ hnone, .inr hfloor⟩
  · intro first floor hfirst hfloor' entry hentry offer hoffer habove hbelow
    have hcovered := hI.covered hm hfirst (hfloor ▸ hfloor') (List.mem_of_mem_drop hentry) hoffer
      habove hbelow
    refine hcovered.moved (fun x hx => List.mem_append_left _ hx) ?_
    intro gap' hgap' below hafter hmem huntil
    rw [hgaps] at hgap'
    rcases List.mem_cons.mp hgap' with rfl | hother
    · -- the listing is on the page, or the gap still holds it
      obtain ⟨visit, -, hanswer⟩ := Option.bind_eq_some_iff.mp hpage
      obtain ⟨size, -, heq⟩ := Option.map_eq_some_iff.mp hanswer
      have hserved : page = m.pageOf below size := by
        have hfst := congrArg Prod.fst heq
        simp only [hafter] at hfst
        exact hfst.symm
      obtain ⟨before, last, hhistory, -⟩ := m.after_eq_some hafter
      have hsplit : m.history = (before ++ [last]) ++ below := by
        rw [hhistory, List.append_assoc]
        rfl
      rcases m.mem_pageOf_or hmem size with hon | hdeep
      · rcases hread.reads entry (hserved ▸ hon) offer hoffer huntil with hseen | hskip | hids
        · rcases hI.seen _ hseen with h | h | h
          · exact .inl (List.mem_append_left _ h)
          · exact .inr (.inl (Finset.mem_union_left _ h))
          · exact .inr (.inr (.inl h))
        · exact .inr (.inl (Finset.mem_union_left _
            (hI.skips gap' (hgaps ▸ List.mem_cons_self) hskip)))
        · exact .inl (List.mem_append_right _ hids)
      · cases hcursor : page.cursor with
        | none =>
            rw [hserved] at hcursor
            rw [m.pageOf_cursor_eq_none hcursor] at hdeep
            cases hdeep
        | some next =>
            have hnext := m.after_pageOf hm.cursors hsplit (hserved ▸ hcursor)
            have hopen : walk.reachedEnd = false := by
              by_contra hend
              rcases hread.ends (Bool.not_eq_false _ ▸ hend) with hnone | ⟨e, he, offer', hoffer', hlow⟩
              · rw [hcursor, Option.isNone_some, Bool.false_or, List.isEmpty_iff, hserved] at hnone
                have hempty : below = [] := by
                  have htake : below.take (size + 1) = [] := hnone
                  simpa using htake
                rw [hempty] at hmem
                cases hmem
              · have := hm.below hsplit (hserved ▸ he) hdeep hoffer' hoffer
                omega
            have hadvanced : advanceGap gap' rest walk.reachedEnd page.cursor
                = { gap' with cursor := next } :: rest := by
              rw [hopen, hcursor]
              rfl
            have hgap : { gap' with cursor := next }
                ∈ advanceGap gap' rest walk.reachedEnd page.cursor := by
              rw [hadvanced]
              exact List.mem_cons_self
            rw [← hcursor]
            exact .inr (.inr (.inr ⟨{ gap' with cursor := next }, hgap, _, hnext, hdeep, huntil⟩))
    · have hkept : gap' ∈ advanceGap gap rest walk.reachedEnd page.cursor := by
        unfold advanceGap
        split
        · exact List.mem_cons_of_mem _ hother
        · exact hother
      exact .inr (.inr (.inr ⟨gap', hkept, below, hafter, hmem, huntil⟩))

theorem contains_seen_of_foldl_resume {newestMs : Int} {ids : List String} {p : ListingPoller}
    {x : String} (h : (ids.foldl (fun p listingId =>
      (p.remember listingId).record listingId newestMs) p).seen.contains x = true) :
    x ∈ ids ∨ p.seen.contains x = true := by
  induction ids generalizing p with
  | nil => exact .inr h
  | cons listingId rest ih =>
      rcases ih h with hrest | hseen
      · exact .inl (List.mem_cons_of_mem _ hrest)
      · rcases contains_seen_of_remember (p := p) hseen with rfl | hseen
        · exact .inl List.mem_cons_self
        · exact .inr hseen

/-- Starting from a resume point. -/
theorem Inv.resume {st : MarketRun} (hI : Inv m parseOffer st) (point : ResumePoint)
    (nowMs maxCatchUpMs : Int) (noted : List DMarketOffer)
    (hidle : st.run.poller.started = false) :
    Inv m parseOffer ({ st with resumed := st.resumed ∪ point.recordedIds }.moved st.hidden
      { st.run with
        poller := st.run.poller.resumeFrom order position point nowMs maxCatchUpMs
        noted := noted }) := by
  have hidle' := hidle
  rw [ListingPoller.started, Bool.or_eq_false_iff, Option.isSome_eq_false_iff,
    Option.isSome_eq_false_iff, Option.isNone_iff_eq_none, Option.isNone_iff_eq_none] at hidle'
  obtain ⟨hfloor, hnewest⟩ := hidle'
  have hnone : st.firstFloorMs = none := (hI.first hnewest).trans hfloor
  have hresumed : Inv m parseOffer { st with resumed := st.resumed ∪ point.recordedIds } := by
    refine ⟨?_, fun x hx => ?_, hI.skips, hI.newest, hI.first⟩
    · intro first floor hfirst
      rw [show st.firstFloorMs = some first from hfirst] at hnone
      cases hnone
    · exact (hI.seen x hx).imp_right fun h => h.imp_right (Finset.mem_union_left _)
  have hkept := (foldl_resume point.newestMs (order.iter point.recordedIds)
    { st.run.poller with
      nextFloorMs := some (max (point.newestMs - resumeOverlapMs) (nowMs - maxCatchUpMs)) }).2.2.2
  have hnewest' : (st.run.poller.resumeFrom order position point nowMs maxCatchUpMs).newestMs = none :=
    hkept.trans hnewest
  refine hresumed.moved ?_ ?_ ?_ ?_
  · intro x hx
    rcases contains_seen_of_foldl_resume hx with hids | hbefore
    · exact .inr (.inr (Finset.mem_union_right _ ((order.mem_iter _ x).mp hids)))
    · exact hresumed.seen x hbefore
  · intro newest h
    rw [show (st.run.poller.resumeFrom order position point nowMs maxCatchUpMs).newestMs
      = some newest from h] at hnewest'
    cases hnewest'
  · intro _
    exact ⟨hnewest, .inl hfloor⟩
  · intro first floor hfirst
    rw [show st.firstFloorMs = some first from hfirst] at hnone
    cases hnone

theorem Inv.step (hm : m.Lawful parseOffer) {st st' : MarketRun} {e : MarketEvent ε}
    (hI : Inv m parseOffer st) (hok : st.ReadsOn m parseOffer e)
    (h : st.step m parseOffer order position e = some st') : Inv m parseOffer st' := by
  cases e with
  | arrive count =>
      cases h
      exact hI.quiet hm (Nat.sub_le _ _) rfl rfl rfl rfl rfl
  | resume point nowMs maxCatchUpMs =>
      obtain ⟨run, hrun, rfl⟩ := Option.map_eq_some_iff.mp h
      rw [PollRun.step] at hrun
      split at hrun
      · cases hrun
      · rename_i hidle
        cases hrun
        rw [Bool.not_eq_true] at hidle
        exact hI.resume point nowMs maxCatchUpMs _ hidle
  | live visits =>
      cases h
      rw [livePoll_eq]
      split
      · exact hI.quiet hm (hiddenAfter_le _ _) rfl rfl rfl rfl rfl
      · rename_i walk behind hpages
        exact hI.live hm hok hpages
  | catchUp visits =>
      cases h
      rw [catchUpPage_eq]
      split
      · rename_i hgaps
        exact hI.quiet hm (hiddenAfter_le _ _) (List.append_nil _) rfl rfl rfl rfl
      · rename_i gap rest hgaps
        split
        · exact hI.quiet hm (hiddenAfter_le _ _) rfl rfl rfl rfl rfl
        · rename_i page receivedAtMs hpage
          exact hI.catchUp hm hgaps hpage rfl
  | note offer =>
      cases h
      exact hI.quiet hm (Nat.le_refl _) rfl rfl rfl rfl rfl
  | save =>
      cases h
      obtain ⟨hseen, -, hgaps, -⟩ := dropOldRecorded_kept st.run.poller
      refine hI.quiet hm (Nat.le_refl _) rfl hseen hgaps ?_ ?_
      · unfold ListingPoller.dropOldRecorded
        split <;> rfl
      · unfold ListingPoller.dropOldRecorded
        split <;> rfl

/-- In every run whose live polls read on below each page they must, no listing from the first
floor up to the current one is missed. -/
theorem covers_of_run (hm : m.Lawful parseOffer) {hidden maxSeen : Nat}
    {es : List (MarketEvent ε)} {st : MarketRun}
    (hrun : runFrom (step m parseOffer order position) (start hidden maxSeen) es = some st)
    (hok : AllSteps (step m parseOffer order position) (ReadsOn m parseOffer)
      (start hidden maxSeen) es) : st.Covers m parseOffer :=
  (runFrom_inv_of_allSteps (Inv m parseOffer) (ReadsOn m parseOffer)
    (fun _ _ _ hI hok hstep => hI.step hm hok hstep) hok (inv_start hidden maxSeen) hrun).covers

end

/-- Three listings and an entry that does not parse, which the market sorts between them. -/
def brokenMarket : Market (Option DMarketOffer) where
  history := [some ⟨"c", 120000⟩, none, some ⟨"b", 110000⟩, some ⟨"a", 100000⟩]
  cursor := fun entry => entry.elim "broken" DMarketOffer.offerId

theorem lawful_brokenMarket : brokenMarket.Lawful id where
  sorted := by
    have hsorted : brokenMarket.history.Pairwise fun a b => (a.all fun offer =>
        b.all fun older => decide (older.createdAtMs ≤ offer.createdAtMs)) = true := by decide
    refine hsorted.imp fun hab offer older ha hb => ?_
    rw [id_eq] at ha hb
    rw [ha, hb] at hab
    exact of_decide_eq_true hab
  cursors := by decide

def visit (arrived size : Nat) : Visit (Option DMarketOffer) :=
  ⟨arrived, some size, 0, ⟨[], none⟩⟩

/-- A poll while only the oldest listing is there, and one page by page after the others came. -/
def brokenEntryRun : List (MarketEvent (Option DMarketOffer)) :=
  [.live [visit 0 0], .live [visit 3 0, visit 0 0, visit 0 0, visit 0 0]]

/-- The second poll stops at the broken entry: the floor moves past a listing it has not read. -/
theorem not_covers_brokenEntry : brokenMarket.Lawful id ∧ ∃ st,
    runFrom (step brokenMarket id .sorted fun _ => none) (start 3 200000) brokenEntryRun = some st ∧
      ¬ st.Covers brokenMarket id := by
  refine ⟨lawful_brokenMarket, ?_⟩
  have hrun : ((runFrom (step brokenMarket id .sorted fun _ => none) (start 3 200000)
      brokenEntryRun).any fun st => decide (st.hidden = 0 ∧ st.firstFloorMs = some 95000 ∧
        st.run.poller.nextFloorMs = some 115000 ∧ st.run.returned = ["a", "c"] ∧ st.skipped = ∅ ∧
        st.resumed = ∅ ∧ st.run.poller.gaps = [])) = true := by decide +kernel
  obtain ⟨st, hst, hfields⟩ := (Option.any_eq_true _ _).mp hrun
  obtain ⟨hhidden, hfirst, hfloor, hreturned, hskipped, hresumed, hgaps⟩ := of_decide_eq_true hfields
  refine ⟨st, hst, fun hcovers => ?_⟩
  rcases hcovers 95000 115000 hfirst hfloor (some ⟨"b", 110000⟩) (by rw [hhidden]; simp [brokenMarket])
    ⟨"b", 110000⟩ rfl (by decide) (by decide) with h | h | h | ⟨gap, hgap, -⟩
  · rw [hreturned] at h
    exact absurd h (by decide)
  · rw [hskipped] at h
    cases h
  · rw [hresumed] at h
    cases h
  · rw [hgaps] at hgap
    cases hgap

/-- The same listings with the second poll's pages two entries long. -/
def longerPagesRun : List (MarketEvent (Option DMarketOffer)) :=
  [.live [visit 0 1], .live [visit 3 1, visit 0 1]]

theorem covers_of_run_longerPages : ∃ st,
    runFrom (step brokenMarket id .sorted fun _ => none) (start 3 200000) longerPagesRun = some st ∧
      st.Covers brokenMarket id := by
  have hrun : ∃ st, runFrom (step brokenMarket id .sorted fun _ => none) (start 3 200000)
      longerPagesRun = some st := Option.isSome_iff_exists.mp (by decide +kernel)
  obtain ⟨st, hst⟩ := hrun
  have hpages : ((servedPages (brokenMarket.fetch 3 [visit 3 1, visit 0 1]) liveMaxPages none).all
      fun page => page.entries.any Option.isSome) = true := by decide +kernel
  have hok : AllSteps (step brokenMarket id .sorted fun _ => none) (ReadsOn brokenMarket id)
      (start 3 200000) longerPagesRun := by
    refine AllSteps.cons (fun floor h => by cases h) fun mid hmid => ?_
    cases hmid
    refine AllSteps.cons ?_ fun _ _ => AllSteps.nil
    intro floor _ page hpage hblank
    obtain ⟨e, he, hsome⟩ := List.any_eq_true.mp (List.all_eq_true.mp hpages page hpage)
    rw [show e = none from hblank e he] at hsome
    cases hsome
  exact ⟨st, hst, covers_of_run lawful_brokenMarket hst hok⟩

end MarketRun

end BrandSniper.Dmarket
