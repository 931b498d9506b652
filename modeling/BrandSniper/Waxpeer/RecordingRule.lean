import BrandSniper.Waxpeer.Malformed

/-!
# The documented rule of the Waxpeer recording filter

`RecordingFilter` of `apps/listener/scrapers/waxpeer.py` promises which events
it records in terms of the events before them. Over any feed that never follows
more listings than the filter may track it keeps that promise, at the prices of
its ticks: `price_cents` of a price in dollars, made from thousandths rounded up
to whole cents.

The events are well formed: what the filter reads of them converts. What it does
with the others is said by `contained_iff`.
-/

namespace BrandSniper.Waxpeer

open Kit Json

/-! ## The rule

It speaks of the events before an event only: which of them were recorded,
and the price of the listing in the last one. -/

/-- The tick a call returns, if it does. -/
def Result.tick? (result : Result) : Option Tick := result.1.toOption.bind (·.2)

/-- The price of a payload. -/
def priceOf : Payload → Payload
  | .obj fields => field fields "price"
  | _ => .null

section
variable (slug : String → String) (pyRepr : Payload → String)

namespace FeedMessage

/-- The listing the event is about. -/
def id (m : FeedMessage) : Option String := itemId pyRepr m.payload

/-- The tick of a `new` or `update` event. -/
def tick? (m : FeedMessage) : Option Tick :=
  (listingTick slug pyRepr m.payload m.receivedAtMs).toOption.join

def Accepted (m : FeedMessage) : Prop :=
  ∃ tick, m.tick? slug pyRepr = some tick ∧ m.judge tick = .ok .recorded

/-- The price in thousandths of a dollar. -/
def priceMills (m : FeedMessage) : Int := ((mills (priceOf m.payload)).toOption.join).getD 0

/-- `price_cents` of the tick. -/
def priceCents (m : FeedMessage) : Int :=
  (((m.tick? slug pyRepr).bind Batch.MarketTick.priceCents).getD 0 : Nat)

/-- A listing event gives a tick with a price in cents and a verdict. A removal names its listing,
and a price it brings is one of a float. -/
def WellFormed (m : FeedMessage) : Prop :=
  match m.event with
  | .removed => 0 < m.receivedAtMs ∧ (m.id pyRepr).isSome = true ∧ ReadablePrice (priceOf m.payload) ∧
      ∀ priceCents, millsToCents (priceOf m.payload) = .ok (some priceCents) →
        Succeeds (Binary64.ofDiv priceCents 100 hundred_pos)
  | _ => ∃ tick, m.tick? slug pyRepr = some tick ∧ tick.priceCents.isSome = true ∧
      Succeeds (m.judge tick)

end FeedMessage

/-- A new filter that has seen the events before it records the event. -/
def Recorded (maxTracked : Nat) (before : List FeedMessage) (m : FeedMessage) : Prop :=
  (filterEvent slug pyRepr (filterRun slug pyRepr maxTracked before) m).tick?.isSome = true

/-- It is recorded and reports the listing. -/
def RecordedListing (maxTracked : Nat) (listingId : String) (before : List FeedMessage)
    (m : FeedMessage) : Prop :=
  m.id pyRepr = some listingId ∧ m.event ≠ .removed ∧ Recorded slug pyRepr maxTracked before m

/-- The event ends the following of its listing. -/
def Unfollows (m : FeedMessage) : Prop :=
  m.event = .removed ∨ (m.event = .new ∧ ¬ m.Accepted slug pyRepr)

/-- A listing is followed from a recorded event until an event that unfollows it. -/
def Followed (maxTracked : Nat) (before : List FeedMessage) (listingId : String) : Prop :=
  Since (RecordedListing slug pyRepr maxTracked listingId)
    (fun x => x.id pyRepr = some listingId → ¬ Unfollows slug pyRepr x) before

/-- The last event about the listing. -/
def lastSeen (before : List FeedMessage) (listingId : String) : Option FeedMessage :=
  (before.filter fun m => m.id pyRepr == some listingId).getLast?

/-- No more listings are followed than the filter may track. -/
def WithinLimit (maxTracked : Nat) (before : List FeedMessage) : Prop :=
  ∀ ids : List String, ids.Nodup →
    (∀ listingId ∈ ids, Followed slug pyRepr maxTracked before listingId) → ids.length ≤ maxTracked

/-- What the rule says of an event about a listing, with the prices it compares. -/
structure RecordsByRule (price : FeedMessage → Int) (maxTracked : Nat) (before : List FeedMessage)
    (m : FeedMessage) (listingId : String) : Prop where
  judged : m.event = .new ∨
      (m.event = .update ∧ ¬ Followed slug pyRepr maxTracked before listingId) →
    (Recorded slug pyRepr maxTracked before m ↔ m.Accepted slug pyRepr)
  priceCut : m.event = .update → Followed slug pyRepr maxTracked before listingId →
    (Recorded slug pyRepr maxTracked before m ↔
      (∃ last, lastSeen pyRepr before listingId = some last ∧ price m < price last) ∧
        m.Accepted slug pyRepr)
  removal : m.event = .removed →
    (Recorded slug pyRepr maxTracked before m ↔ Followed slug pyRepr maxTracked before listingId)

/-- The listing was recorded, and has not been removed since. -/
def RecordedSinceRemoval (maxTracked : Nat) (before : List FeedMessage) (listingId : String) :
    Prop :=
  Since (RecordedListing slug pyRepr maxTracked listingId)
    (fun x => x.id pyRepr = some listingId → x.event ≠ .removed) before

end

/-! ## What one event does -/

section
variable {slug : String → String} {pyRepr : Payload → String} {maxTracked : Nat}
  {before : List FeedMessage} {filter : RecordingFilter} {m : FeedMessage} {tick : Tick}
  {listingId : String} {priceCents : Nat} {outcome : FilterOutcome}

theorem FeedMessage.listingTick_of_tick (h : m.tick? slug pyRepr = some tick) :
    listingTick slug pyRepr m.payload m.receivedAtMs = .ok (some tick) := by
  unfold tick? at h
  cases hresult : listingTick slug pyRepr m.payload m.receivedAtMs with
  | error e =>
      rw [hresult] at h
      cases h
  | ok tick? =>
      rw [hresult] at h
      exact congrArg Except.ok h

/-- The tick of a listing event with its ID and its price in cents, and the verdict on it. -/
structure Reads (slug : String → String) (pyRepr : Payload → String) (m : FeedMessage) (tick : Tick)
    (listingId : String) (priceCents : Nat) (outcome : FilterOutcome) : Prop where
  tick_eq : m.tick? slug pyRepr = some tick
  listingId_eq : tick.listingId = some listingId
  id_eq : m.id pyRepr = some listingId
  cents_eq : tick.priceCents = some priceCents
  verdict : m.judge tick = .ok outcome

theorem FeedMessage.WellFormed.exists_reads (hwf : m.WellFormed slug pyRepr)
    (hevent : m.event ≠ .removed) :
    ∃ tick listingId priceCents outcome, Reads slug pyRepr m tick listingId priceCents outcome := by
  have hlisting : ∃ tick, m.tick? slug pyRepr = some tick ∧ tick.priceCents.isSome = true ∧
      Succeeds (m.judge tick) := by
    unfold WellFormed at hwf
    cases hm : m.event with
    | removed => exact absurd hm hevent
    | new => rwa [hm] at hwf
    | update => rwa [hm] at hwf
  obtain ⟨tick, htick, hcents, outcome, hverdict⟩ := hlisting
  obtain ⟨priceCents, hcents⟩ := Option.isSome_iff_exists.mp hcents
  obtain ⟨listingId, _, hid, hof⟩ := listingTick_some (listingTick_of_tick htick)
  exact ⟨tick, listingId, priceCents, outcome, htick, hof.listingId_eq, hid, hcents, hverdict⟩

namespace Reads

theorem priceCents_eq (h : Reads slug pyRepr m tick listingId priceCents outcome) :
    m.priceCents slug pyRepr = (priceCents : Int) := by
  rw [FeedMessage.priceCents, h.tick_eq, Option.bind_some, h.cents_eq]
  rfl

theorem cents_ok (h : Reads slug pyRepr m tick listingId priceCents outcome) :
    cents tick = .ok priceCents := by
  rw [cents, h.cents_eq]
  rfl

theorem accepted_iff (h : Reads slug pyRepr m tick listingId priceCents outcome) :
    m.Accepted slug pyRepr ↔ outcome = .recorded := by
  constructor
  · rintro ⟨tick', htick', hjudge⟩
    rw [h.tick_eq, Option.some.injEq] at htick'
    subst htick'
    exact Except.ok.inj (h.verdict.symm.trans hjudge)
  · rintro rfl
    exact ⟨tick, h.tick_eq, h.verdict⟩

end Reads

theorem updateFollowed_eq {judge : Judge} {followed : TrackedListing}
    (hcents : cents tick = .ok priceCents) :
    updateFollowed judge tick listingId followed filter
      = if priceCents ≥ followed.priceCents then
          (.ok (.notAPriceCut, none), filter.track listingId ⟨tick.marketHashName, priceCents⟩)
        else
          ((judge tick).map fun outcome => (outcome, if outcome = .recorded then some tick else none),
            filter.track listingId ⟨tick.marketHashName, priceCents⟩) := by
  unfold updateFollowed
  generalize cents tick = result at hcents ⊢
  subst hcents
  rfl

theorem judgeListing_eq {judge : Judge} (hcents : cents tick = .ok priceCents)
    (hverdict : judge tick = .ok outcome) :
    judgeListing judge tick listingId filter
      = if outcome ≠ .recorded then (.ok (outcome, none), filter.untrack listingId)
        else
          (.ok (outcome, some tick), filter.track listingId ⟨tick.marketHashName, priceCents⟩) := by
  unfold judgeListing
  generalize cents tick = result at hcents ⊢
  subst hcents
  rw [hverdict]

/-- An update of a followed listing. -/
theorem filterEvent_followed {followed : TrackedListing}
    (h : Reads slug pyRepr m tick listingId priceCents outcome) (hevent : m.event = .update)
    (hget : filter.tracked.get? listingId = some followed) :
    ((filterEvent slug pyRepr filter m).tick?.isSome = true
        ↔ priceCents < followed.priceCents ∧ outcome = .recorded) ∧
      (filterEvent slug pyRepr filter m).2
        = filter.track listingId ⟨tick.marketHashName, priceCents⟩ := by
  have hlisting : filterEvent slug pyRepr filter m
      = updateFollowed m.judge tick listingId followed filter := by
    rw [filterEvent, if_neg (by rw [hevent]; exact FeedEventName.noConfusion), listing,
      FeedMessage.listingTick_of_tick h.tick_eq]
    dsimp only
    rw [h.listingId_eq]
    dsimp only
    rw [hget]
    exact if_pos hevent
  rw [hlisting, updateFollowed_eq h.cents_ok]
  split
  · rename_i hge
    exact ⟨iff_of_false Bool.false_ne_true fun hcut => absurd hge (Nat.not_le.mpr hcut.1), rfl⟩
  · rename_i hge
    refine ⟨?_, rfl⟩
    have hlt : priceCents < followed.priceCents := Nat.lt_of_not_le hge
    rw [Result.tick?, h.verdict]
    by_cases houtcome : outcome = .recorded <;>
      simp [Except.map, Except.toOption, houtcome, hlt]

/-- A new listing, or an update of a listing that is not followed. -/
theorem filterEvent_judged (h : Reads slug pyRepr m tick listingId priceCents outcome)
    (hevent : m.event = .new ∨ (m.event = .update ∧ filter.tracked.get? listingId = none)) :
    ((filterEvent slug pyRepr filter m).tick?.isSome = true ↔ outcome = .recorded) ∧
      (filterEvent slug pyRepr filter m).2
        = if outcome = .recorded then filter.track listingId ⟨tick.marketHashName, priceCents⟩
          else filter.untrack listingId := by
  have hlisting : filterEvent slug pyRepr filter m = judgeListing m.judge tick listingId filter := by
    rw [filterEvent, if_neg (by rcases hevent with hnew | hupdate <;> simp_all), listing,
      FeedMessage.listingTick_of_tick h.tick_eq]
    dsimp only
    rw [h.listingId_eq]
    dsimp only
    rcases hevent with hnew | ⟨-, hget⟩
    · cases filter.tracked.get? listingId with
      | none => rfl
      | some followed => exact if_neg (by rw [hnew]; exact FeedEventName.noConfusion)
    · rw [hget]
  rw [hlisting, judgeListing_eq h.cents_ok h.verdict]
  by_cases houtcome : outcome = .recorded
  · rw [if_neg (not_not_intro houtcome), if_pos houtcome]
    exact ⟨iff_of_true rfl houtcome, rfl⟩
  · rw [if_pos houtcome, if_neg houtcome]
    exact ⟨iff_of_false Bool.false_ne_true houtcome, rfl⟩

theorem filterEvent_removed (hwf : m.WellFormed slug pyRepr) (hfilter : Followable filter)
    (hevent : m.event = .removed) (hid : m.id pyRepr = some listingId) :
    ((filterEvent slug pyRepr filter m).tick?.isSome = true
        ↔ (filter.tracked.get? listingId).isSome = true) ∧
      (filterEvent slug pyRepr filter m).2 = filter.untrack listingId := by
  unfold FeedMessage.WellFormed at hwf
  rw [hevent] at hwf
  obtain ⟨hreceived, -, hprice, hfinite⟩ := hwf
  rw [filterEvent, if_pos hevent]
  rw [FeedMessage.id] at hid
  cases hpayload : m.payload with
  | obj fields =>
      rw [hpayload] at hid hprice hfinite
      rw [itemId] at hid
      split at hid
      · cases hid
      · rename_i hnotNull
        cases htext : pyStr pyRepr (field fields "item_id") with
        | error e =>
            rw [htext] at hid
            cases hid
        | ok text =>
            rw [htext] at hid
            obtain rfl : text = listingId := Option.some.inj hid
            rw [removal, if_neg hnotNull, htext]
            dsimp only
            cases hget : filter.tracked.get? text with
            | none => exact ⟨iff_of_false Bool.false_ne_true Bool.false_ne_true, rfl⟩
            | some followed =>
                obtain ⟨hlength, hpositive, hbound⟩ := hfilter text followed hget
                obtain ⟨result, hremove⟩ :=
                  (@succeeds_removeFollowed_iff fields text followed m.receivedAtMs hbound).mpr
                    ⟨hprice, hfinite⟩
                obtain ⟨tick, rfl⟩ :=
                  recorded_of_removeFollowed hreceived hlength hpositive hremove
                dsimp only
                rw [Result.tick?, hremove]
                exact ⟨iff_of_true rfl rfl, rfl⟩
  | _ =>
      rw [hpayload] at hid
      cases hid

/-! ## What is followed after one event -/

theorem followed_concat : Followed slug pyRepr maxTracked (before ++ [m]) listingId ↔
    RecordedListing slug pyRepr maxTracked listingId before m ∨
      (Followed slug pyRepr maxTracked before listingId ∧
        (m.id pyRepr = some listingId → ¬ Unfollows slug pyRepr m)) :=
  since_concat

theorem followed_concat_of_ne (h : m.id pyRepr ≠ some listingId) :
    Followed slug pyRepr maxTracked (before ++ [m]) listingId
      ↔ Followed slug pyRepr maxTracked before listingId := by
  rw [followed_concat]
  constructor
  · rintro (hrecorded | hbefore)
    · exact absurd hrecorded.1 h
    · exact hbefore.1
  · exact fun hbefore => .inr ⟨hbefore, fun hid => absurd hid h⟩

theorem lastSeen_concat (h : m.id pyRepr = some listingId) :
    lastSeen pyRepr (before ++ [m]) listingId = some m := by
  simp [lastSeen, List.filter_append, h]

theorem lastSeen_concat_of_ne (h : m.id pyRepr ≠ some listingId) :
    lastSeen pyRepr (before ++ [m]) listingId = lastSeen pyRepr before listingId := by
  simp [lastSeen, List.filter_append, h]

/-- A listing that is followed has been seen. -/
theorem exists_of_followed (h : Followed slug pyRepr maxTracked before listingId) :
    ∃ m ∈ before, m.id pyRepr = some listingId := by
  obtain ⟨a, m, b, rfl, hm, -⟩ := h
  exact ⟨m, by simp, hm.1⟩

/-- The filter may track as many listings as the events are about. -/
theorem withinLimit_of_ids {ids : List String}
    (hids : ∀ m ∈ before, ∀ listingId, m.id pyRepr = some listingId → listingId ∈ ids)
    (h : ids.length ≤ maxTracked) : WithinLimit slug pyRepr maxTracked before := by
  intro followed hnodup hfollowed
  refine le_trans (List.subperm_of_subset hnodup fun listingId hmem => ?_).length_le h
  obtain ⟨m, hm, hid⟩ := exists_of_followed (hfollowed listingId hmem)
  exact hids m hm listingId hid

/-! ## The filter tracks what is followed -/

/-- The filter tracks the followed listings, each with its price in the last event about it. -/
structure Tracks (slug : String → String) (pyRepr : Payload → String) (maxTracked : Nat)
    (before : List FeedMessage) (filter : RecordingFilter) : Prop where
  limit : filter.maxTracked = maxTracked
  followed : ∀ listingId, (filter.tracked.get? listingId).isSome = true
    ↔ Followed slug pyRepr maxTracked before listingId
  latest : ∀ listingId followed, filter.tracked.get? listingId = some followed →
    ∃ last, lastSeen pyRepr before listingId = some last ∧
      last.priceCents slug pyRepr = (followed.priceCents : Int)

theorem Tracks.new : Tracks slug pyRepr maxTracked [] (.new maxTracked) where
  limit := rfl
  followed listingId := by
    show (Option.isSome none : Bool) = true ↔ _
    simp [Followed, not_since_nil]
  latest listingId followed h := by cases h

theorem ne_of_id (hid : m.id pyRepr = some listingId) (k : String) (hk : listingId ≠ k) :
    m.id pyRepr ≠ some k := by
  intro hidk
  rw [hid] at hidk
  exact hk (Option.some.inj hidk)

/-- An event after which its listing is followed, at the price of the event. -/
theorem Tracks.track (h : Tracks slug pyRepr maxTracked before filter)
    (hreads : Reads slug pyRepr m tick listingId priceCents outcome)
    (hfollowed : Followed slug pyRepr maxTracked (before ++ [m]) listingId)
    (hlimit : WithinLimit slug pyRepr maxTracked (before ++ [m])) :
    Tracks slug pyRepr maxTracked (before ++ [m])
      (filter.track listingId ⟨tick.marketHashName, priceCents⟩) := by
  have hother := ne_of_id hreads.id_eq
  let entry : TrackedListing := ⟨tick.marketHashName, priceCents⟩
  let tracked := (filter.tracked.set listingId entry).moveToEnd listingId
  have hget : ∀ k, tracked.get? k
      = if listingId = k then some entry else filter.tracked.get? k := by
    intro k
    rw [OrderedDict.get?_moveToEnd, OrderedDict.get?_set]
  have hiff : ∀ k, (tracked.get? k).isSome = true
      ↔ Followed slug pyRepr maxTracked (before ++ [m]) k := by
    intro k
    rw [hget]
    by_cases hk : listingId = k
    · subst hk
      simp [hfollowed]
    · rw [if_neg hk, h.followed, followed_concat_of_ne (hother k hk)]
  -- nothing is popped, as long as no more listings are followed than the filter may track
  have hlen : tracked.len ≤ filter.maxTracked := by
    rw [h.limit, OrderedDict.len_eq_length_keys]
    exact hlimit tracked.keys tracked.nodupKeys fun k hk =>
      (hiff k).mp (OrderedDict.contains_iff_mem.mpr hk)
  have hsame : (filter.track listingId entry).tracked = tracked := OrderedDict.trim_of_le hlen
  refine ⟨h.limit, fun k => ?_, fun k followed hk => ?_⟩
  · rw [hsame]
    exact hiff k
  · rw [hsame, hget] at hk
    split at hk
    · rename_i heq
      subst heq
      cases hk
      exact ⟨m, lastSeen_concat hreads.id_eq, hreads.priceCents_eq⟩
    · rename_i hne
      rw [lastSeen_concat_of_ne (hother k hne)]
      exact h.latest k followed hk

/-- An event after which its listing is not followed. -/
theorem Tracks.untrack (h : Tracks slug pyRepr maxTracked before filter)
    (hid : m.id pyRepr = some listingId)
    (hnot : ¬ Followed slug pyRepr maxTracked (before ++ [m]) listingId) :
    Tracks slug pyRepr maxTracked (before ++ [m]) (filter.untrack listingId) := by
  have hother := ne_of_id hid
  have hget : ∀ k, (filter.untrack listingId).tracked.get? k
      = if listingId = k then none else filter.tracked.get? k := fun k =>
    OrderedDict.get?_erase filter.tracked listingId k
  refine ⟨h.limit, fun k => ?_, fun k followed hk => ?_⟩
  · rw [hget]
    by_cases hk : listingId = k
    · subst hk
      simp [hnot]
    · rw [if_neg hk, h.followed, followed_concat_of_ne (hother k hk)]
  · rw [hget] at hk
    split at hk
    · cases hk
    · rename_i hne
      rw [lastSeen_concat_of_ne (hother k hne)]
      exact h.latest k followed hk

/-! ## One event by the rule -/

theorem not_followed_get (h : Tracks slug pyRepr maxTracked before filter) :
    ¬ Followed slug pyRepr maxTracked before listingId ↔ filter.tracked.get? listingId = none := by
  rw [← h.followed, Bool.not_eq_true, Option.isSome_eq_false_iff, Option.isNone_iff_eq_none]

variable (h : Tracks slug pyRepr maxTracked before (filterRun slug pyRepr maxTracked before))

include h

/-- A new listing, or an update of a listing that is not followed. -/
theorem recorded_judged (hreads : Reads slug pyRepr m tick listingId priceCents outcome)
    (hevent : m.event = .new ∨
      (m.event = .update ∧ ¬ Followed slug pyRepr maxTracked before listingId)) :
    Recorded slug pyRepr maxTracked before m ↔ m.Accepted slug pyRepr := by
  rw [not_followed_get h] at hevent
  rw [Recorded, (filterEvent_judged hreads hevent).1, hreads.accepted_iff]

/-- An update of a followed listing. -/
theorem recorded_update (hevent : m.event = .update)
    (hreads : Reads slug pyRepr m tick listingId priceCents outcome)
    (hfollowed : Followed slug pyRepr maxTracked before listingId) :
    Recorded slug pyRepr maxTracked before m ↔
      (∃ last, lastSeen pyRepr before listingId = some last ∧
        m.priceCents slug pyRepr < last.priceCents slug pyRepr) ∧ m.Accepted slug pyRepr := by
  obtain ⟨followed, hget⟩ := Option.isSome_iff_exists.mp ((h.followed listingId).mpr hfollowed)
  obtain ⟨last, hlast, hlastPrice⟩ := h.latest listingId followed hget
  have hcut : (∃ last, lastSeen pyRepr before listingId = some last ∧
      m.priceCents slug pyRepr < last.priceCents slug pyRepr) ↔
        priceCents < followed.priceCents := by
    rw [hreads.priceCents_eq]
    constructor
    · rintro ⟨last', hlast', hlt⟩
      rw [hlast, Option.some.injEq] at hlast'
      subst hlast'
      omega
    · intro hlt
      exact ⟨last, hlast, by omega⟩
  rw [Recorded, (filterEvent_followed hreads hevent hget).1, hreads.accepted_iff, hcut]

theorem recorded_removed (hwf : m.WellFormed slug pyRepr) (hevent : m.event = .removed)
    (hid : m.id pyRepr = some listingId) :
    Recorded slug pyRepr maxTracked before m
      ↔ Followed slug pyRepr maxTracked before listingId := by
  rw [Recorded, (filterEvent_removed hwf (followable_filterRun maxTracked before) hevent hid).1,
    h.followed]

/-- The filter goes on tracking what is followed. -/
theorem Tracks.step (hwf : m.WellFormed slug pyRepr)
    (hlimit : WithinLimit slug pyRepr maxTracked (before ++ [m])) :
    Tracks slug pyRepr maxTracked (before ++ [m])
      (filterRun slug pyRepr maxTracked (before ++ [m])) := by
  have hrun : filterRun slug pyRepr maxTracked (before ++ [m])
      = (filterEvent slug pyRepr (filterRun slug pyRepr maxTracked before) m).2 := by
    rw [filterRun, List.foldl_append]
    rfl
  rw [hrun]
  by_cases hevent : m.event = .removed
  · obtain ⟨listingId, hid⟩ : ∃ listingId, m.id pyRepr = some listingId := by
      unfold FeedMessage.WellFormed at hwf
      rw [hevent] at hwf
      exact Option.isSome_iff_exists.mp hwf.2.1
    have hremoved :=
      filterEvent_removed hwf (@followable_filterRun slug pyRepr maxTracked before) hevent hid
    rw [hremoved.2]
    refine h.untrack hid ?_
    rw [followed_concat]
    rintro (hrecorded | ⟨-, hkeep⟩)
    · exact hrecorded.2.1 hevent
    · exact hkeep hid (.inl hevent)
  · obtain ⟨tick, listingId, priceCents, outcome, hreads⟩ := hwf.exists_reads hevent
    have hid := hreads.id_eq
    have hupdate : m.event ≠ .new → m.event = .update := by
      cases hm : m.event with
      | new => exact fun hne => absurd rfl hne
      | update => exact fun _ => rfl
      | removed => exact absurd hm hevent
    by_cases hjudged : m.event = .new ∨
        (m.event = .update ∧ ¬ Followed slug pyRepr maxTracked before listingId)
    · have hrecorded := recorded_judged h hreads hjudged
      have hget := hjudged
      rw [not_followed_get h] at hget
      rw [(filterEvent_judged hreads hget).2]
      split
      · rename_i hverdict
        exact h.track hreads (followed_concat.mpr
          (.inl ⟨hid, hevent, hrecorded.mpr (hreads.accepted_iff.mpr hverdict)⟩)) hlimit
      · rename_i hverdict
        refine h.untrack hid ?_
        rw [followed_concat]
        rintro (hrec | ⟨hfollowed, hkeep⟩)
        · exact hverdict (hreads.accepted_iff.mp (hrecorded.mp hrec.2.2))
        · rcases hjudged with hnew | hnot
          · exact hkeep hid (.inr ⟨hnew, fun hacc => hverdict (hreads.accepted_iff.mp hacc)⟩)
          · exact hnot.2 hfollowed
    · rw [not_or, not_and, not_not] at hjudged
      have hm : m.event = .update := hupdate hjudged.1
      have hfollowed := hjudged.2 hm
      obtain ⟨followed, hget⟩ := Option.isSome_iff_exists.mp ((h.followed listingId).mpr hfollowed)
      rw [(filterEvent_followed hreads hm hget).2]
      refine h.track hreads (followed_concat.mpr (.inr ⟨hfollowed, fun _ => ?_⟩)) hlimit
      rintro (hremoved | ⟨hnew, -⟩)
      · exact hevent hremoved
      · exact hjudged.1 hnew

end

/-! ## Every run -/

section
variable {slug : String → String} {pyRepr : Payload → String} {maxTracked : Nat}

/-- After any events that keep the limit, the filter tracks what is followed. -/
theorem tracks_of_run {ms : List FeedMessage} (hwf : ∀ m ∈ ms, m.WellFormed slug pyRepr)
    (hlimit : ∀ p, p <+: ms → WithinLimit slug pyRepr maxTracked p) :
    Tracks slug pyRepr maxTracked ms (filterRun slug pyRepr maxTracked ms) := by
  induction ms using List.reverseRecOn with
  | nil => exact .new
  | append_singleton before m ih =>
      have hbefore := ih (fun x hx => hwf x (List.mem_append_left _ hx))
        fun p hp => hlimit p (hp.trans (List.prefix_append _ _))
      exact hbefore.step (hwf m (by simp)) (hlimit _ (List.prefix_refl _))

/-- Every event of a feed that never follows more listings than the filter may track is recorded
by the rule, at the prices in cents of its ticks. A recorded removal follows a recorded listing,
with no removal of that listing in between. -/
theorem recordsByRule_of_run (slug : String → String) (pyRepr : Payload → String)
    (maxTracked : Nat) (ms : List FeedMessage) (hwf : ∀ m ∈ ms, m.WellFormed slug pyRepr)
    (hlimit : ∀ p, p <+: ms → WithinLimit slug pyRepr maxTracked p)
    (before : List FeedMessage) (m : FeedMessage) (hbeforem : before ++ [m] <+: ms)
    (listingId : String) (hid : m.id pyRepr = some listingId) :
    RecordsByRule slug pyRepr (FeedMessage.priceCents slug pyRepr) maxTracked before m listingId ∧
      (m.event = .removed → Recorded slug pyRepr maxTracked before m →
        RecordedSinceRemoval slug pyRepr maxTracked before listingId) := by
  have hbefore : before <+: ms := (List.prefix_append _ _).trans hbeforem
  have hm : m.WellFormed slug pyRepr := hwf m (hbeforem.subset (by simp))
  have htracks : Tracks slug pyRepr maxTracked before (filterRun slug pyRepr maxTracked before) :=
    tracks_of_run (fun x hx => hwf x (hbefore.subset hx)) fun p hp => hlimit p (hp.trans hbefore)
  have hreads : m.event ≠ .removed →
      ∃ tick priceCents outcome, Reads slug pyRepr m tick listingId priceCents outcome := by
    intro hevent
    obtain ⟨tick, listingId', priceCents, outcome, hreads⟩ := hm.exists_reads hevent
    obtain rfl : listingId' = listingId := Option.some.inj (hreads.id_eq.symm.trans hid)
    exact ⟨tick, priceCents, outcome, hreads⟩
  have hremoval : m.event = .removed → (Recorded slug pyRepr maxTracked before m
      ↔ Followed slug pyRepr maxTracked before listingId) := fun hevent =>
    recorded_removed htracks hm hevent hid
  refine ⟨⟨fun hjudged => ?_, fun hevent hfollowed => ?_, hremoval⟩, fun hevent hrecorded => ?_⟩
  · obtain ⟨tick, priceCents, outcome, hreads⟩ := hreads fun hevent => by
      rcases hjudged with hnew | hupdate
      · rw [hnew] at hevent
        cases hevent
      · rw [hupdate.1] at hevent
        cases hevent
    exact recorded_judged htracks hreads hjudged
  · obtain ⟨tick, priceCents, outcome, hreads⟩ := hreads fun hremoved => by
      rw [hevent] at hremoved
      cases hremoved
    exact recorded_update htracks hevent hreads hfollowed
  · exact ((hremoval hevent).mp hrecorded).mono (fun _ _ hstart => hstart)
      fun x hkeep hxid hxevent => hkeep hxid (.inl hxevent)

end

/-- A payload of the listing "1". -/
def payloadAt (price : Int) : Payload :=
  .obj [("item_id", .str "1"), ("name", .str "AK-47 | Redline (Field-Tested)"), ("price", .int price)]

def acceptedEvent (event : FeedEventName) (price : Int) : FeedMessage :=
  ⟨event, payloadAt price, 1790000000000, fun _ => .ok .recorded⟩

/-- A listing, a cut of less than a cent, a cut to 9 USD, and its removal. -/
def shortFeed : List FeedMessage :=
  [acceptedEvent .new 10009, acceptedEvent .update 10001, acceptedEvent .update 9000,
    acceptedEvent .removed 9000]

theorem acceptedEvent_wellFormed {event : FeedEventName} {price : Int} (hevent : event ≠ .removed)
    (h : ((acceptedEvent event price).tick? plainSlug noRepr).any (fun tick =>
      tick.priceCents.isSome) = true) :
    (acceptedEvent event price).WellFormed plainSlug noRepr := by
  obtain ⟨tick, htick, hcents⟩ := (Option.any_eq_true _ _).mp h
  cases event with
  | removed => exact absurd rfl hevent
  | new => exact ⟨tick, htick, hcents, succeeds_ok _⟩
  | update => exact ⟨tick, htick, hcents, succeeds_ok _⟩

theorem shortFeed_wellFormed : ∀ m ∈ shortFeed, m.WellFormed plainSlug noRepr := by
  intro m hm
  simp only [shortFeed, List.mem_cons, List.not_mem_nil, or_false] at hm
  rcases hm with rfl | rfl | rfl | rfl
  · exact acceptedEvent_wellFormed (by decide) (by decide +kernel)
  · exact acceptedEvent_wellFormed (by decide) (by decide +kernel)
  · exact acceptedEvent_wellFormed (by decide) (by decide +kernel)
  · refine ⟨by decide, rfl, nofun, fun priceCents hcents => succeeds_ofDiv ?_⟩
    obtain rfl : 900 = priceCents := Option.some.inj (Except.ok.inj hcents)
    calc 900 ≤ 2 ^ 10 := by decide
      _ ≤ 2 ^ (infExponent - oneExponent) := Nat.pow_le_pow_right (by decide) (by decide)

theorem shortFeed_withinLimit (p : List FeedMessage) (hp : p <+: shortFeed) :
    WithinLimit plainSlug noRepr 1 p := by
  have hids : ∀ m ∈ p, ∀ listingId, m.id noRepr = some listingId → listingId ∈ ["1"] := by
    intro m hm listingId hid
    have hmem : m ∈ shortFeed := hp.subset hm
    simp only [shortFeed, List.mem_cons, List.not_mem_nil, or_false] at hmem
    rcases hmem with rfl | rfl | rfl | rfl
    all_goals
      cases hid
      exact List.mem_cons_self
  exact withinLimit_of_ids hids (Nat.le_refl 1)

theorem recordsByRule_of_run_shortFeed :
    RecordsByRule plainSlug noRepr (FeedMessage.priceCents plainSlug noRepr) 1 (shortFeed.take 3)
        (acceptedEvent .removed 9000) "1" ∧
      (FeedEventName.removed = .removed →
        Recorded plainSlug noRepr 1 (shortFeed.take 3) (acceptedEvent .removed 9000) →
        RecordedSinceRemoval plainSlug noRepr 1 (shortFeed.take 3) "1") :=
  recordsByRule_of_run plainSlug noRepr 1 shortFeed shortFeed_wellFormed shortFeed_withinLimit
    (shortFeed.take 3) (acceptedEvent .removed 9000) (List.prefix_refl _) "1" rfl

/-- A cut within the same cent is not recorded: the rule fails at prices in thousandths. -/
theorem not_recordsByRule_mills : ¬ ∀ (maxTracked : Nat) (ms : List FeedMessage),
    (∀ m ∈ ms, m.WellFormed plainSlug noRepr) →
    (∀ p, p <+: ms → WithinLimit plainSlug noRepr maxTracked p) →
    ∀ before m, before ++ [m] <+: ms → ∀ listingId, m.id noRepr = some listingId →
      RecordsByRule plainSlug noRepr FeedMessage.priceMills maxTracked before m listingId := by
  intro hclaim
  have hrule := hclaim 1 shortFeed shortFeed_wellFormed shortFeed_withinLimit
    [acceptedEvent .new 10009] (acceptedEvent .update 10001) ⟨_, rfl⟩ "1" rfl
  have hfollowed : Followed plainSlug noRepr 1 [acceptedEvent .new 10009] "1" := by
    refine ⟨[], acceptedEvent .new 10009, [], rfl, ⟨rfl, by decide, ?_⟩, fun x hx => ?_⟩
    · show Option.isSome _ = true
      decide +kernel
    · cases hx
  have haccepted : (acceptedEvent .update 10001).Accepted plainSlug noRepr := by
    have hsome : ((acceptedEvent .update 10001).tick? plainSlug noRepr).isSome = true := by
      decide +kernel
    obtain ⟨tick, htick⟩ := Option.isSome_iff_exists.mp hsome
    exact ⟨tick, htick, rfl⟩
  have hrecorded := (hrule.priceCut rfl hfollowed).mpr
    ⟨⟨acceptedEvent .new 10009, rfl, by decide⟩, haccepted⟩
  have hnot : ¬ Recorded plainSlug noRepr 1 [acceptedEvent .new 10009]
      (acceptedEvent .update 10001) := by
    show ¬ Option.isSome _ = true
    decide +kernel
  exact hnot hrecorded

end BrandSniper.Waxpeer
