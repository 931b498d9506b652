import BrandSniper.Dmarket.Resume

/-!
# What a poller accounts for

`Complete` is what a poller owes at any moment to whoever settles what it
reads: every listing from some creation time on and below its floor is known,
or lies in one of its gaps, and it remembers no listing that is not known.
Each call keeps this, with what it returns known from then on, and so does
starting again from a resume point that is complete in the same sense.
-/

namespace BrandSniper.Dmarket

open Kit

variable {ε : Type} {m : Market ε} {parseOffer : ε → Option DMarketOffer}
  {known : String → Prop} {hidden : Nat} {sinceMs : Option Int} {p p' : ListingPoller}

/-- The listing is known, or lies in a gap. -/
def Accounted (m : Market ε) (known : String → Prop) (gaps : List CatchUpGap) (entry : ε)
    (offer : DMarketOffer) : Prop :=
  known offer.offerId ∨ ∃ gap ∈ gaps, ∃ rest, m.after gap.cursor = some rest ∧ entry ∈ rest ∧
    gap.untilMs ≤ offer.createdAtMs

/-- Every listing of these creation times is accounted for. -/
def AccountedBetween (m : Market ε) (parseOffer : ε → Option DMarketOffer) (known : String → Prop)
    (gaps : List CatchUpGap) (sinceMs untilMs : Int) : Prop :=
  ∀ entry ∈ m.history, ∀ offer, parseOffer entry = some offer → sinceMs ≤ offer.createdAtMs →
    offer.createdAtMs < untilMs → Accounted m known gaps entry offer

structure Complete (m : Market ε) (parseOffer : ε → Option DMarketOffer) (known : String → Prop)
    (hidden : Nat) (sinceMs : Option Int) (p : ListingPoller) : Prop where
  seen : ∀ x, p.seen.contains x = true → known x
  skips : ∀ gap ∈ p.gaps, ∀ x ∈ gap.skipIds, known x
  recorded : ∀ x ∈ p.recorded.keys, known x
  /-- The newest time is that of a listing there is, and the floor stays under it. -/
  newest : ∀ newest, p.newestMs = some newest →
    p.nextFloorMs = some (newest - liveOverlapMs) ∧
      ∃ e ∈ m.history.drop hidden, ∃ offer, parseOffer e = some offer ∧
        offer.createdAtMs = newest
  since : p.nextFloorMs = none → sinceMs = none
  covers : ∀ since floor, sinceMs = some since → p.nextFloorMs = some floor →
    AccountedBetween m parseOffer known p.gaps since floor

theorem Accounted.mono {known' : String → Prop} {gaps gaps' : List CatchUpGap} {entry : ε}
    {offer : DMarketOffer} (h : Accounted m known gaps entry offer)
    (hknown : ∀ x, known x → known' x) (hgaps : ∀ gap ∈ gaps, gap ∈ gaps') :
    Accounted m known' gaps' entry offer := by
  rcases h with h | ⟨gap, hgap, hrest⟩
  · exact .inl (hknown _ h)
  · exact .inr ⟨gap, hgaps gap hgap, hrest⟩

theorem Complete.mono {known' : String → Prop} {hidden' : Nat}
    (h : Complete m parseOffer known hidden sinceMs p) (hknown : ∀ x, known x → known' x)
    (hhidden : hidden' ≤ hidden) : Complete m parseOffer known' hidden' sinceMs p where
  seen := fun x hx => hknown x (h.seen x hx)
  skips := fun gap hgap x hx => hknown x (h.skips gap hgap x hx)
  recorded := fun x hx => hknown x (h.recorded x hx)
  newest := by
    intro newest hnewest
    obtain ⟨hfloor, e, he, hoffer⟩ := h.newest newest hnewest
    exact ⟨hfloor, e, MarketRun.mem_drop_mono hhidden he, hoffer⟩
  since := h.since
  covers := fun since floor hsince hfloor entry hentry offer hoffer habove hbelow =>
    (h.covers since floor hsince hfloor entry hentry offer hoffer habove hbelow).mono hknown
      fun _ hgap => hgap

theorem complete_new (m : Market ε) (parseOffer : ε → Option DMarketOffer) (known : String → Prop)
    (hidden maxSeen : Nat) : Complete m parseOffer known hidden none (.new maxSeen) where
  seen := by
    intro x hx
    cases hx
  skips := by
    intro gap hgap
    cases hgap
  recorded := by
    intro x hx
    cases hx
  newest := by
    intro newest hnewest
    cases hnewest
  since := fun _ => rfl
  covers := by
    intro since floor hsince
    cases hsince

/-! ## The calls -/

/-- The pages of a live poll are those from the listings there are at its first request on. -/
theorem walked_of_livePages (hm : m.Lawful parseOffer) {visits : List (Visit ε)}
    {floorMs newestMs : Option Int} {seen : OrderedDict String Unit}
    {sure : ε → DMarketOffer → Prop} {walk : LiveWalk ε} {behind : Option String}
    (hok : ∀ floor, floorMs = some floor → NothingBelowBlank parseOffer m (m.fetch hidden visits)
      liveMaxPages none floor sure)
    (hpages : livePages parseOffer (m.fetch hidden visits) floorMs seen liveMaxPages none
      ⟨newestMs, [], ∅, none⟩ = some (walk, behind)) :
    Walked parseOffer m floorMs seen sure
      (m.history.drop (Market.hiddenAfter hidden (visits.take 1))) ⟨newestMs, [], ∅, none⟩ walk
      behind := by
  refine livePages_walked hm (List.take_append_drop _ _).symm ?_ ?_ (fun _ h => by cases h)
    (fun h => by cases h) hok hpages
  · intro page receivedAtMs hpage
    obtain ⟨visit, -, hanswer⟩ := Option.bind_eq_some_iff.mp hpage
    obtain ⟨size, -, heq⟩ := Option.map_eq_some_iff.mp hanswer
    exact ⟨size, (congrArg Prod.fst heq).symm⟩
  · intro i next below hafter page receivedAtMs hpage
    obtain ⟨visit, -, hanswer⟩ := Option.bind_eq_some_iff.mp hpage
    obtain ⟨size, -, heq⟩ := Option.map_eq_some_iff.mp hanswer
    have hpage' := congrArg Prod.fst heq
    simp only [hafter] at hpage'
    exact ⟨size, hpage'.symm⟩

theorem Complete.live (hm : m.Lawful parseOffer)
    (h : Complete m parseOffer known hidden sinceMs p) {order : SetOrder}
    {visits : List (Visit ε)}
    (hok : ∀ floor, p.nextFloorMs = some floor → NothingBelowBlank parseOffer m
      (m.fetch hidden visits) liveMaxPages none floor (Accounted m known p.gaps))
    {read : List (ReadEntry ε)}
    (hcall : livePoll parseOffer order (m.fetch hidden visits) p = .ok read p') :
    Complete m parseOffer (fun x => known x ∨ x ∈ offerIds read)
      (Market.hiddenAfter hidden visits) (sinceMs.or p'.nextFloorMs) p' := by
  rw [livePoll_eq] at hcall
  split at hcall
  · cases hcall
  · rename_i walk behind hpages
    cases hcall
    have hwalked := walked_of_livePages hm hok hpages
    have hfresh := livePages_fresh parseOffer (fresh_nil p.seen p.newestMs none) hpages
    have hread : ∀ x ∈ walk.readIds, x ∈ offerIds (walk.read.insertionSort createdOrder) :=
      fun x hx => MarketRun.offerIds_sorted_mem.mpr ((hfresh.mem_iff x).mpr hx)
    have hnewest : ∀ newest, walk.newestMs = some newest →
        ∃ e ∈ m.history.drop (Market.hiddenAfter hidden (visits.take 1)), ∃ offer,
          parseOffer e = some offer ∧ offer.createdAtMs = newest := by
      intro newest hn
      rcases hwalked.newest newest hn with hbefore | hnew
      · obtain ⟨-, e, he, hoffer⟩ := h.newest newest hbefore
        exact ⟨e, MarketRun.mem_drop_mono (MarketRun.hiddenAfter_le _ _) he, hoffer⟩
      · exact hnew
    have hfloor' : (moveOn order p walk behind).nextFloorMs
        = walk.newestMs.elim p.nextFloorMs fun newest => some (newest - liveOverlapMs) := rfl
    have hkept : ∀ gap ∈ p.gaps, gap ∈ (moveOn order p walk behind).gaps := by
      intro gap hgap
      unfold moveOn
      dsimp only
      split
      · exact List.mem_append_left _ hgap
      · exact hgap
    constructor
    · intro x hx
      rcases contains_seen_of_foldl_remember hx with hids | hbefore
      · exact .inr (hread x ((order.mem_iter _ x).mp hids))
      · exact .inl (h.seen x hbefore)
    · intro gap hgap x hx
      have hbehind : gap ∈ p.gaps ∨ ∃ cursor floor, gap = behindGap p.recorded cursor floor := by
        unfold moveOn at hgap
        dsimp only at hgap
        split at hgap
        · rcases List.mem_append.mp hgap with hgap | hgap
          · exact .inl hgap
          · exact .inr ⟨_, _, List.mem_singleton.mp hgap⟩
        · exact .inl hgap
      rcases hbehind with hgap | ⟨cursor, floor, rfl⟩
      · exact .inl (h.skips gap hgap x hx)
      · -- the skip ids of a new gap are recorded listings
        refine .inl (h.recorded x ?_)
        have hkey := List.mem_toFinset.mp hx
        obtain ⟨kv, hkv, rfl⟩ := List.mem_map.mp hkey
        exact List.mem_map_of_mem (List.mem_filter.mp hkv).1
    · exact fun x hx => .inl (h.recorded x hx)
    · intro newest hn
      have hn' : walk.newestMs = some newest := hn
      obtain ⟨e, he, hoffer⟩ := hnewest newest hn'
      refine ⟨?_, e, MarketRun.mem_drop_mono (MarketRun.hiddenAfter_take_le _ _) he, hoffer⟩
      rw [hfloor', hn', Option.elim_some]
    · intro hnone
      rw [hnone, Option.or_none]
      refine h.since ?_
      rw [hfloor'] at hnone
      cases hn : walk.newestMs with
      | none => rwa [hn, Option.elim_none] at hnone
      | some newest =>
          rw [hn] at hnone
          cases hnone
    · intro since floor hsince hfloor entry hentry offer hoffer habove hbelow
      cases hbefore : sinceMs with
      | none =>
          rw [hbefore, Option.none_or, hfloor] at hsince
          obtain rfl := Option.some.inj hsince
          omega
      | some earlier =>
          rw [hbefore, Option.some_or] at hsince
          obtain rfl := Option.some.inj hsince
          cases hold : p.nextFloorMs with
          | none =>
              rw [h.since hold] at hbefore
              cases hbefore
          | some floorBefore =>
              by_cases hunder : offer.createdAtMs < floorBefore
              · exact (h.covers _ _ hbefore hold entry hentry offer hoffer habove hunder).mono
                  (fun _ => .inl) hkept
              · -- between the two floors: the poll has read it, or left it to a gap
                have hthere :
                    entry ∈ m.history.drop (Market.hiddenAfter hidden (visits.take 1)) := by
                  by_contra hnot
                  rw [hfloor', hold] at hfloor
                  cases hn : walk.newestMs with
                  | none =>
                      rw [hn, Option.elim_none] at hfloor
                      obtain rfl := Option.some.inj hfloor
                      exact hunder hbelow
                  | some newest =>
                      rw [hn, Option.elim_some] at hfloor
                      have heq := Option.some.inj hfloor
                      rw [liveOverlapMs] at heq
                      obtain ⟨e, he, offer', hoffer', rfl⟩ := hnewest newest hn
                      have := MarketRun.newer_of_hidden hm hentry hnot he hoffer hoffer'
                      omega
                rcases hwalked.reads floorBefore hold entry hthere offer hoffer (by omega) with
                  (hseen | hids) | ⟨cursor, below, rfl, hafter, hmem⟩ | hsure
                · exact .inl (.inl (h.seen _ hseen))
                · exact .inl (.inr (hread _ hids))
                · refine .inr ⟨behindGap p.recorded cursor floorBefore, ?_, below, hafter, hmem, ?_⟩
                  · simp only [moveOn, hold]
                    exact List.mem_append_right _ (List.mem_singleton_self _)
                  · show floorBefore ≤ offer.createdAtMs
                    omega
                · exact hsure.mono (fun _ => .inl) hkept

/-- A listing of the gap whose page was read is on the page, or still in the gap. -/
theorem Accounted.catchUp (hm : m.Lawful parseOffer) {gap : CatchUpGap} {rest : List CatchUpGap}
    {entry : ε} {offer : DMarketOffer} {below : List ε} (hafter : m.after gap.cursor = some below)
    (hmem : entry ∈ below) (hoffer : parseOffer entry = some offer)
    (huntil : gap.untilMs ≤ offer.createdAtMs)
    (hskips : ∀ x ∈ gap.skipIds, known x) (hseen : ∀ x, p.seen.contains x = true → known x)
    {visits : List (Visit ε)} {page : OffersPage ε} {receivedAtMs : Int}
    (hpage : m.fetch hidden visits 0 (some gap.cursor) = some (page, receivedAtMs))
    {walk : GapWalk ε} (hwalk : page.entries.foldl (readGap parseOffer gap receivedAtMs)
      ⟨p, [], page.cursor.isNone || page.entries.isEmpty⟩ = walk) :
    Accounted m (fun x => known x ∨ x ∈ offerIds walk.read)
      (advanceGap gap rest walk.reachedEnd page.cursor) entry offer := by
  have hread : ReadsGap parseOffer gap page.entries _ _ :=
    readsGap_foldl gap receivedAtMs page.entries
      ⟨p, [], page.cursor.isNone || page.entries.isEmpty⟩
  rw [hwalk] at hread
  obtain ⟨visit, -, hanswer⟩ := Option.bind_eq_some_iff.mp hpage
  obtain ⟨size, -, heq⟩ := Option.map_eq_some_iff.mp hanswer
  have hserved : page = m.pageOf below size := by
    have hfst := congrArg Prod.fst heq
    simp only [hafter] at hfst
    exact hfst.symm
  obtain ⟨before, last, hhistory, -⟩ := m.after_eq_some hafter
  have hsplit : m.history = (before ++ [last]) ++ below := by
    rw [hhistory, List.append_assoc]
    rfl
  rcases m.mem_pageOf_or hmem size with hon | hdeep
  · rcases hread.reads entry (hserved ▸ hon) offer hoffer huntil with hsee | hskip | hids
    · exact .inl (.inl (hseen _ hsee))
    · exact .inl (.inl (hskips _ hskip))
    · exact .inl (.inr hids)
  · cases hcursor : page.cursor with
    | none =>
        rw [hserved] at hcursor
        rw [m.pageOf_cursor_eq_none hcursor] at hdeep
        cases hdeep
    | some next =>
        have hnext := m.after_pageOf hm.cursors hsplit (hserved ▸ hcursor)
        have hopen : walk.reachedEnd = false := by
          by_contra hend
          rcases hread.ends (Bool.not_eq_false _ ▸ hend) with
            hnone | ⟨e, he, offer', hoffer', hlow⟩
          · rw [hcursor, Option.isNone_some, Bool.false_or, List.isEmpty_iff, hserved] at hnone
            have htake : below.take (size + 1) = [] := hnone
            have hempty : below = [] := by simpa using htake
            rw [hempty] at hmem
            cases hmem
          · have := hm.below hsplit (hserved ▸ he) hdeep hoffer' hoffer
            omega
        rw [hopen]
        exact .inr ⟨{ gap with cursor := next }, List.mem_cons_self, _, hnext, hdeep, huntil⟩

theorem Complete.catchUp (hm : m.Lawful parseOffer)
    (h : Complete m parseOffer known hidden sinceMs p) {visits : List (Visit ε)}
    {read : List (ReadEntry ε)}
    (hcall : catchUpPage parseOffer (m.fetch hidden visits) p = .ok read p') :
    Complete m parseOffer (fun x => known x ∨ x ∈ offerIds read)
      (Market.hiddenAfter hidden visits) (sinceMs.or p'.nextFloorMs) p' := by
  obtain ⟨hfloor, hnewest, -, hrecorded⟩ := catchUpPage_kept parseOffer hcall
  have hseen : ∀ x, p'.seen.contains x = true → known x ∨ x ∈ offerIds read := by
    rw [catchUpPage_eq] at hcall
    split at hcall
    · cases hcall
      exact fun x hx => .inl (h.seen x hx)
    · rename_i gap rest hgaps
      split at hcall
      · cases hcall
      · rename_i page receivedAtMs hpage
        cases hcall
        intro x hx
        exact ((readsGap_foldl gap receivedAtMs page.entries _).seen x hx).imp_left (h.seen x)
  have haccounted : (∀ gap ∈ p'.gaps, ∀ x ∈ gap.skipIds, known x) ∧
      ∀ entry offer, parseOffer entry = some offer → Accounted m known p.gaps entry offer →
        Accounted m (fun x => known x ∨ x ∈ offerIds read) p'.gaps entry offer := by
    rw [catchUpPage_eq] at hcall
    split at hcall
    · cases hcall
      exact ⟨h.skips, fun _ _ _ hbefore => hbefore.mono (fun _ => .inl) fun _ hgap => hgap⟩
    · rename_i gap rest hgaps
      split at hcall
      · cases hcall
      · rename_i page receivedAtMs hpage
        cases hcall
        have hskips := h.skips
        rw [hgaps] at hskips
        refine ⟨?_, fun entry offer hoffer hbefore => ?_⟩
        · intro gap' hgap' x hx
          dsimp only [advanceGap] at hgap'
          split at hgap'
          · rcases List.mem_cons.mp hgap' with rfl | hother
            · exact hskips gap List.mem_cons_self x hx
            · exact hskips gap' (List.mem_cons_of_mem _ hother) x hx
          · exact hskips gap' (List.mem_cons_of_mem _ hgap') x hx
        · rw [hgaps] at hbefore
          rcases hbefore with hknown | ⟨gap', hgap', below, hafter, hmem, huntil⟩
          · exact .inl (.inl hknown)
          · rcases List.mem_cons.mp hgap' with rfl | hother
            · exact Accounted.catchUp hm hafter hmem hoffer huntil
                (hskips _ List.mem_cons_self) h.seen hpage rfl
            · refine .inr ⟨gap', ?_, below, hafter, hmem, huntil⟩
              dsimp only [advanceGap]
              split
              · exact List.mem_cons_of_mem _ hother
              · exact hother
  refine ⟨hseen, fun gap hgap x hx => .inl (haccounted.1 gap hgap x hx), ?_, ?_, ?_, ?_⟩
  · rw [hrecorded]
    exact fun x hx => .inl (h.recorded x hx)
  · intro newest hn
    obtain ⟨hunder, e, he, hoffer⟩ := h.newest newest (hnewest ▸ hn)
    exact ⟨hfloor.trans hunder, e, MarketRun.mem_drop_mono (MarketRun.hiddenAfter_le _ _) he, hoffer⟩
  · intro hnone
    rw [hnone, Option.or_none]
    exact h.since (hfloor ▸ hnone)
  · intro since floor hsince hfloor' entry hentry offer hoffer habove hbelow
    rw [hfloor] at hfloor'
    cases hbefore : sinceMs with
    | none =>
        rw [hbefore, Option.none_or, hfloor, hfloor'] at hsince
        obtain rfl := Option.some.inj hsince
        omega
    | some earlier =>
        rw [hbefore, Option.some_or] at hsince
        obtain rfl := Option.some.inj hsince
        exact haccounted.2 entry offer hoffer
          (h.covers _ _ hbefore hfloor' entry hentry offer hoffer habove hbelow)

/-- A recorded listing is noted. -/
theorem Complete.note (h : Complete m parseOffer known hidden sinceMs p) {offer : DMarketOffer}
    (hknown : known offer.offerId) :
    Complete m parseOffer known hidden sinceMs (p.noteRecorded offer) where
  seen := h.seen
  skips := h.skips
  recorded := by
    intro x hx
    have hset := OrderedDict.contains_iff_mem.mpr hx
    rw [ListingPoller.noteRecorded, ListingPoller.record, OrderedDict.contains_set,
      Bool.or_eq_true, decide_eq_true_eq] at hset
    rcases hset with rfl | hbefore
    · exact hknown
    · exact h.recorded x (OrderedDict.contains_iff_mem.mp hbefore)
  newest := h.newest
  since := h.since
  covers := h.covers

theorem Complete.save (h : Complete m parseOffer known hidden sinceMs p) :
    Complete m parseOffer known hidden sinceMs p.dropOldRecorded := by
  unfold ListingPoller.dropOldRecorded
  split
  · exact h
  · rename_i newest hnewest
    refine ⟨h.seen, h.skips, fun x hx => h.recorded x ?_, h.newest, h.since, h.covers⟩
    obtain ⟨kv, hkv, rfl⟩ := List.mem_map.mp hx
    exact List.mem_map_of_mem (List.mem_filter.mp hkv).1

/-! ## Starting again -/

/-- A resume point that claims no more than is known: it is complete up to just below its newest
time, which is that of a listing there is. -/
structure Truthful (m : Market ε) (parseOffer : ε → Option DMarketOffer) (known : String → Prop)
    (hidden : Nat) (sinceMs : Option Int) (point : ResumePoint) : Prop where
  recorded : ∀ x ∈ point.recordedIds, known x
  skips : ∀ gap ∈ point.gaps, ∀ x ∈ gap.skipIds, known x
  newest : ∃ e ∈ m.history.drop hidden, ∃ offer, parseOffer e = some offer ∧
    offer.createdAtMs = point.newestMs
  covers : ∀ since, sinceMs = some since →
    AccountedBetween m parseOffer known point.gaps since (point.newestMs - liveOverlapMs)

/-- No listing below the new floor that is not known was created at the lower end of its gap when
the cursor of the gap has come to that time. -/
def NoTieAt (m : Market ε) (parseOffer : ε → Option DMarketOffer) (position : String → Option Int)
    (known : String → Prop) (point : ResumePoint) (nowMs maxCatchUpMs : Int) : Prop :=
  ∀ gap ∈ point.gaps, ∀ rest, m.after gap.cursor = some rest → ∀ entry ∈ rest, ∀ offer,
    parseOffer entry = some offer → ¬ known offer.offerId → gap.untilMs ≤ offer.createdAtMs →
    offer.createdAtMs < max (point.newestMs - resumeOverlapMs) (nowMs - maxCatchUpMs) →
    position gap.cursor = some offer.createdAtMs →
    offer.createdAtMs ≠ max gap.untilMs (nowMs - maxCatchUpMs)

theorem Truthful.mono {known' : String → Prop} {hidden' : Nat} {point : ResumePoint}
    (h : Truthful m parseOffer known hidden sinceMs point) (hknown : ∀ x, known x → known' x)
    (hhidden : hidden' ≤ hidden) : Truthful m parseOffer known' hidden' sinceMs point where
  recorded := fun x hx => hknown x (h.recorded x hx)
  skips := fun gap hgap x hx => hknown x (h.skips gap hgap x hx)
  newest := by
    obtain ⟨e, he, hoffer⟩ := h.newest
    exact ⟨e, MarketRun.mem_drop_mono hhidden he, hoffer⟩
  covers := fun since hsince entry hentry offer hoffer habove hbelow =>
    (h.covers since hsince entry hentry offer hoffer habove hbelow).mono hknown fun _ hgap => hgap

/-- What a poller saves claims no more than is known. -/
theorem Complete.savedPoint (h : Complete m parseOffer known hidden sinceMs p) {newestMs : Int}
    (hnewest : p.newestMs = some newestMs) :
    Truthful m parseOffer known hidden sinceMs (savedPoint p newestMs) := by
  obtain ⟨hfloor, hthere⟩ := h.newest newestMs hnewest
  exact ⟨fun x hx => h.save.recorded x (List.mem_toFinset.mp hx), h.skips, hthere,
    fun since hsince => h.covers since _ hsince hfloor⟩

theorem contains_recorded_of_foldl_resume {newestMs : Int} {ids : List String} {p : ListingPoller}
    {x : String} (h : x ∈ (ids.foldl (fun p listingId =>
      (p.remember listingId).record listingId newestMs) p).recorded.keys) :
    x ∈ ids ∨ x ∈ p.recorded.keys := by
  induction ids generalizing p with
  | nil => exact .inr h
  | cons listingId rest ih =>
      rcases ih h with hrest | hkey
      · exact .inl (List.mem_cons_of_mem _ hrest)
      · have hset : (p.recorded.set listingId newestMs).contains x = true :=
          OrderedDict.contains_iff_mem.mpr hkey
        rw [OrderedDict.contains_set, Bool.or_eq_true, decide_eq_true_eq] at hset
        rcases hset with rfl | hbefore
        · exact .inl List.mem_cons_self
        · exact .inr (OrderedDict.contains_iff_mem.mp hbefore)

variable {order : SetOrder} {position : String → Option Int} {point : ResumePoint}
  {nowMs maxCatchUpMs : Int}

theorem mem_gaps_resumeFrom {gap : CatchUpGap}
    (h : gap ∈ (p.resumeFrom order position point nowMs maxCatchUpMs).gaps) :
    gap ∈ p.gaps ∨ ∃ before ∈ point.gaps,
      gap = ListingPoller.clipGap (nowMs - maxCatchUpMs) before := by
  have hkept := (foldl_resume point.newestMs (order.iter point.recordedIds)
    { p with nextFloorMs := some (max (point.newestMs - resumeOverlapMs)
      (nowMs - maxCatchUpMs)) }).2.2.1
  rcases List.mem_append.mp h with h | h
  · rw [hkept] at h
    exact .inl h
  · obtain ⟨before, hbefore, rfl⟩ := List.mem_map.mp (List.mem_filter.mp h).1
    exact .inr ⟨before, hbefore, rfl⟩

theorem skipIds_clipGap (oldestAllowedMs : Int) (gap : CatchUpGap) :
    (ListingPoller.clipGap oldestAllowedMs gap).skipIds = gap.skipIds := by
  unfold ListingPoller.clipGap
  split <;> rfl

/-- Starting from a resume point, complete from `since'` on. -/
theorem Complete.resumeFrom (h : Complete m parseOffer known hidden sinceMs p)
    (hidle : p.started = false) (hrecorded : ∀ x ∈ point.recordedIds, known x)
    (hskips : ∀ gap ∈ point.gaps, ∀ x ∈ gap.skipIds, known x) {since' : Option Int}
    (hcovers : ∀ since floor, since' = some since →
      (p.resumeFrom order position point nowMs maxCatchUpMs).nextFloorMs = some floor →
      AccountedBetween m parseOffer known
        (p.resumeFrom order position point nowMs maxCatchUpMs).gaps since floor) :
    Complete m parseOffer known hidden since'
      (p.resumeFrom order position point nowMs maxCatchUpMs) := by
  have hfloor := nextFloorMs_resumeFrom order position point nowMs maxCatchUpMs p
  have hkept := (foldl_resume point.newestMs (order.iter point.recordedIds)
    { p with nextFloorMs := some (max (point.newestMs - resumeOverlapMs)
      (nowMs - maxCatchUpMs)) }).2.2.2
  rw [ListingPoller.started, Bool.or_eq_false_iff, Option.isSome_eq_false_iff,
    Option.isSome_eq_false_iff, Option.isNone_iff_eq_none, Option.isNone_iff_eq_none] at hidle
  constructor
  · intro x hx
    rcases MarketRun.contains_seen_of_foldl_resume hx with hids | hbefore
    · exact hrecorded x ((order.mem_iter _ x).mp hids)
    · exact h.seen x hbefore
  · intro gap hgap x hx
    rcases mem_gaps_resumeFrom hgap with hgap | ⟨before, hbefore, rfl⟩
    · exact h.skips gap hgap x hx
    · exact hskips before hbefore x (skipIds_clipGap _ before ▸ hx)
  · intro x hx
    rcases contains_recorded_of_foldl_resume hx with hids | hbefore
    · exact hrecorded x ((order.mem_iter _ x).mp hids)
    · exact h.recorded x hbefore
  · intro newest hn
    rw [show (p.resumeFrom order position point nowMs maxCatchUpMs).newestMs = p.newestMs from hkept,
      hidle.2] at hn
    cases hn
  · intro hnone
    rw [hfloor] at hnone
    cases hnone
  · exact hcovers

/-- A truthful resume point starts a complete poller, from the oldest time allowed on. -/
theorem Complete.resumeFrom_truthful (htimes : m.CursorTimes parseOffer position)
    (h : Complete m parseOffer known hidden sinceMs p) (hidle : p.started = false)
    {storedSinceMs : Option Int}
    (hpoint : Truthful m parseOffer known hidden storedSinceMs point)
    (hok : NoTieAt m parseOffer position known point nowMs maxCatchUpMs) :
    Complete m parseOffer known hidden
      ((storedSinceMs.map fun since => max since (nowMs - maxCatchUpMs)).or
        (p.resumeFrom order position point nowMs maxCatchUpMs).nextFloorMs)
      (p.resumeFrom order position point nowMs maxCatchUpMs) := by
  have hfloor := nextFloorMs_resumeFrom order position point nowMs maxCatchUpMs p
  refine h.resumeFrom hidle hpoint.recorded hpoint.skips ?_
  intro since floor hsince hfloor' entry hentry offer hoffer habove hbelow
  rw [hfloor'] at hsince
  rw [hfloor] at hfloor'
  obtain rfl := Option.some.inj hfloor'
  cases hstored : storedSinceMs with
  | none =>
      rw [hstored, Option.map_none, Option.none_or] at hsince
      obtain rfl := Option.some.inj hsince
      omega
  | some earlier =>
      rw [hstored, Option.map_some, Option.some_or] at hsince
      obtain rfl := Option.some.inj hsince
      have hearlier : earlier ≤ offer.createdAtMs := (le_max_left _ _).trans habove
      have hage : nowMs - maxCatchUpMs ≤ offer.createdAtMs := (le_max_right _ _).trans habove
      have hunder : offer.createdAtMs < point.newestMs - liveOverlapMs := by
        rcases lt_max_iff.mp hbelow with hlow | hlow
        · rw [resumeOverlapMs] at hlow
          rw [liveOverlapMs]
          omega
        · omega
      rcases hpoint.covers earlier hstored entry hentry offer hoffer hearlier hunder with
        hknown | ⟨gap, hgap, rest, hafter, hmem, huntil⟩
      · exact .inl hknown
      · by_cases hknown : known offer.offerId
        · exact .inl hknown
        · obtain ⟨created, hposition, hnewest⟩ := htimes gap.cursor rest hafter
          have hcreated := hnewest entry hmem offer hoffer
          have hlower : max gap.untilMs (nowMs - maxCatchUpMs) ≤ offer.createdAtMs :=
            max_le huntil hage
          have hopen : max gap.untilMs (nowMs - maxCatchUpMs) < created := by
            rcases lt_or_eq_of_le (hlower.trans hcreated) with hlt | heq
            · exact hlt
            · -- the cursor, the lower end and the listing are all at one time
              have hsame : created = offer.createdAtMs := le_antisymm (heq ▸ hlower) hcreated
              exact absurd (le_antisymm (by omega) hlower)
                (hok gap hgap rest hafter entry hmem offer hoffer hknown huntil hbelow
                  (hsame ▸ hposition))
          refine .inr ⟨_, clipGap_mem_resumeFrom hgap hposition hopen, rest, ?_, hmem, ?_⟩
          · rw [cursor_clipGap]
            exact hafter
          · rw [untilMs_clipGap]
            exact hlower

end BrandSniper.Dmarket
