import BrandSniper.Dmarket.Accounts
import BrandSniper.Dmarket.Scraper

/-!
# What the scraper never loses

Over processes that die at any moment, requests and Redis commands that fail,
and an edge Redis that is emptied: a listing is settled once its tick was
handed on or the filter dropped it. The stored resume point claims no listing
that is not settled (`losesNothing_of_run`), because it is only written when
all that was read is.
-/

namespace BrandSniper.Dmarket

open Kit Json

variable {ε F : Type} [PyFloat F] {w : ScraperWorld ε F}

/-- The listings a process has read and that are not settled. -/
def Process.inHand (p : Process ε) : List String :=
  match p.phase with
  | .reading _ left => offerIds left
  | .yielded tick _ left => tick.listingId.toList ++ offerIds left
  | _ => []

theorem inHand_of_ended {p : Process ε} (h : p.phase.ended = true) : p.inHand = [] := by
  unfold Phase.ended at h
  split at h
  · rename_i hphase
    rw [Process.inHand, hphase]
  · rename_i hphase
    rw [Process.inHand, hphase]
  · cases h

namespace Scraper

/-- The listing's tick was handed on, the filter dropped it, or the backend named it. -/
def Settled (st : Scraper ε) (x : String) : Prop :=
  x ∈ st.handed.filterMap (fun h => h.tick.listingId) ∨
    x ∈ st.dropped.filterMap (fun d => d.offer.map DMarketOffer.offerId) ∨ x ∈ st.vouched

/-- The poll gets no page on which nothing parses while a listing that is not accounted for lies
below it, no restart meets a gap whose unread listings all have its lower end's time, and the
price of an entry to be judged has floats. -/
def ReadsOn (w : ScraperWorld ε F) (st : Scraper ε) : ScraperEvent ε → Prop
  | .act (.live visits) => ∀ p, st.process = some p → ∀ floor, p.poller.nextFloorMs = some floor →
      NothingBelowBlank w.parseOffer w.market (w.market.fetch st.hidden visits) liveMaxPages none
        floor (Accounted w.market st.Settled p.poller.gaps)
  | .act (.listen false _ nowMs) => ∀ point,
      parseResumeDocument w.repr st.stored = some point →
      NoTieAt w.market w.parseOffer (cursorCreatedAtMs F) st.Settled point nowMs w.maxCatchUpMs
  | .act .judge => ∀ p event item left, st.process = some p →
      p.phase = .reading event (item :: left) → (w.details item.entry).Converts
  | _ => True

structure Inv (w : ScraperWorld ε F) (st : Scraper ε) : Prop where
  stored : ∀ point, parseResumeDocument w.repr st.stored = some point →
    Truthful w.market w.parseOffer st.Settled st.hidden st.storedSinceMs point
  process : ∀ p, st.process = some p →
    Complete w.market w.parseOffer (fun x => st.Settled x ∨ x ∈ p.inHand) st.hidden p.sinceMs
      p.poller

omit [PyFloat F] in
theorem Settled.mono {st st' : Scraper ε} {x : String} (h : st.Settled x)
    (hhanded : ∀ y ∈ st.handed, y ∈ st'.handed) (hdropped : ∀ y ∈ st.dropped, y ∈ st'.dropped)
    (hvouched : st.vouched ⊆ st'.vouched) : st'.Settled x := by
  rcases h with h | h | h
  · obtain ⟨y, hy, hid⟩ := List.mem_filterMap.mp h
    exact .inl (List.mem_filterMap.mpr ⟨y, hhanded y hy, hid⟩)
  · obtain ⟨y, hy, hid⟩ := List.mem_filterMap.mp h
    exact .inr (.inl (List.mem_filterMap.mpr ⟨y, hdropped y hy, hid⟩))
  · exact .inr (.inr (hvouched h))

theorem inv_start (hidden : Nat) : Inv w (start hidden) where
  stored := by
    intro point hpoint
    cases hpoint
  process := by
    intro p hp
    cases hp

/-- A step that leaves the stored resume point alone. -/
theorem Inv.of_process {st st' : Scraper ε} (hI : Inv w st) (hhidden : st'.hidden ≤ st.hidden)
    (hsettled : ∀ x, st.Settled x → st'.Settled x) (hstored : st'.stored = st.stored)
    (hsince : st'.storedSinceMs = st.storedSinceMs)
    (hprocess : ∀ p, st'.process = some p →
      Complete w.market w.parseOffer (fun x => st'.Settled x ∨ x ∈ p.inHand) st'.hidden p.sinceMs
        p.poller) : Inv w st' where
  stored := by
    intro point hpoint
    rw [hstored] at hpoint
    rw [hsince]
    exact (hI.stored point hpoint).mono hsettled hhidden
  process := hprocess

/-- A step of the process that keeps its poller and what it has in hand. -/
theorem Inv.quiet {st : Scraper ε} (hI : Inv w st) {p p' : Process ε} (hp : st.process = some p)
    (hpoller : p'.poller = p.poller) (hsince : p'.sinceMs = p.sinceMs)
    (hhand : p'.inHand = p.inHand) : Inv w (st.set p') := by
  refine hI.of_process (Nat.le_refl _) (fun _ h => h) rfl rfl fun q hq => ?_
  obtain rfl := Option.some.inj hq
  rw [hpoller, hsince, hhand]
  exact hI.process p hp

theorem Inv.resume {st : Scraper ε} (hI : Inv w st)
    (htimes : w.market.CursorTimes w.parseOffer (cursorCreatedAtMs F)) {p : Process ε}
    (hp : Complete w.market w.parseOffer st.Settled st.hidden p.sinceMs p.poller)
    (hidle : p.poller.started = false) {redisFails : Bool}
    {backend : Option (Int × Finset String)} {nowMs : Int}
    (hok : st.ReadsOn w (.act (.listen redisFails backend nowMs))) :
    Inv w (st.resume w p redisFails backend nowMs) := by
  unfold Scraper.resume
  split
  · rename_i point hread
    cases redisFails with
    | true => cases hread
    | false =>
        refine hI.of_process (Nat.le_refl _) (fun _ h => h) rfl rfl fun q hq => ?_
        obtain rfl := Option.some.inj hq
        exact (hp.resumeFrom_truthful htimes hidle (hI.stored point hread) (hok point hread)).mono
          (fun _ => .inl) (Nat.le_refl _)
  · split
    · refine hI.of_process (Nat.le_refl _) (fun _ h => h) rfl rfl fun q hq => ?_
      obtain rfl := Option.some.inj hq
      exact hp.mono (fun _ => .inl) (Nat.le_refl _)
    · rename_i newestMs recordedIds
      have hvouched : st.vouched ⊆ st.vouched ∪ recordedIds := Finset.subset_union_left
      refine hI.of_process (Nat.le_refl _)
        (fun _ h => h.mono (fun _ => id) (fun _ => id) hvouched) rfl rfl fun q hq => ?_
      obtain rfl := Option.some.inj hq
      refine Complete.resumeFrom (hp.mono (fun x h => .inl
          (h.mono (fun _ => id) (fun _ => id) hvouched)) (Nat.le_refl _)) hidle
        (fun x hx => .inl (.inr (.inr (Finset.mem_union_right _ hx))))
        (fun gap hgap => by cases hgap) ?_
      -- nothing before the new floor is claimed
      intro since floor hsince hfloor entry _ offer _ habove hbelow
      have hnone : p.sinceMs = none := by
        rw [ListingPoller.started, Bool.or_eq_false_iff, Option.isSome_eq_false_iff,
          Option.isNone_iff_eq_none] at hidle
        exact hp.since hidle.1
      have hmark : p.sinceMs.or (some floor) = some since := by
        rw [← hfloor]
        exact hsince
      rw [hnone, Option.none_or] at hmark
      obtain rfl := Option.some.inj hmark
      omega

/-- After a call of the poller that returned. -/
theorem Inv.called {st : Scraper ε} (hI : Inv w st) {hidden : Nat} (hhidden : hidden ≤ st.hidden)
    {p : Process ε} {event : String} {read : List (ReadEntry ε)} {poller : ListingPoller}
    (hcall : Complete w.market w.parseOffer (fun x => st.Settled x ∨ x ∈ offerIds read) hidden
      (p.sinceMs.or poller.nextFloorMs) poller) :
    Inv w { st.set (p.called event (.ok read poller)) with hidden := hidden } := by
  refine hI.of_process hhidden (fun _ h => h) rfl rfl fun q hq => ?_
  obtain rfl := Option.some.inj hq
  exact hcall

/-- After one that raised. -/
theorem Inv.raised {st : Scraper ε} (hI : Inv w st) {hidden : Nat} (hhidden : hidden ≤ st.hidden)
    {p : Process ε} (hp : Complete w.market w.parseOffer st.Settled st.hidden p.sinceMs p.poller)
    {event : String} {err : FetchError} {poller : ListingPoller} (hsame : poller = p.poller) :
    Inv w { st.set (p.called event (.error err poller)) with hidden := hidden } := by
  refine hI.of_process hhidden (fun _ h => h) rfl rfl fun q hq => ?_
  obtain rfl := Option.some.inj hq
  rw [hsame]
  exact hp.mono (fun _ => .inl) hhidden

theorem Inv.judgeNext {st : Scraper ε} (hI : Inv w st) {p : Process ε} (hp : st.process = some p)
    {event : String} {item : ReadEntry ε} {left : List (ReadEntry ε)}
    (hphase : p.phase = .reading event (item :: left))
    (hconverts : (w.details item.entry).Converts) :
    Inv w (st.judgeNext w p event item left) := by
  have hcomplete := hI.process p hp
  have hhand : p.inHand = (item.offer.map DMarketOffer.offerId).toList ++ offerIds left := by
    rw [Process.inHand, hphase]
    show List.filterMap _ (item :: left) = _
    rw [List.filterMap_cons]
    cases item.offer with
    | none => rfl
    | some offer => rfl
  rw [hhand] at hcomplete
  obtain ⟨verdict, tick?, hjudge⟩ :=
    exists_judge_of_converts hconverts p.resalePrices item.offer item.receivedAtMs
  unfold Scraper.judgeNext
  rw [hjudge]
  dsimp only
  split
  · rename_i tick offer hoffer
    obtain ⟨-, offer', hsame, hbuilt⟩ := judge_eq_some hjudge
    rw [hoffer] at hsame
    obtain rfl := Option.some.inj hsame
    refine hI.of_process (Nat.le_refl _) (fun _ h => h) rfl rfl fun q hq => ?_
    obtain rfl := Option.some.inj hq
    have hrecord : (p.record offer tick ⟨event, item.receivedAtMs, item.entry⟩ left).inHand
        = (item.offer.map DMarketOffer.offerId).toList ++ offerIds left := by
      rw [hoffer]
      show tick.listingId.toList ++ offerIds left = _
      rw [listingId_of_listingTick hbuilt]
      rfl
    rw [hrecord]
    refine hcomplete.note (.inr (List.mem_append_left _ ?_))
    rw [hoffer]
    exact List.mem_singleton_self _
  · refine hI.of_process (Nat.le_refl _)
      (fun _ h => h.mono (fun _ => id) (fun _ => List.mem_append_left _) (Finset.Subset.refl _))
      rfl rfl fun q hq => ?_
    obtain rfl := Option.some.inj hq
    refine hcomplete.mono (fun x hx => ?_) (Nat.le_refl _)
    rcases hx with hx | hx
    · exact .inl (hx.mono (fun _ => id) (fun _ => List.mem_append_left _) (Finset.Subset.refl _))
    · rcases List.mem_append.mp hx with hx | hx
      · refine .inl (.inr (.inl (List.mem_filterMap.mpr ⟨_, List.mem_append_right _
          (List.mem_singleton_self _), ?_⟩)))
        exact Option.mem_toList.mp hx
      · exact .inr hx

theorem Inv.hand {st : Scraper ε} (hI : Inv w st) {p : Process ε} (hp : st.process = some p)
    {tick : MarketTick} {raw : RawEvent ε} {left : List (ReadEntry ε)}
    (hphase : p.phase = .yielded tick raw left) (taken : List (MarketTick × RawEvent ε)) :
    Inv w { st.set { p with phase := .reading raw.event left, taken := taken } with
      handed := st.handed ++ [⟨tick, p.resalePrices⟩] } := by
  have hcomplete := hI.process p hp
  rw [Process.inHand, hphase] at hcomplete
  refine hI.of_process (Nat.le_refl _)
    (fun _ h => h.mono (fun _ => List.mem_append_left _) (fun _ => id) (Finset.Subset.refl _))
    rfl rfl fun q hq => ?_
  obtain rfl := Option.some.inj hq
  refine hcomplete.mono (fun x hx => ?_) (Nat.le_refl _)
  rcases hx with hx | hx
  · exact .inl (hx.mono (fun _ => List.mem_append_left _) (fun _ => id) (Finset.Subset.refl _))
  · rcases List.mem_append.mp hx with hx | hx
    · refine .inl (.inl (List.mem_filterMap.mpr ⟨_, List.mem_append_right _
        (List.mem_singleton_self _), ?_⟩))
      exact Option.mem_toList.mp hx
    · exact .inr hx

/-- The resume point is written when nothing is in hand. -/
theorem Inv.save [LawfulPyFloat F] {st : Scraper ε} (hI : Inv w st) {p : Process ε}
    (hp : Complete w.market w.parseOffer st.Settled st.hidden p.sinceMs p.poller)
    (redisFails : Bool) : Inv w (st.save F p redisFails) := by
  unfold Scraper.save
  split
  · refine hI.of_process (Nat.le_refl _) (fun _ h => h) rfl rfl fun q hq => ?_
    obtain rfl := Option.some.inj hq
    exact hp.mono (fun _ => .inl) (Nat.le_refl _)
  · rename_i newest hnewest
    have hprocess : ∀ q, some { p with poller := p.poller.dropOldRecorded } = some q →
        Complete w.market w.parseOffer (fun x => st.Settled x ∨ x ∈ q.inHand) st.hidden q.sinceMs
          q.poller := by
      intro q hq
      obtain rfl := Option.some.inj hq
      exact hp.save.mono (fun _ => .inl) (Nat.le_refl _)
    dsimp only
    split
    · exact hI.of_process (Nat.le_refl _) (fun _ h => h) rfl rfl hprocess
    · refine ⟨fun point hpoint => ?_, hprocess⟩
      rw [show parseResumeDocument w.repr _ = _ from parse_resumeDocument w.repr hnewest] at hpoint
      obtain rfl := Option.some.inj hpoint
      exact hp.savedPoint hnewest

/-- What a process with nothing in hand is complete in. -/
theorem Inv.settled {st : Scraper ε} (hI : Inv w st) {p : Process ε} (hp : st.process = some p)
    (hhand : p.inHand = []) :
    Complete w.market w.parseOffer st.Settled st.hidden p.sinceMs p.poller := by
  refine (hI.process p hp).mono (fun x hx => ?_) (Nat.le_refl _)
  rw [hhand] at hx
  exact hx.resolve_right List.not_mem_nil

theorem Inv.act [LawfulPyFloat F] (hm : w.market.Lawful w.parseOffer)
    (htimes : w.market.CursorTimes w.parseOffer (cursorCreatedAtMs F)) {st st' : Scraper ε}
    (hI : Inv w st) {p : Process ε} (hp : st.process = some p) {action : Action ε}
    (hok : st.ReadsOn w (.act action)) (h : st.act w p action = some st') : Inv w st' := by
  have hnothing : (p.phase.ended = true ∨ p.phase = .top ∨ p.phase = .saving ∨
      p.phase = .failed ∨ p.phase = .closing) → p.inHand = [] := by
    rintro (h | h | h | h | h)
    · exact inHand_of_ended h
    all_goals rw [Process.inHand, h]
  cases action with
  | listen redisFails backend nowMs =>
      rw [Scraper.act] at h
      split at h
      · rename_i hphase
        have hhand := hnothing (.inl hphase)
        split at h
        · cases h
          exact hI.quiet hp rfl rfl hhand.symm
        · rename_i hstarted
          cases h
          rw [Bool.not_eq_true] at hstarted
          have hcomplete := hI.settled hp hhand
          exact hI.resume (p := p.connect) htimes hcomplete hstarted hok
      · cases h
  | refresh answer =>
      unfold Scraper.act at h
      dsimp only at h
      split at h
      · cases h
        exact hI.quiet hp rfl rfl rfl
      · cases h
        exact hI
      · cases h
  | live visits =>
      rw [Scraper.act] at h
      split at h
      · rename_i hphase
        have hcomplete := hI.settled hp (hnothing (.inr (.inl hphase)))
        split at h
        · cases h
        · cases h
          cases hcall : livePoll w.parseOffer w.order (w.market.fetch st.hidden visits) p.poller with
          | error err poller =>
              exact hI.raised (MarketRun.hiddenAfter_le _ _) hcomplete
                (livePoll_of_raise w.parseOffer hcall)
          | ok read poller =>
              exact hI.called (MarketRun.hiddenAfter_le _ _) (hcomplete.live hm (hok p hp) hcall)
      · cases h
  | catchUp visits =>
      rw [Scraper.act] at h
      split at h
      · rename_i hphase
        have hcomplete := hI.settled hp (hnothing (.inr (.inl hphase)))
        split at h
        · cases h
        · cases h
          cases hcall : catchUpPage w.parseOffer (w.market.fetch st.hidden visits) p.poller with
          | error err poller =>
              exact hI.raised (MarketRun.hiddenAfter_le _ _) hcomplete
                (catchUpPage_of_raise w.parseOffer hcall)
          | ok read poller =>
              exact hI.called (MarketRun.hiddenAfter_le _ _) (hcomplete.catchUp hm hcall)
      · cases h
  | judge =>
      rw [Scraper.act] at h
      split at h
      · rename_i event item left hphase
        cases h
        exact hI.judgeNext hp hphase (hok p event item left hp hphase)
      · cases h
  | hand =>
      rw [Scraper.act] at h
      split at h
      · rename_i tick raw left hphase
        cases h
        exact hI.hand hp hphase _
      · cases h
  | flush nowMs =>
      rw [Scraper.act] at h
      split at h
      · rename_i event hphase
        cases h
        refine hI.quiet hp rfl rfl ?_
        rw [Process.inHand, Process.inHand, hphase]
        rfl
      · cases h
  | save redisFails =>
      rw [Scraper.act] at h
      split at h
      · rename_i hphase
        cases h
        have hcomplete := hI.settled hp (hnothing (.inr (.inr (.inl hphase))))
        exact hI.save (p := { p with phase := .top }) hcomplete redisFails
      · cases h
  | flushPending =>
      rw [Scraper.act] at h
      split at h
      · rename_i hphase
        cases h
        exact hI.quiet hp rfl rfl (hnothing (.inr (.inr (.inr (.inl hphase))))).symm
      · cases h
  | saveLast redisFails =>
      rw [Scraper.act] at h
      split at h
      · rename_i hphase
        cases h
        have hcomplete := hI.settled hp (hnothing (.inr (.inr (.inr (.inr hphase)))))
        exact hI.save (p := { p with phase := .closed }) hcomplete redisFails
      · cases h

theorem Inv.step [LawfulPyFloat F] (hm : w.market.Lawful w.parseOffer)
    (htimes : w.market.CursorTimes w.parseOffer (cursorCreatedAtMs F)) {st st' : Scraper ε}
    {e : ScraperEvent ε} (hI : Inv w st) (hok : st.ReadsOn w e)
    (h : st.step w e = some st') : Inv w st' := by
  cases e with
  | arrive count =>
      cases h
      exact hI.of_process (Nat.sub_le _ _) (fun _ h => h) rfl rfl fun p hp =>
        (hI.process p hp).mono (fun _ h => h) (Nat.sub_le _ _)
  | boot =>
      rw [Scraper.step] at h
      split at h
      · cases h
        refine hI.of_process (Nat.le_refl _) (fun _ h => h) rfl rfl fun p hp => ?_
        obtain rfl := Option.some.inj hp
        exact complete_new _ _ _ _ _
      · cases h
  | act action =>
      obtain ⟨p, hp, hact⟩ := Option.bind_eq_some_iff.mp h
      exact hI.act hm htimes hp hok hact
  | die =>
      cases h
      refine hI.of_process (Nat.le_refl _) (fun _ h => h) rfl rfl fun p hp => ?_
      cases hp
  | wipe =>
      cases h
      refine ⟨fun point hpoint => ?_, hI.process⟩
      cases hpoint

/-! ## Judged against prices -/

/-- What a process is judging, it judges against prices. -/
def PricesHeld (p : Process ε) : Prop :=
  match p.phase with
  | .reading _ _ => p.resalePrices.latestPriceCents.keys ≠ []
  | .yielded tick _ _ =>
      p.resalePrices.latestPriceCents.keys ≠ [] ∧ p.resalePrices.judgeTick tick = .ok .recorded
  | _ => True

/-- Nothing is judged without prices, and what is handed on was worth recording. -/
structure Judged (st : Scraper ε) : Prop where
  handed : ∀ h ∈ st.handed, h.prices.latestPriceCents.keys ≠ [] ∧
    h.prices.judgeTick h.tick = .ok .recorded
  dropped : ∀ d ∈ st.dropped, d.prices.latestPriceCents.keys ≠ []
  process : ∀ p, st.process = some p → PricesHeld p

omit [PyFloat F] in
theorem Judged.set {st : Scraper ε} (h : Judged st) {p : Process ε} (hp : PricesHeld p) :
    Judged (st.set p) where
  handed := h.handed
  dropped := h.dropped
  process := by
    intro q hq
    obtain rfl := Option.some.inj hq
    exact hp

omit [PyFloat F] in
theorem Judged.moved {st : Scraper ε} (h : Judged st) (hidden : Nat) :
    Judged { st with hidden := hidden } := ⟨h.handed, h.dropped, h.process⟩

theorem Judged.resume {st : Scraper ε} (h : Judged st) {p : Process ε} (hphase : p.phase = .top)
    (redisFails : Bool) (backend : Option (Int × Finset String)) (nowMs : Int) :
    Judged (st.resume w p redisFails backend nowMs) := by
  have hquiet : ∀ q : Process ε, q.phase = .top → PricesHeld q := by
    intro q hq
    rw [PricesHeld, hq]
    trivial
  unfold Scraper.resume
  split
  · exact h.set (hquiet _ hphase)
  · split
    · exact h.set (hquiet _ hphase)
    · refine ⟨h.handed, h.dropped, fun q hq => ?_⟩
      obtain rfl := Option.some.inj hq
      exact hquiet _ hphase

theorem Judged.save {st : Scraper ε} (h : Judged st) {p : Process ε} (hp : PricesHeld p)
    (redisFails : Bool) : Judged (st.save F p redisFails) := by
  unfold Scraper.save
  split
  · exact h.set hp
  · have hkept := h.set (p := { p with poller := p.poller.dropOldRecorded }) hp
    dsimp only
    split
    · exact hkept
    · exact ⟨hkept.handed, hkept.dropped, hkept.process⟩

omit [PyFloat F] in
theorem Judged.judgeNext {st : Scraper ε} (h : Judged st) {p : Process ε}
    (hprices : p.resalePrices.latestPriceCents.keys ≠ []) (event : String) (item : ReadEntry ε)
    (left : List (ReadEntry ε)) : Judged (st.judgeNext w p event item left) := by
  unfold Scraper.judgeNext
  split
  · refine h.set ?_
    trivial
  · rename_i verdict tick? hjudge
    dsimp only
    split
    · refine h.set ?_
      exact ⟨hprices, (judge_eq_some hjudge).1⟩
    · refine ⟨h.handed, fun d hd => ?_, fun q hq => ?_⟩
      · rcases List.mem_append.mp hd with hd | hd
        · exact h.dropped d hd
        · obtain rfl := List.mem_singleton.mp hd
          exact hprices
      · obtain rfl := Option.some.inj hq
        exact hprices

theorem Judged.act {st st' : Scraper ε} (hJ : Judged st) {p : Process ε}
    (hp : st.process = some p) {action : Action ε} (h : st.act w p action = some st') :
    Judged st' := by
  have hheld := hJ.process p hp
  cases action with
  | listen redisFails backend nowMs =>
      rw [Scraper.act] at h
      split at h
      · split at h
        · cases h
          refine hJ.set ?_
          trivial
        · cases h
          exact hJ.resume rfl redisFails backend nowMs
      · cases h
  | refresh answer =>
      unfold Scraper.act at h
      dsimp only at h
      split at h
      · rename_i hphase
        cases h
        refine hJ.set ?_
        rw [PricesHeld, hphase]
        trivial
      · cases h
        exact hJ
      · cases h
  | live visits =>
      rw [Scraper.act] at h
      split at h
      · split at h
        · cases h
        · rename_i hprices
          cases h
          refine (hJ.set ?_).moved _
          cases livePoll w.parseOffer w.order (w.market.fetch st.hidden visits) p.poller with
          | error err poller => trivial
          | ok read poller => exact hprices
      · cases h
  | catchUp visits =>
      rw [Scraper.act] at h
      split at h
      · split at h
        · cases h
        · rename_i hprices
          cases h
          refine (hJ.set ?_).moved _
          cases catchUpPage w.parseOffer (w.market.fetch st.hidden visits) p.poller with
          | error err poller => trivial
          | ok read poller => exact fun hnone => hprices (.inl hnone)
      · cases h
  | judge =>
      rw [Scraper.act] at h
      split at h
      · rename_i event item left hphase
        cases h
        rw [PricesHeld, hphase] at hheld
        exact hJ.judgeNext hheld event item left
      · cases h
  | hand =>
      rw [Scraper.act] at h
      split at h
      · rename_i tick raw left hphase
        cases h
        rw [PricesHeld, hphase] at hheld
        refine ⟨fun y hy => ?_, hJ.dropped, fun q hq => ?_⟩
        · rcases List.mem_append.mp hy with hy | hy
          · exact hJ.handed y hy
          · obtain rfl := List.mem_singleton.mp hy
            exact hheld
        · obtain rfl := Option.some.inj hq
          exact hheld.1
      · cases h
  | flush nowMs =>
      rw [Scraper.act] at h
      split at h
      · cases h
        refine hJ.set ?_
        trivial
      · cases h
  | save redisFails =>
      rw [Scraper.act] at h
      split at h
      · cases h
        refine hJ.save ?_ redisFails
        trivial
      · cases h
  | flushPending =>
      rw [Scraper.act] at h
      split at h
      · cases h
        refine hJ.set ?_
        trivial
      · cases h
  | saveLast redisFails =>
      rw [Scraper.act] at h
      split at h
      · cases h
        refine hJ.save ?_ redisFails
        trivial
      · cases h

theorem Judged.step {st st' : Scraper ε} {e : ScraperEvent ε} (hJ : Judged st)
    (h : st.step w e = some st') : Judged st' := by
  cases e with
  | arrive count =>
      cases h
      exact ⟨hJ.handed, hJ.dropped, hJ.process⟩
  | boot =>
      rw [Scraper.step] at h
      split at h
      · cases h
        refine hJ.set ?_
        trivial
      · cases h
  | act action =>
      obtain ⟨p, hp, hact⟩ := Option.bind_eq_some_iff.mp h
      exact hJ.act hp hact
  | die =>
      cases h
      exact ⟨hJ.handed, hJ.dropped, fun p hp => by cases hp⟩
  | wipe =>
      cases h
      exact ⟨hJ.handed, hJ.dropped, hJ.process⟩

omit [PyFloat F] in
theorem judged_start (hidden : Nat) : Judged (start hidden : Scraper ε) where
  handed := by
    intro h hh
    cases hh
  dropped := by
    intro d hd
    cases hd
  process := by
    intro p hp
    cases hp

/-! ## Nothing is lost -/

structure LosesNothing (w : ScraperWorld ε F) (st : Scraper ε) : Prop where
  /-- The stored resume point claims no listing that is not settled. -/
  stored : ∀ point, parseResumeDocument w.repr st.stored = some point →
    Truthful w.market w.parseOffer st.Settled st.hidden st.storedSinceMs point
  /-- What the process has read past is settled, in its hands or in a gap. -/
  process : ∀ p, st.process = some p → ∀ since floor, p.sinceMs = some since →
    p.poller.nextFloorMs = some floor →
      AccountedBetween w.market w.parseOffer (fun x => st.Settled x ∨ x ∈ p.inHand) p.poller.gaps
        since floor
  /-- Each tick handed on was worth recording at the prices held then. -/
  handed : ∀ h ∈ st.handed, h.prices.judgeTick h.tick = .ok .recorded
  /-- Nothing is dropped for want of prices. -/
  dropped : ∀ d ∈ st.dropped, d.prices.latestPriceCents.keys ≠ []

/-- Whatever dies or fails, and whenever, no listing is lost. -/
theorem losesNothing_of_run [LawfulPyFloat F] (hm : w.market.Lawful w.parseOffer)
    (htimes : w.market.CursorTimes w.parseOffer (cursorCreatedAtMs F)) {hidden : Nat}
    {es : List (ScraperEvent ε)} {st : Scraper ε}
    (hrun : runFrom (step w) (start hidden) es = some st)
    (hok : AllSteps (step w) (ReadsOn w) (start hidden) es) : LosesNothing w st := by
  have hI : Inv w st := runFrom_inv_of_allSteps (Inv w) (ReadsOn w)
    (fun _ _ _ hI hok hstep => hI.step hm htimes hok hstep) hok (inv_start hidden) hrun
  have hJ : Judged st :=
    runFrom_inv Judged (fun _ _ _ hJ hstep => hJ.step hstep) (judged_start hidden) hrun
  exact ⟨hI.stored, fun p hp since floor hsince hfloor =>
    (hI.process p hp).covers since floor hsince hfloor, fun h hh => (hJ.handed h hh).2, hJ.dropped⟩

omit [PyFloat F] in
theorem judgeNext_of_recorded {st : Scraper ε} {p : Process ε} {event : String} {item : ReadEntry ε}
    {left : List (ReadEntry ε)} {verdict : Verdict} {tick : MarketTick} {offer : DMarketOffer}
    (hjudge : judge p.resalePrices item.offer (w.details item.entry) item.receivedAtMs
      = .ok (verdict, some tick)) (hoffer : item.offer = some offer) :
    st.judgeNext w p event item left
      = st.set (p.record offer tick ⟨event, item.receivedAtMs, item.entry⟩ left) := by
  obtain ⟨offer?, entry, receivedAtMs⟩ := item
  obtain rfl : offer? = some offer := hoffer
  rw [Scraper.judgeNext, hjudge]

theorem step_listen_stored {st : Scraper ε} {p : Process ε} (hp : st.process = some p)
    (hphase : p.phase.ended = true) (hidle : p.poller.started = false) {point : ResumePoint}
    (hstored : parseResumeDocument w.repr st.stored = some point)
    (backend : Option (Int × Finset String)) (nowMs : Int) :
    st.step w (.act (.listen false backend nowMs)) = some (st.set { p.connect with
      poller := p.poller.resumeFrom w.order (cursorCreatedAtMs F) point nowMs w.maxCatchUpMs
      sinceMs := st.storedSinceMs.map fun since => max since (nowMs - w.maxCatchUpMs) }.mark) := by
  rw [Scraper.step, hp, Option.bind_some, Scraper.act, hphase, hidle]
  simp only [Scraper.resume, hstored, Bool.false_eq_true, if_false]
  rfl

end Scraper

/-! ## A restart -/

def twoListings : Market DMarketOffer where
  history := [⟨"b", 300000⟩, ⟨"a", 100000⟩]
  cursor := fun offer => offersCursor FloatText offer.createdAtMs offer.offerId

def redline : OfferDetails := ⟨500, offerTypeBot, "AK-47 | Redline (Field-Tested)", none, []⟩

def twoListingsWorld : ScraperWorld DMarketOffer FloatText where
  market := twoListings
  parseOffer := some
  details := fun _ => redline
  maxSeen := 200000
  maxCatchUpMs := 172800000
  resaleVenue := "skinport"
  order := .sorted
  repr := fun _ => ""

theorem lawful_twoListings : twoListings.Lawful some where
  sorted := by
    have hsorted : twoListings.history.Pairwise fun a b => b.createdAtMs ≤ a.createdAtMs := by decide
    refine hsorted.imp fun hab offer older ha hb => ?_
    obtain rfl := Option.some.inj ha
    obtain rfl := Option.some.inj hb
    exact hab
  cursors := by decide +kernel

theorem cursorTimes_twoListings : twoListings.CursorTimes some (cursorCreatedAtMs FloatText) := by
  intro cursor rest hafter
  obtain ⟨before, offer, hhistory, rfl⟩ := twoListings.after_eq_some hafter
  refine ⟨offer.createdAtMs, cursorCreatedAtMs_offersCursor _ _, fun older holder o ho => ?_⟩
  have hsorted := lawful_twoListings.sorted
  rw [hhistory] at hsorted
  exact (List.pairwise_cons.mp (List.pairwise_append.mp hsorted).2.1).1 older holder offer o rfl ho

def recordedVisit (arrived : Nat) (receivedAtMs : Int) : Visit DMarketOffer :=
  ⟨arrived, some 0, receivedAtMs, ⟨[], none⟩⟩

def buildRead : Option (Option String × EdgeHashes) := some (some "7", skinportBuild.hashes)

/-- A process records the one listing there is, and dies. -/
def diedRun : List (ScraperEvent DMarketOffer) :=
  [.boot, .act (.listen false none 100500), .act (.refresh buildRead),
    .act (.live [recordedVisit 0 100400]), .act .judge, .act .hand, .act (.flush 101000),
    .act (.save false), .die]

def recordedPoller : ListingPoller :=
  { ListingPoller.new 200000 with
    newestMs := some 100000
    nextFloorMs := some 95000
    seen := OrderedDict.empty.set "a" ()
    recorded := OrderedDict.empty.set "a" 100000 }

/-- The listing's tick, at 5 dollars. -/
def redlineTick : MarketTick :=
  { MarketTick.listing venue "AK-47 | Redline (Field-Tested)" (some 500) 100 "a"
      isVenueName_venue with
    observedAtMs := some 100400
    observedAtMatchesTimestamp := Waxpeer.observedInside_seconds 100400 }

def heldPrices : ResalePrices :=
  ((ResalePrices.new "skinport").refresh (some "7") skinportBuild.hashes).2

theorem priceUsd_redline : ∃ priceUsd, redline.priceUsd = .ok priceUsd ∧
    priceUsd.units ≠ 0 ∧ priceUsd.mulNat 100 ≠ none ∧
      (priceUsd.mulNat 100).map Binary64.round = some 500 := by
  have hprice : (redline.priceUsd.toOption.any fun x => decide (x.units ≠ 0 ∧
      x.mulNat 100 ≠ none ∧ (x.mulNat 100).map Binary64.round = some 500)) = true := by
    decide +kernel
  obtain ⟨priceUsd, hsome, hconverts⟩ := (Option.any_eq_true _ _).mp hprice
  cases hresult : redline.priceUsd with
  | error e =>
      rw [hresult] at hsome
      cases hsome
  | ok x =>
      rw [hresult] at hsome
      cases hsome
      exact ⟨priceUsd, rfl, of_decide_eq_true hconverts⟩

theorem converts_redline : redline.Converts := by
  obtain ⟨priceUsd, hprice, -, hcents, -⟩ := priceUsd_redline
  exact ⟨priceUsd, hprice, Option.isSome_iff_ne_none.mpr hcents⟩

theorem judge_redline :
    judge heldPrices (some ⟨"a", 100000⟩) redline 100400
      = .ok (.filtered .recorded, some redlineTick) := by
  obtain ⟨priceUsd, hprice, hunits, -, hcents⟩ := priceUsd_redline
  have htick : listingTick ⟨"a", 100000⟩ redline 100400 = .ok (some redlineTick) := by
    unfold listingTick
    rw [if_neg (by decide), hprice]
    dsimp only [Except.map]
    rw [if_neg (by simp [hunits, redline]), hcents]
    rfl
  rw [judge, htick, if_neg (by decide)]
  rfl

def diedScraper : Scraper DMarketOffer where
  hidden := 1
  stored := some (resumeDocument FloatText recordedPoller)
  storedSinceMs := some 95000
  process := none
  handed := [⟨redlineTick, heldPrices⟩]
  dropped := []
  vouched := ∅

/-- What the poll has read is not judged yet. -/
def readProcess : Process DMarketOffer :=
  { (Process.new 200000 "skinport").connect with
    poller := { recordedPoller with recorded := .empty }
    resalePrices := heldPrices
    phase := .reading "listed" [⟨some ⟨"a", 100000⟩, ⟨"a", 100000⟩, 100400⟩]
    sinceMs := some 95000 }

theorem runFrom_diedRun :
    runFrom (Scraper.step twoListingsWorld) (.start 1) diedRun = some diedScraper := by
  have hread : runFrom (Scraper.step twoListingsWorld) (.start 1) (diedRun.take 4)
      = some ((Scraper.start 1).set readProcess) := rfl
  have hjudge : ((Scraper.start 1).set readProcess).step twoListingsWorld (.act .judge)
      = some ((Scraper.start 1).set (readProcess.record ⟨"a", 100000⟩ redlineTick
        ⟨"listed", 100400, ⟨"a", 100000⟩⟩ [])) := by
    exact congrArg some (Scraper.judgeNext_of_recorded judge_redline rfl)
  have hrest : runFrom (Scraper.step twoListingsWorld) ((Scraper.start 1).set
      (readProcess.record ⟨"a", 100000⟩ redlineTick ⟨"listed", 100400, ⟨"a", 100000⟩⟩ []))
      (diedRun.drop 5) = some diedScraper := rfl
  rw [show diedRun = diedRun.take 4 ++ .act .judge :: diedRun.drop 5 from rfl, runFrom_append,
    hread, Option.bind_some, runFrom, hjudge, Option.bind_some, hrest]

theorem parse_diedScraper : parseResumeDocument twoListingsWorld.repr diedScraper.stored
    = some (savedPoint recordedPoller 100000) := by
  have hnewest : recordedPoller.newestMs = some 100000 := rfl
  exact parse_resumeDocument _ hnewest

/-- The next process reads the resume point. -/
def resumedScraper : Scraper DMarketOffer :=
  let p : Process DMarketOffer := (Process.new 200000 "skinport").connect
  diedScraper.set { p with
    poller := p.poller.resumeFrom .sorted (cursorCreatedAtMs FloatText)
      (savedPoint recordedPoller 100000) 300500 172800000
    sinceMs := some 95000 }

def restart : List (ScraperEvent DMarketOffer) := [.boot, .act (.listen false none 300500)]

theorem runFrom_restart :
    runFrom (Scraper.step twoListingsWorld) diedScraper restart = some resumedScraper := by
  have hboot : Scraper.step twoListingsWorld diedScraper .boot
      = some (diedScraper.set (.new 200000 "skinport")) := rfl
  have hprocess : (diedScraper.set (.new 200000 "skinport")).process
      = some (.new 200000 "skinport") := rfl
  have hstored : parseResumeDocument twoListingsWorld.repr
      (diedScraper.set (.new 200000 "skinport")).stored = _ := parse_diedScraper
  have hlisten := Scraper.step_listen_stored hprocess rfl rfl hstored none 300500
  rw [restart, runFrom, hboot, Option.bind_some, runFrom, hlisten]
  rfl

/-- It reads on from there. -/
def readOn : List (ScraperEvent DMarketOffer) :=
  [.act (.refresh buildRead), .act (.live [recordedVisit 1 300400, recordedVisit 0 300450]),
    .act .judge]

/-- No page is empty, and no process starts from a stored resume point. -/
def readsPages (st : Scraper DMarketOffer) : ScraperEvent DMarketOffer → Bool
  | .act (.live visits) => (servedPages (twoListings.fetch st.hidden visits) liveMaxPages none).all
      fun page => page.entries ≠ []
  | .act (.listen false _ _) => st.stored.isNone
  | _ => true

theorem readsOn_of_readsPages (st : Scraper DMarketOffer) (e : ScraperEvent DMarketOffer)
    (h : readsPages st e = true) : st.ReadsOn twoListingsWorld e := by
  unfold Scraper.ReadsOn
  split
  · intro p _ floor _ page hpage hblank
    have hfull := of_decide_eq_true (List.all_eq_true.mp h page hpage)
    obtain ⟨entry, hentry⟩ := List.exists_mem_of_ne_nil _ hfull
    cases hblank entry hentry
  · intro point hpoint
    rw [readsPages, Option.isNone_iff_eq_none] at h
    rw [h] at hpoint
    cases hpoint
  · intro p event item left _ _
    exact converts_redline
  · trivial

theorem losesNothing_of_run_restart : ∃ st,
    runFrom (Scraper.step twoListingsWorld) (.start 1) (diedRun ++ (restart ++ readOn))
      = some st ∧ st.LosesNothing twoListingsWorld := by
  have hlast : ∃ st, runFrom (Scraper.step twoListingsWorld) resumedScraper readOn = some st ∧
      (st.process.any fun p => decide (p.inHand = ["b"])) = true :=
    (Option.any_eq_true _ _).mp (by decide +kernel)
  obtain ⟨st, hst, -⟩ := hlast
  have hrun : runFrom (Scraper.step twoListingsWorld) (.start 1)
      (diedRun ++ (restart ++ readOn)) = some st := by
    rw [runFrom_append, runFrom_diedRun, Option.bind_some, runFrom_append, runFrom_restart]
    exact hst
  refine ⟨st, hrun, Scraper.losesNothing_of_run (w := twoListingsWorld) lawful_twoListings
    cursorTimes_twoListings hrun ?_⟩
  refine AllSteps.append (.of_checkSteps readsOn_of_readsPages (by decide +kernel))
    fun mid hmid => ?_
  rw [runFrom_diedRun] at hmid
  obtain rfl := Option.some.inj hmid
  refine AllSteps.append (.cons trivial fun mid hmid => .cons ?_ fun _ _ => .nil) fun mid hmid => ?_
  · cases hmid
    intro point hpoint gap hgap
    obtain rfl := Option.some.inj (parse_diedScraper.symm.trans hpoint)
    cases hgap
  · rw [runFrom_restart] at hmid
    obtain rfl := Option.some.inj hmid
    exact .of_checkSteps readsOn_of_readsPages (by decide +kernel)

end BrandSniper.Dmarket
