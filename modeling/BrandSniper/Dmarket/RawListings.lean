import BrandSniper.Dmarket.ScraperSafety

/-!
# The raw listings of the scraper

The ticks of a connection leave it one by one, their raw listings in feed
events of many. Each tick's raw listing is in one feed event or waits for the
next, in the order of the ticks, and none waits once a connection has ended
with a failed request (`rawOnce_of_run`). Where a price raises, those that
waited are lost.
-/

namespace BrandSniper.Dmarket

open Kit Json

variable {ε F : Type} [PyFloat F] {w : ScraperWorld ε F}

/-! ## Batches -/

/-- A feed event of raw listings, received with the first of them. -/
structure RawFeedEvent.WellFormed (event : RawFeedEvent ε) : Prop where
  eventType : event.eventType = "batch"
  venue : event.venue = BrandSniper.Dmarket.venue
  received : event.events.head?.map RawEvent.receivedAtMs = some event.receivedAtMs

namespace RawEventBatch

variable {batch : RawEventBatch ε}

/-- What was taken and what is left are what there was. -/
structure Splits (batch : RawEventBatch ε) (taken : Option (RawFeedEvent ε) × RawEventBatch ε) :
    Prop where
  events : taken.1.toList.flatMap RawFeedEvent.events ++ taken.2.events = batch.events
  venue : taken.2.venue = batch.venue
  wellFormed : batch.venue = BrandSniper.Dmarket.venue → ∀ event ∈ taken.1.toList, event.WellFormed

theorem splits_none (batch : RawEventBatch ε) : batch.Splits (none, batch) where
  events := rfl
  venue := rfl
  wellFormed := by
    intro _ event hevent
    cases hevent

theorem splits_take (batch : RawEventBatch ε) : batch.Splits batch.take := by
  unfold take
  split
  · exact splits_none batch
  · rename_i first rest hevents
    refine ⟨?_, rfl, fun hvenue event hevent => ?_⟩
    · rw [hevents]
      simp
    · obtain rfl := List.mem_singleton.mp hevent
      exact ⟨rfl, hvenue, rfl⟩

theorem take_events (batch : RawEventBatch ε) : batch.take.2.events = [] := by
  unfold take
  split
  · rename_i hevents
    exact hevents
  · rfl

theorem splits_takeIfDue (batch : RawEventBatch ε) (nowMs : Int) :
    batch.Splits (batch.takeIfDue nowMs) := by
  unfold takeIfDue
  split
  · exact splits_none batch
  · split
    · exact splits_take batch
    · exact splits_none batch

end RawEventBatch

/-! ## Connections -/

/-- The tick that was yielded, with its raw listing. -/
def Process.pending (p : Process ε) : List (MarketTick × RawEvent ε) :=
  match p.phase with
  | .yielded tick raw _ => [(tick, raw)]
  | _ => []

/-- The ticks and the raw listings of a connection. -/
structure RawOnce (w : ScraperWorld ε F) (handed : List MarketTick) (p : Process ε) : Prop where
  /-- The connection's ticks are the last handed on. -/
  ticks : p.taken.map Prod.fst <:+ handed
  /-- Each was built from its raw listing. -/
  built : ∀ pair ∈ p.taken ++ p.pending, ∃ offer,
    listingTick offer (w.details pair.2.data) pair.2.receivedAtMs = .ok (some pair.1)
  /-- Each raw listing is in one feed event, waits or is lost, in the order of the ticks. -/
  once : p.fed.flatMap RawFeedEvent.events ++ (p.rawBatch.events ++ p.lost)
    = (p.taken ++ p.pending).map Prod.snd
  /-- None is lost unless a price has raised. -/
  kept : p.phase = .raised ∨ p.lost = []
  wellFormed : ∀ event ∈ p.fed, event.WellFormed
  venue : p.rawBatch.venue = BrandSniper.Dmarket.venue
  /-- None waits between connections. -/
  flushed : p.phase.ended = true ∨ p.phase = .closing → p.rawBatch.events = []

namespace RawOnce

variable {handed : List MarketTick} {p p' : Process ε}

omit [PyFloat F] in
theorem lost_eq_nil (h : RawOnce w handed p) (hraised : p.phase ≠ .raised) : p.lost = [] :=
  h.kept.resolve_left hraised

omit [PyFloat F] in
theorem of_same (h : RawOnce w handed p) (hraised : p.phase ≠ .raised)
    (htaken : p'.taken = p.taken) (hpending : p'.pending = p.pending) (hfed : p'.fed = p.fed)
    (hbatch : p'.rawBatch = p.rawBatch) (hlost : p'.lost = p.lost)
    (hphase : p'.phase.ended = true ∨ p'.phase = .closing →
      p.phase.ended = true ∨ p.phase = .closing) : RawOnce w handed p' where
  ticks := htaken ▸ h.ticks
  built := by
    rw [htaken, hpending]
    exact h.built
  once := by
    rw [htaken, hpending, hfed, hbatch, hlost]
    exact h.once
  kept := .inr (hlost.trans (h.lost_eq_nil hraised))
  wellFormed := hfed ▸ h.wellFormed
  venue := hbatch ▸ h.venue
  flushed := fun hclosed => hbatch ▸ h.flushed (hphase hclosed)

omit [PyFloat F] in
theorem empty (handed : List MarketTick) {p : Process ε} (htaken : p.taken = [])
    (hpending : p.pending = []) (hfed : p.fed = [])
    (hbatch : p.rawBatch = .new BrandSniper.Dmarket.venue) (hlost : p.lost = []) :
    RawOnce w handed p where
  ticks := by
    rw [htaken]
    exact List.nil_suffix
  built := by
    intro pair hpair
    rw [htaken, hpending] at hpair
    cases hpair
  once := by
    rw [htaken, hpending, hfed, hbatch, hlost]
    rfl
  kept := .inr hlost
  wellFormed := by
    intro event hevent
    rw [hfed] at hevent
    cases hevent
  venue := by
    rw [hbatch]
    rfl
  flushed := by
    intro _
    rw [hbatch]
    rfl

omit [PyFloat F] in
/-- Raw listings are handed on. -/
theorem feed (h : RawOnce w handed p) (hraised : p.phase ≠ .raised) (hpending : p.pending = [])
    {phase : Phase ε}
    (hnone : ({ p with phase := phase } : Process ε).pending = [])
    {taken : Option (RawFeedEvent ε) × RawEventBatch ε} (hsplits : p.rawBatch.Splits taken)
    (hflushed : phase.ended = true ∨ phase = .closing → taken.2.events = []) :
    RawOnce w handed (p.feed phase taken) where
  ticks := h.ticks
  built := by
    show ∀ pair ∈ p.taken ++ ({ p with phase := phase } : Process ε).pending, _
    rw [hnone, ← hpending]
    exact h.built
  once := by
    show (p.fed ++ taken.1.toList).flatMap RawFeedEvent.events ++ (taken.2.events ++ p.lost)
      = (p.taken ++ ({ p with phase := phase } : Process ε).pending).map Prod.snd
    rw [List.flatMap_append, List.append_assoc, ← List.append_assoc _ taken.2.events,
      hsplits.events, hnone, ← hpending]
    exact h.once
  kept := .inr (h.lost_eq_nil hraised)
  wellFormed := by
    intro event hevent
    rcases List.mem_append.mp hevent with hevent | hevent
    · exact h.wellFormed event hevent
    · exact hsplits.wellFormed h.venue event hevent
  venue := hsplits.venue.trans h.venue
  flushed := hflushed

omit [PyFloat F] in
/-- A tick is yielded. -/
theorem record (h : RawOnce w handed p) (hraised : p.phase ≠ .raised) (hpending : p.pending = [])
    {offer : DMarketOffer}
    {tick : MarketTick} {raw : RawEvent ε} {left : List (ReadEntry ε)}
    (hbuilt : listingTick offer (w.details raw.data) raw.receivedAtMs = .ok (some tick)) :
    RawOnce w handed (p.record offer tick raw left) where
  ticks := h.ticks
  built := by
    intro pair hpair
    rcases List.mem_append.mp hpair with hpair | hpair
    · exact h.built pair (List.mem_append_left _ hpair)
    · obtain rfl := List.mem_singleton.mp hpair
      exact ⟨offer, hbuilt⟩
  once := by
    show p.fed.flatMap RawFeedEvent.events ++ ((p.rawBatch.events ++ [raw]) ++ p.lost)
      = (p.taken ++ [(tick, raw)]).map Prod.snd
    have honce := h.once
    rw [hpending, h.lost_eq_nil hraised, List.append_nil, List.append_nil] at honce
    rw [h.lost_eq_nil hraised, List.append_nil, ← List.append_assoc, honce, List.map_append]
    rfl
  kept := .inr (h.lost_eq_nil hraised)
  wellFormed := h.wellFormed
  venue := h.venue
  flushed := by
    rintro (hphase | hphase) <;> cases hphase

omit [PyFloat F] in
/-- A price raises. -/
theorem overflow (h : RawOnce w handed p) (hraised : p.phase ≠ .raised)
    (hpending : p.pending = []) : RawOnce w handed p.overflow where
  ticks := h.ticks
  built := by
    show ∀ pair ∈ p.taken ++ [], _
    rw [← hpending]
    exact h.built
  once := by
    show p.fed.flatMap RawFeedEvent.events ++ ([] ++ p.rawBatch.events)
      = (p.taken ++ []).map Prod.snd
    have honce := h.once
    rw [hpending, h.lost_eq_nil hraised, List.append_nil p.rawBatch.events] at honce
    exact honce
  kept := .inl rfl
  wellFormed := h.wellFormed
  venue := rfl
  flushed := fun _ => rfl

omit [PyFloat F] in
/-- The queue takes it. -/
theorem hand (h : RawOnce w handed p) {tick : MarketTick} {raw : RawEvent ε}
    {left : List (ReadEntry ε)} (hphase : p.phase = .yielded tick raw left) :
    RawOnce w (handed ++ [tick])
      { p with phase := .reading raw.event left, taken := p.taken ++ [(tick, raw)] } := by
  have hpending : p.pending = [(tick, raw)] := by rw [Process.pending, hphase]
  have hbuilt := h.built
  have honce := h.once
  rw [hpending] at hbuilt honce
  refine ⟨?_, ?_, ?_, .inr (h.lost_eq_nil (by simp [hphase])), h.wellFormed, h.venue, ?_⟩
  · rw [List.map_append]
    exact List.suffix_append_self_iff.mpr h.ticks
  · show ∀ pair ∈ (p.taken ++ [(tick, raw)]) ++ [], _
    rw [List.append_nil]
    exact hbuilt
  · show _ = ((p.taken ++ [(tick, raw)]) ++ []).map Prod.snd
    rw [List.append_nil]
    exact honce
  · rintro (hclosed | hclosed) <;> cases hclosed

end RawOnce

namespace Scraper

/-- The connection of the process, if there is one. -/
def Connected (w : ScraperWorld ε F) (st : Scraper ε) : Prop :=
  ∀ p, st.process = some p → RawOnce w (st.handed.map Handed.tick) p

omit [PyFloat F] in
theorem Connected.of_process {st : Scraper ε} {handed : List MarketTick} {p : Process ε}
    (hhanded : st.handed.map Handed.tick = handed) (hprocess : st.process = some p)
    (hp : RawOnce w handed p) : Connected w st := by
  intro q hq
  rw [hprocess] at hq
  obtain rfl := Option.some.inj hq
  rwa [hhanded]

theorem connected_resume {st : Scraper ε} {p : Process ε}
    (hp : RawOnce w (st.handed.map Handed.tick) p) (hphase : p.phase = .top) (redisFails : Bool)
    (backend : Option (Int × Finset String)) (nowMs : Int) :
    Connected w (st.resume w p redisFails backend nowMs) := by
  have hquiet : ∀ q : Process ε, q.taken = p.taken → q.fed = p.fed → q.rawBatch = p.rawBatch →
      q.lost = p.lost → q.phase = p.phase → RawOnce w (st.handed.map Handed.tick) q := by
    intro q htaken hfed hbatch hlost hsame
    refine hp.of_same (by simp [hphase]) htaken ?_ hfed hbatch hlost fun hclosed => hsame ▸ hclosed
    rw [Process.pending, Process.pending, hsame]
  unfold Scraper.resume
  split
  · exact .of_process rfl rfl (hquiet _ rfl rfl rfl rfl rfl)
  · split
    · exact .of_process rfl rfl hp
    · exact .of_process rfl rfl (hquiet _ rfl rfl rfl rfl rfl)

theorem connected_save {st : Scraper ε} {p : Process ε}
    (hp : RawOnce w (st.handed.map Handed.tick) p) (hraised : p.phase ≠ .raised)
    (redisFails : Bool) : Connected w (st.save F p redisFails) := by
  unfold Scraper.save
  split
  · exact .of_process rfl rfl hp
  · have hkept : RawOnce w (st.handed.map Handed.tick)
        { p with poller := p.poller.dropOldRecorded } :=
      hp.of_same hraised rfl rfl rfl rfl rfl id
    dsimp only
    split
    · exact .of_process rfl rfl hkept
    · exact .of_process rfl rfl hkept

theorem Connected.act {st st' : Scraper ε} (h : Connected w st) {p : Process ε}
    (hp : st.process = some p) {action : Action ε} (hact : st.act w p action = some st') :
    Connected w st' := by
  have honce := h p hp
  have hpending : ∀ phase : Phase ε, p.phase = phase →
      (∀ tick raw left, phase ≠ .yielded tick raw left) →
      p.pending = [] := by
    intro phase hphase hnot
    rw [Process.pending]
    split
    · rename_i tick raw left hyielded
      exact absurd (hphase.symm.trans hyielded) (hnot tick raw left)
    · rfl
  cases action with
  | listen redisFails backend nowMs =>
      rw [Scraper.act] at hact
      have hopen : RawOnce w (st.handed.map Handed.tick) p.connect := .empty _ rfl rfl rfl rfl rfl
      split at hact
      · split at hact
        · cases hact
          exact .of_process rfl rfl hopen
        · cases hact
          exact connected_resume hopen rfl redisFails backend nowMs
      · cases hact
  | refresh answer =>
      unfold Scraper.act at hact
      dsimp only at hact
      split at hact
      · rename_i hphase
        cases hact
        exact .of_process rfl rfl (honce.of_same (by simp [hphase]) rfl rfl rfl rfl rfl id)
      · cases hact
        exact h
      · cases hact
  | live visits =>
      rw [Scraper.act] at hact
      split at hact
      · rename_i hphase
        have hnone := hpending _ hphase (by simp)
        split at hact
        · cases hact
        · cases hact
          refine .of_process rfl rfl ?_
          cases livePoll w.parseOffer w.order (w.market.fetch st.hidden visits) p.poller with
          | error err poller =>
              exact honce.of_same (by simp [hphase]) rfl hnone.symm rfl rfl rfl
                (by simp [Process.called, Phase.ended])
          | ok read poller =>
              exact honce.of_same (by simp [hphase]) rfl hnone.symm rfl rfl rfl
                (by simp [Process.called, Process.mark, Phase.ended])
      · cases hact
  | catchUp visits =>
      rw [Scraper.act] at hact
      split at hact
      · rename_i hphase
        have hnone := hpending _ hphase (by simp)
        split at hact
        · cases hact
        · cases hact
          refine .of_process rfl rfl ?_
          cases catchUpPage w.parseOffer (w.market.fetch st.hidden visits) p.poller with
          | error err poller =>
              exact honce.of_same (by simp [hphase]) rfl hnone.symm rfl rfl rfl
                (by simp [Process.called, Phase.ended])
          | ok read poller =>
              exact honce.of_same (by simp [hphase]) rfl hnone.symm rfl rfl rfl
                (by simp [Process.called, Process.mark, Phase.ended])
      · cases hact
  | judge =>
      rw [Scraper.act] at hact
      split at hact
      · rename_i event item left hphase
        cases hact
        have hnone := hpending _ hphase (by simp)
        have hraised : p.phase ≠ .raised := by simp [hphase]
        unfold Scraper.judgeNext
        split
        · exact .of_process rfl rfl (honce.overflow hraised hnone)
        · rename_i verdict tick? hjudge
          dsimp only
          split
          · rename_i tick offer hoffer
            obtain ⟨-, offer', hsame, hbuilt⟩ := judge_eq_some hjudge
            rw [hoffer] at hsame
            obtain rfl := Option.some.inj hsame
            exact .of_process rfl rfl (honce.record hraised hnone hbuilt)
          · exact .of_process rfl rfl
              (honce.of_same hraised rfl hnone.symm rfl rfl rfl (by simp [Phase.ended]))
      · cases hact
  | hand =>
      rw [Scraper.act] at hact
      split at hact
      · rename_i tick raw left hphase
        cases hact
        intro q hq
        obtain rfl := Option.some.inj hq
        rw [List.map_append]
        exact honce.hand hphase
      · cases hact
  | flush nowMs =>
      rw [Scraper.act] at hact
      split at hact
      · rename_i event hphase
        cases hact
        have hnone := hpending _ hphase (by simp)
        exact .of_process rfl rfl (honce.feed (by simp [hphase]) hnone rfl
          (p.rawBatch.splits_takeIfDue nowMs) (by simp [Phase.ended]))
      · cases hact
  | save redisFails =>
      rw [Scraper.act] at hact
      split at hact
      · rename_i hphase
        cases hact
        have hnone := hpending _ hphase (by simp)
        have htop : RawOnce w (st.handed.map Handed.tick) { p with phase := .top } :=
          honce.of_same (by simp [hphase]) rfl hnone.symm rfl rfl rfl (by simp [Phase.ended])
        exact connected_save htop (by simp) redisFails
      · cases hact
  | flushPending =>
      rw [Scraper.act] at hact
      split at hact
      · rename_i hphase
        cases hact
        have hnone := hpending _ hphase (by simp)
        exact .of_process rfl rfl
          (honce.feed (by simp [hphase]) hnone rfl p.rawBatch.splits_take fun _ =>
            p.rawBatch.take_events)
      · cases hact
  | saveLast redisFails =>
      rw [Scraper.act] at hact
      split at hact
      · rename_i hphase
        cases hact
        have hnone := hpending _ hphase (by simp)
        have hclosed : RawOnce w (st.handed.map Handed.tick) { p with phase := .closed } :=
          honce.of_same (by simp [hphase]) rfl hnone.symm rfl rfl rfl fun _ => .inr hphase
        exact connected_save hclosed (by simp) redisFails
      · cases hact

theorem Connected.step {st st' : Scraper ε} {e : ScraperEvent ε} (h : Connected w st)
    (hstep : st.step w e = some st') : Connected w st' := by
  cases e with
  | arrive count =>
      cases hstep
      exact h
  | boot =>
      rw [Scraper.step] at hstep
      split at hstep
      · cases hstep
        exact .of_process rfl rfl (.empty _ rfl rfl rfl rfl rfl)
      · cases hstep
  | act action =>
      obtain ⟨p, hp, hact⟩ := Option.bind_eq_some_iff.mp hstep
      exact h.act hp hact
  | die =>
      cases hstep
      intro p hp
      cases hp
  | wipe =>
      cases hstep
      exact h

end Scraper

end BrandSniper.Dmarket
