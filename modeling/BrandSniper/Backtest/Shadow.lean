import Mathlib.Data.List.Forall2
import BrandSniper.Backtest.Harness
import BrandSniper.Kit.Deciders

/-!
# Two strategies over one stream

The harness owns routing, deduplication and the price window, so every
strategy decides on identical inputs. When the decisions of two strategies
correspond on every tick (`Shadows`), their replays switch baselines at the
same events and log corresponding decisions on every listing
(`runReplay_shadows`). A REST snapshot is logged only when it is approved, so
the logs may differ there, and in the numbers of their rows.
-/

namespace BrandSniper

open Kit

/-- The second strategy decides wherever the first does, by `V` on each tick. -/
structure Shadows {M N : Type} (strategy : Strategy M) (shadow : Strategy N) (R : M → N → Prop)
    (V : PricedTick → Decision → Decision → Prop) : Prop where
  start : R strategy.start shadow.start
  decide : ∀ m n tick store m' decision, R m n → strategy.decide m tick store = .ok (m', decision) →
    ∃ n' decision', shadow.decide n tick store = .ok (n', decision') ∧ R m' n' ∧
      V tick decision decision'
  unscored : ∀ tick reason, V tick (.unscored reason) (.unscored reason)

/-- The decisions on listings among the records. -/
def listingDecisions (records : List DecisionRecord) : List (PricedTick × Decision) :=
  (records.filter fun record => record.tick.listingId.isSome).map fun record =>
    (record.tick, record.decision)

/-- The same ticks, with corresponding decisions. -/
def SameListings (V : PricedTick → Decision → Decision → Prop) :
    List (PricedTick × Decision) → List (PricedTick × Decision) → Prop :=
  List.Forall₂ fun a b => a.1 = b.1 ∧ V a.1 a.2 b.2

/-- The same events, with the same switches and corresponding decisions on listings. -/
def SameEvent (V : PricedTick → Decision → Decision → Prop) (a b : EventLog) : Prop :=
  a.timeMs = b.timeMs ∧ a.switch = b.switch ∧
    SameListings V (listingDecisions a.decisions) (listingDecisions b.decisions)

/-- Two routes of a tick. -/
def SameRoute (V : PricedTick → Decision → Decision → Prop) (item : StreamItem)
    (a b : ReplayRoute) : Prop :=
  ∀ tick, item = .tick tick → Option.Rel (V tick) a.decision? b.decision?

section

variable {M N : Type} {S : DetectionSettings} {strategy : Strategy M} {shadow : Strategy N}
  {R : M → N → Prop} {V : PricedTick → Decision → Decision → Prop}

theorem SameRoute.refl (h : Shadows strategy shadow R V) {item : StreamItem}
    {route : ReplayRoute} (hroute : ∀ decision, route ≠ .scored decision) :
    SameRoute V item route route := by
  intro tick _
  cases route with
  | feedEvent => exact .none
  | outcome => exact .none
  | duplicate => exact .some (h.unscored tick reasonDuplicate)
  | unchanged windowed => exact .some (h.unscored tick reasonUnchangedSnapshot)
  | scored decision => exact absurd rfl (hroute decision)

/-- One item: where the first replay goes on, the second does, over the same caches. -/
theorem replayItem_shadows (h : Shadows strategy shadow R V) {m m' : M} {n : N}
    {edge edge' : ReplayEdge} {item : StreamItem} {route : ReplayRoute} (hmem : R m n)
    (hitem : strategy.replayItem S m edge item = .ok (m', edge', route)) :
    ∃ n' route', shadow.replayItem S n edge item = .ok (n', edge', route') ∧ R m' n' ∧
      SameRoute V item route route' := by
  cases item with
  | feedEvent event =>
      cases hitem
      exact ⟨n, .feedEvent, rfl, hmem, .refl h fun _ hne => by cases hne⟩
  | tick tick =>
      unfold Strategy.replayItem at hitem ⊢
      by_cases hfeeds : tick.feedsPriceWindow = true
      · simp only [hfeeds, not_true, if_false] at hitem ⊢
        by_cases hduplicate : isDuplicate tick edge.dedup = true
        · rw [if_pos hduplicate] at hitem ⊢
          cases hitem
          exact ⟨n, .duplicate, rfl, hmem, .refl h fun _ hne => by cases hne⟩
        · rw [if_neg hduplicate] at hitem ⊢
          by_cases hunchanged : isUnchangedSnapshot tick edge.dedup = true
          · rw [if_pos hunchanged] at hitem ⊢
            cases henters : unchangedSnapshotEntersPriceWindow S .none tick edge.dedup
                edge.store with
            | error e =>
                rw [henters] at hitem
                cases hitem
            | ok entersWindow =>
                rw [henters] at hitem
                cases entersWindow with
                | false =>
                    cases hitem
                    exact ⟨n, .unchanged false, rfl, hmem, .refl h fun _ hne => by cases hne⟩
                | true =>
                    simp only [bind, Except.bind, if_true] at hitem ⊢
                    cases hpush : (pushToWindow S .none tick edge.store).2 with
                    | error e =>
                        rw [hpush] at hitem
                        cases hitem
                    | ok _ =>
                        rw [hpush] at hitem
                        cases hitem
                        exact ⟨n, .unchanged true, rfl, hmem, .refl h fun _ hne => by cases hne⟩
          · rw [if_neg hunchanged] at hitem ⊢
            simp only [bind, Except.bind] at hitem ⊢
            cases hpush : (pushToWindow S .none tick edge.store).2 with
            | error e =>
                rw [hpush] at hitem
                cases hitem
            | ok _ =>
                rw [hpush] at hitem
                cases hdecide : strategy.decide m tick
                    (pushToWindow S .none tick edge.store).1 with
                | error e =>
                    simp only [hdecide] at hitem
                    cases hitem
                | ok decided =>
                    obtain ⟨last, decision⟩ := decided
                    simp only [hdecide] at hitem
                    cases hitem
                    obtain ⟨n', decision', hshadow, hmem', hverdict⟩ :=
                      h.decide m n tick _ _ decision hmem hdecide
                    refine ⟨n', .scored decision', ?_, hmem', ?_⟩
                    · simp only [hshadow]
                      rfl
                    · rintro _ ⟨⟩
                      exact .some hverdict
      · simp only [hfeeds] at hitem ⊢
        cases hitem
        exact ⟨n, .outcome, rfl, hmem, .refl h fun _ hne => by cases hne⟩
  | unpriced tick =>
      unfold Strategy.replayItem at hitem ⊢
      by_cases hfeeds : tick.feedsPriceWindow = true
      · simp only [hfeeds, not_true, if_false] at hitem
        cases hitem
      · simp only [hfeeds] at hitem ⊢
        cases hitem
        exact ⟨n, .outcome, rfl, hmem, .refl h fun _ hne => by cases hne⟩

/-- What an item adds to the logged decisions on listings: they are always logged. -/
def listingRow (isLoggedPeriod : Bool) (item : StreamItem) (route : ReplayRoute) :
    List (PricedTick × Decision) :=
  match item, route.decision? with
  | .tick tick, some decision =>
      if isLoggedPeriod && tick.listingId.isSome then [(tick, decision)] else []
  | _, _ => []

theorem listingDecisions_account (st : ReplayState) (isLoggedPeriod : Bool) (item : StreamItem)
    (edge : ReplayEdge) (route : ReplayRoute) :
    listingDecisions (st.account isLoggedPeriod item edge route).log
      = listingDecisions st.log ++ listingRow isLoggedPeriod item route := by
  unfold ReplayState.account listingRow
  cases item with
  | feedEvent event => exact (List.append_nil _).symm
  | unpriced tick => exact (List.append_nil _).symm
  | tick tick =>
      cases route.decision? with
      | none => exact (List.append_nil _).symm
      | some decision =>
          cases hlisting : tick.listingId.isSome with
          | true =>
              cases isLoggedPeriod with
              | false => exact (List.append_nil _).symm
              | true =>
                  simp [shouldLog, hlisting, listingDecisions]
          | false =>
              have hrow : ¬ (isLoggedPeriod && tick.listingId.isSome) = true := by
                rw [hlisting, Bool.and_false]
                exact Bool.false_ne_true
              simp only [if_neg hrow, List.append_nil]
              split
              · simp [listingDecisions, hlisting]
              · rfl

theorem edge_account (st : ReplayState) (isLoggedPeriod : Bool) (item : StreamItem)
    (edge : ReplayEdge) (route : ReplayRoute) :
    (st.account isLoggedPeriod item edge route).edge = edge := by
  unfold ReplayState.account
  split
  · split <;> rfl
  · rfl

theorem listingRow_same {item : StreamItem} {route route' : ReplayRoute}
    (h : SameRoute V item route route') (isLoggedPeriod : Bool) :
    SameListings V (listingRow isLoggedPeriod item route)
      (listingRow isLoggedPeriod item route') := by
  unfold listingRow
  cases item with
  | feedEvent event => exact .nil
  | unpriced tick => exact .nil
  | tick tick =>
      have hdecisions := h tick rfl
      cases hroute : route.decision? with
      | none =>
          rw [hroute] at hdecisions
          cases hroute' : route'.decision? with
          | none => exact .nil
          | some decision' =>
              rw [hroute'] at hdecisions
              cases hdecisions
      | some decision =>
          rw [hroute] at hdecisions
          cases hroute' : route'.decision? with
          | none =>
              rw [hroute'] at hdecisions
              cases hdecisions
          | some decision' =>
              rw [hroute'] at hdecisions
              obtain ⟨hverdict⟩ := hdecisions
              show SameListings V (if _ then _ else _) (if _ then _ else _)
              split
              · exact .cons ⟨rfl, hverdict⟩ .nil
              · exact .nil

/-- The states of two replays inside an event. -/
structure SameReplay (R : M → N → Prop) (V : PricedTick → Decision → Decision → Prop)
    (a : M × ReplayState) (b : N × ReplayState) : Prop where
  memory : R a.1 b.1
  edge : a.2.edge = b.2.edge
  listings : SameListings V (listingDecisions a.2.log) (listingDecisions b.2.log)

theorem replayStep_shadows (h : Shadows strategy shadow R V) (isLoggedPeriod : Bool)
    {a a' : M × ReplayState} {b : N × ReplayState} (item : StreamItem)
    (hsame : SameReplay R V a b) (hstep : strategy.replayStep S isLoggedPeriod a item = .ok a') :
    ∃ b', shadow.replayStep S isLoggedPeriod b item = .ok b' ∧ SameReplay R V a' b' := by
  unfold Strategy.replayStep at hstep ⊢
  rw [← hsame.edge]
  cases hitem : strategy.replayItem S a.1 a.2.edge item with
  | error e =>
      rw [hitem] at hstep
      cases hstep
  | ok done =>
      obtain ⟨m', edge', route⟩ := done
      rw [hitem] at hstep
      cases hstep
      obtain ⟨n', route', hshadow, hmem, hroute⟩ := replayItem_shadows h hsame.memory hitem
      rw [hshadow]
      refine ⟨_, rfl, hmem, ?_, ?_⟩
      · rw [edge_account, edge_account]
      · rw [listingDecisions_account, listingDecisions_account]
        exact List.rel_append hsame.listings (listingRow_same hroute isLoggedPeriod)

/-- The states of two replays between events. -/
structure SameScheduled (R : M → N → Prop) (a : ScheduledReplay M) (b : ScheduledReplay N) :
    Prop where
  active : a.active = b.active
  memory : R a.memory b.memory
  edge : a.edge = b.edge

theorem replayEvent_shadows (h : Shadows strategy shadow R V) {schedule : BaselineSchedule}
    {logFromMs : Option Int} {a a' : ScheduledReplay M} {b : ScheduledReplay N}
    {event : RecordedEvent} {entry : EventLog} (hsame : SameScheduled R a b)
    (hevent : strategy.replayEvent S schedule logFromMs a event = .ok (a', entry)) :
    ∃ b' entry', shadow.replayEvent S schedule logFromMs b event = .ok (b', entry') ∧
      SameScheduled R a' b' ∧ SameEvent V entry entry' := by
  unfold Strategy.replayEvent at hevent ⊢
  rw [← hsame.active, ← hsame.edge]
  generalize schedule.advance a.active a.edge.store event.timeMs = advanced at hevent ⊢
  obtain ⟨active, store, switch⟩ := advanced
  obtain ⟨⟨memory, replay⟩, hfold, hevent⟩ := bind_eq_ok hevent
  cases hevent
  have hstart : SameReplay R V
      (a.memory,
        ⟨⟨a.edge.dedup, store⟩, { a.summary with events := a.summary.events + 1 }, []⟩)
      (b.memory,
        ⟨⟨a.edge.dedup, store⟩, { b.summary with events := b.summary.events + 1 }, []⟩) :=
    ⟨hsame.memory, rfl, .nil⟩
  obtain ⟨⟨memory', replay'⟩, hshadow, hdone⟩ := foldlM_rel (SameReplay R V)
    (fun _ _ item _ hrel hstep => replayStep_shadows h _ item hrel hstep) hstart hfold
  simp only [hshadow]
  exact ⟨_, _, rfl, ⟨rfl, hdone.memory, hdone.edge⟩, rfl, rfl, hdone.listings⟩

theorem replayEvents_shadows (h : Shadows strategy shadow R V) {schedule : BaselineSchedule}
    {logFromMs : Option Int} {events : List RecordedEvent} {a a' : ScheduledReplay M}
    {b : ScheduledReplay N} {entries : List EventLog} (hsame : SameScheduled R a b)
    (hrun : strategy.replayEvents S schedule logFromMs a events = .ok (a', entries)) :
    ∃ b' entries', shadow.replayEvents S schedule logFromMs b events = .ok (b', entries') ∧
      List.Forall₂ (SameEvent V) entries entries' := by
  induction events generalizing a b entries with
  | nil =>
      cases hrun
      exact ⟨b, [], rfl, .nil⟩
  | cons event events ih =>
      obtain ⟨mid, entry, rest, hevent, hrest, rfl⟩ := Strategy.replayEvents_cons_ok hrun
      obtain ⟨mid', entry', hshadow, hmid, hentry⟩ := replayEvent_shadows h hsame hevent
      obtain ⟨last', rest', hshadows, hentries⟩ := ih hmid hrest
      refine ⟨last', entry' :: rest', ?_, .cons hentry hentries⟩
      simp only [Strategy.replayEvents, hshadow, hshadows, bind, Except.bind, pure, Except.pure]

/-- Where the first replay completes, the second does, and their logs correspond. -/
theorem runReplay_shadows (h : Shadows strategy shadow R V) {schedule : BaselineSchedule}
    {source : ReplaySource} {logFromMs : Option Int} {events : List RecordedEvent}
    {log : ReplayLog} (hrun : strategy.runReplay S schedule source logFromMs events = .ok log) :
    ∃ log', shadow.runReplay S schedule source logFromMs events = .ok log' ∧
      List.Forall₂ (SameEvent V) log.events log'.events := by
  obtain ⟨last, hevents, -⟩ := Strategy.runReplay_ok hrun
  obtain ⟨last', entries', hshadow, hentries⟩ := replayEvents_shadows h
    (b := ⟨none, shadow.start, ⟨.empty, .empty⟩, .zero⟩) ⟨rfl, h.start, rfl⟩ hevents
  unfold Strategy.runReplay
  simp only [hshadow, bind, Except.bind, pure, Except.pure]
  exact ⟨_, rfl, hentries⟩

end

end BrandSniper
