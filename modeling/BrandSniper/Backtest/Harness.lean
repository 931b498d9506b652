import Mathlib.Data.Rat.Floor
import BrandSniper.Backtest.Replay
import BrandSniper.Kit.Doubles
import BrandSniper.Kit.Results
import BrandSniper.Kit.Text

/-!
# Replays with dated baselines

`BaselineSchedule` of `apps/listener/backtest/sources.py`, and `run_replay` of
`harness.py` with a schedule: before an event the switcher loads the build in
effect, and writes a `baseline` line when it is another one than before. The
strategy is any of `STRATEGIES`.

The log is kept by event (`EventLog`); its lines are those of the header, of
the events in order, and of the summary.
-/

namespace BrandSniper

open Kit

/-! ## Schedules -/

/-- A stored baseline build. In a replay it takes effect from its build time. -/
structure ScheduledBuild where
  buildId : Int
  builtAt : String
  effectiveFromMs : Int
  deriving DecidableEq

/-- The loop of `active_index` over the builds from `index` on. -/
def activeIndexFrom (timeMs : Int) : Nat → Nat → List ScheduledBuild → Nat
  | _, active, [] => active
  | index, active, build :: builds =>
      activeIndexFrom timeMs (index + 1)
        (if build.effectiveFromMs ≤ timeMs then index else active) builds

/-- The last build in effect is the one `active_index` had, or one it came past. -/
theorem activeIndexFrom_cases (timeMs : Int) (builds : List ScheduledBuild) (index active : Nat) :
    (activeIndexFrom timeMs index active builds = active ∧
        ∀ build ∈ builds, timeMs < build.effectiveFromMs) ∨
      ∃ i build, builds[i]? = some build ∧ build.effectiveFromMs ≤ timeMs ∧
        activeIndexFrom timeMs index active builds = index + i := by
  induction builds generalizing index active with
  | nil => exact .inl ⟨rfl, by simp⟩
  | cons build builds ih =>
      rw [activeIndexFrom]
      rcases ih (index + 1) (if build.effectiveFromMs ≤ timeMs then index else active) with
        ⟨hsame, hlater⟩ | ⟨i, found, hget, heffective, hindex⟩
      · rw [hsame]
        split
        · rename_i heffective
          exact .inr ⟨0, build, rfl, heffective, rfl⟩
        · rename_i hnot
          refine .inl ⟨rfl, ?_⟩
          rintro other (_ | ⟨_, hmem⟩)
          · exact not_le.mp hnot
          · exact hlater other hmem
      · refine .inr ⟨i + 1, found, hget, heffective, ?_⟩
        rw [hindex]
        omega

theorem le_activeIndexFrom {timeMs : Int} {builds : List ScheduledBuild} {i : Nat}
    {build : ScheduledBuild} (hget : builds[i]? = some build)
    (heffective : build.effectiveFromMs ≤ timeMs) (index active : Nat) :
    index + i ≤ activeIndexFrom timeMs index active builds := by
  induction builds generalizing i index active with
  | nil => cases hget
  | cons first builds ih =>
      rw [activeIndexFrom]
      cases i with
      | zero =>
          cases hget
          rw [if_pos heffective]
          rcases activeIndexFrom_cases timeMs builds (index + 1) index with ⟨h, _⟩ | ⟨_, _, _, _, h⟩
          · omega
          · omega
      | succ i =>
          have hrest := ih hget (index + 1)
            (if first.effectiveFromMs ≤ timeMs then index else active)
          omega

/-- Dated baseline builds, oldest first; a replay refuses an empty schedule. -/
structure BaselineSchedule where
  builds : List ScheduledBuild
  load : Int → BaselineSnapshot
  nonempty : builds ≠ []
  oldestFirst : builds.Pairwise fun a b => a.effectiveFromMs ≤ b.effectiveFromMs

namespace BaselineSchedule

variable (schedule : BaselineSchedule)

/-- Index of the build in effect (the first build before any has been built). -/
def activeIndex (timeMs : Int) : Nat := activeIndexFrom timeMs 0 0 schedule.builds

theorem activeIndex_lt (timeMs : Int) : schedule.activeIndex timeMs < schedule.builds.length := by
  rcases activeIndexFrom_cases timeMs schedule.builds 0 0 with ⟨h, _⟩ | ⟨i, build, hget, _, h⟩
  · rw [activeIndex, h]
    exact List.length_pos_of_ne_nil schedule.nonempty
  · rw [activeIndex, h, Nat.zero_add]
    exact (List.getElem?_eq_some_iff.mp hget).1

/-- `self._schedule.builds[index]` -/
def activeBuild (timeMs : Int) : ScheduledBuild :=
  schedule.builds.get ⟨schedule.activeIndex timeMs, schedule.activeIndex_lt timeMs⟩

/-- The first build of the schedule. -/
def firstBuild : ScheduledBuild := schedule.builds.head schedule.nonempty

/-- The build in effect became effective after the time. -/
def looksAhead (timeMs : Int) : Bool :=
  decide (timeMs < (schedule.activeBuild timeMs).effectiveFromMs)

theorem getElem?_activeBuild (timeMs : Int) :
    schedule.builds[schedule.activeIndex timeMs]? = some (schedule.activeBuild timeMs) :=
  List.getElem?_eq_getElem (schedule.activeIndex_lt timeMs)

theorem getElem?_firstBuild : schedule.builds[0]? = some schedule.firstBuild := by
  rw [← List.head?_eq_getElem?]
  exact List.head?_eq_some_head schedule.nonempty

theorem firstBuild_le {build : ScheduledBuild} (h : build ∈ schedule.builds) :
    schedule.firstBuild.effectiveFromMs ≤ build.effectiveFromMs := by
  have hsorted := schedule.oldestFirst
  rw [← List.cons_head_tail schedule.nonempty] at hsorted h
  rcases List.mem_cons.mp h with rfl | hmem
  · exact le_refl _
  · exact (List.pairwise_cons.mp hsorted).1 build hmem

/-- Once the first build is effective, the build in effect is. -/
theorem activeBuild_effective {timeMs : Int}
    (h : schedule.firstBuild.effectiveFromMs ≤ timeMs) :
    (schedule.activeBuild timeMs).effectiveFromMs ≤ timeMs := by
  have hget := schedule.getElem?_activeBuild timeMs
  rcases activeIndexFrom_cases timeMs schedule.builds 0 0 with ⟨_, hlater⟩ | ⟨i, build, hi, hle, heq⟩
  · have hfirst := hlater _ (List.mem_of_getElem? schedule.getElem?_firstBuild)
    omega
  · rw [activeIndex, heq, Nat.zero_add, hi] at hget
    cases hget
    exact hle

/-- Looking ahead is being before the first build. -/
theorem looksAhead_iff (timeMs : Int) :
    schedule.looksAhead timeMs = true ↔ timeMs < schedule.firstBuild.effectiveFromMs := by
  rw [looksAhead, decide_eq_true_iff]
  constructor
  · intro h
    by_contra hnot
    have heffective := schedule.activeBuild_effective (not_lt.mp hnot)
    omega
  · intro h
    have hfirst := schedule.firstBuild_le
      (List.mem_of_getElem? (schedule.getElem?_activeBuild timeMs))
    omega

theorem effective_of_activeIndex_ne {timeMs : Int} (h : schedule.activeIndex timeMs ≠ 0) :
    schedule.firstBuild.effectiveFromMs ≤ timeMs := by
  rcases activeIndexFrom_cases timeMs schedule.builds 0 0 with ⟨hzero, _⟩ | ⟨i, build, hi, hle, _⟩
  · exact absurd hzero h
  · exact le_trans (schedule.firstBuild_le (List.mem_of_getElem? hi)) hle

/-- Time never takes the switcher back to an older build. -/
theorem activeIndex_mono {a b : Int} (h : a ≤ b) :
    schedule.activeIndex a ≤ schedule.activeIndex b := by
  rcases activeIndexFrom_cases a schedule.builds 0 0 with ⟨hzero, _⟩ | ⟨i, build, hi, hle, heq⟩
  · rw [activeIndex, hzero]
    exact Nat.zero_le _
  · rw [activeIndex, heq]
    exact le_activeIndexFrom hi (le_trans hle h) 0 0

end BaselineSchedule

/-! ## Strategies -/

/-- `STRATEGIES` -/
inductive StrategyName where
  | zscoreDre
  | zscoreDreSweep
  | zscoreDreFeatures
  deriving DecidableEq, Repr

/-- The parameters of a strategy that the log's readers look at. -/
structure StrategyConfig where
  zScoreThreshold : ℚ
  zScoreStickerThreshold : ℚ
  minSavingsCents : Int
  deriving DecidableEq

/-- A strategy that keeps an `M` between its decisions. -/
structure Strategy (M : Type) where
  name : StrategyName
  config : StrategyConfig
  start : M
  decide : M → PricedTick → InMemoryEdgeStore → Except PyError (M × Decision)

/-- `ZScoreDreStrategy` and, with `records_sweep_inputs`, `ZScoreDreSweepStrategy`. -/
def ZScoreDreStrategy.strategy (F : FloatArith) (S : DetectionSettings)
    (recordsSweepInputs : Bool) : Strategy Unit where
  name := if recordsSweepInputs then .zscoreDreSweep else .zscoreDre
  config := ⟨S.zscore.zScoreThreshold, S.zscore.zScoreStickerThreshold, S.zscore.minSavingsCents⟩
  start := ()
  decide _ tick store := do
    let windowScore ← scoreWindow F S .none tick store
    let decision ← ZScoreDreStrategy.decideScored F S recordsSweepInputs tick store windowScore
    return ((), decision)

/-! ## The lines of the log -/

/-- `FLOAT_DIGITS` -/
def floatDigits : Nat := 6

/-- `round(value, FLOAT_DIGITS)` of a float -/
def roundFloat (F : FloatArith) (value : ℚ) : ℚ :=
  F.round (roundHalfEven (value * 10 ^ floatDigits) / 10 ^ floatDigits)

/-- Where a replay's events come from: the `source` of its header. The range of a database
replay is in microseconds since the epoch. -/
structure DatabaseSource where
  venue : String
  start : Int
  stop : Int
  venueName : isVenueName venue = true

/-- Epoch milliseconds of a time in microseconds. -/
def epochMs (micros : Int) : Int := micros / 1000

inductive ReplaySource where
  | fixture (name : String)
  | database (source : DatabaseSource)

/-- The `run` line. -/
structure RunHeader where
  strategy : StrategyName
  config : StrategyConfig
  source : ReplaySource
  baselineBuilds : List Int
  logFromMs : Option Int

/-- A `baseline` line. -/
structure BaselineSwitch where
  buildId : Int
  builtAt : String
  fromMs : Int
  lookAhead : Bool
  deriving DecidableEq

/-- A `decision` line. -/
structure DecisionLine where
  sequence : Nat
  timestamp : Int
  venue : String
  listingId : Option String
  eventType : Option String
  marketHashName : String
  priceCents : Int
  approve : Bool
  reason : String
  score : Option Double
  features : DecisionFeatures
  deriving DecidableEq

inductive LogRecord where
  | run (header : RunHeader)
  | baseline (switch : BaselineSwitch)
  | decision (line : DecisionLine)
  | summary (summary : ReplaySummary)

/-- `_round_floats` of a header -/
def RunHeader.roundFloats (F : FloatArith) (header : RunHeader) : RunHeader :=
  { header with
    config :=
      { header.config with
        zScoreThreshold := roundFloat F header.config.zScoreThreshold
        zScoreStickerThreshold := roundFloat F header.config.zScoreStickerThreshold } }

/-- `decision_record`, its floats rounded -/
def DecisionRecord.line (F : FloatArith) (record : DecisionRecord) : DecisionLine where
  sequence := record.sequence
  timestamp := record.tick.timestamp
  venue := record.tick.venue
  listingId := record.tick.listingId
  eventType := record.tick.eventType
  marketHashName := record.tick.marketHashName
  priceCents := record.tick.priceCents
  approve := record.decision.approve
  reason := record.decision.reason
  -- what is not finite rounds to itself
  score := record.decision.score.map fun score => score.map (roundFloat F)
  features := { record.decision.features with
    meanCents := record.decision.features.meanCents.map (roundFloat F) }

/-! ## The loop -/

section

variable {M : Type} (S : DetectionSettings) (strategy : Strategy M)

/-- One item of the loop. -/
def Strategy.replayItem (memory : M) (edge : ReplayEdge) (item : StreamItem) :
    Except PyError (M × ReplayEdge × ReplayRoute) :=
  match item with
  | .feedEvent _ => .ok (memory, edge, .feedEvent)
  | .tick tick =>
      if ¬ tick.feedsPriceWindow then .ok (memory, edge, .outcome)
      else if isDuplicate tick edge.dedup then .ok (memory, edge, .duplicate)
      else if isUnchangedSnapshot tick edge.dedup then do
        let entersWindow ← unchangedSnapshotEntersPriceWindow S .none tick edge.dedup edge.store
        let dedup := updateDedupCache S tick edge.dedup entersWindow
        if entersWindow then
          let (store, pushed) := pushToWindow S .none tick edge.store
          pushed
          return (memory, ⟨dedup, store⟩, .unchanged true)
        return (memory, ⟨dedup, edge.store⟩, .unchanged false)
      else do
        let dedup := updateDedupCache S tick edge.dedup true
        let (store, pushed) := pushToWindow S .none tick edge.store
        pushed
        let (memory, decision) ← strategy.decide memory tick store
        return (memory, ⟨dedup, store⟩, .scored decision)
  | .unpriced tick =>
      if ¬ tick.feedsPriceWindow then .ok (memory, edge, .outcome) else .error .overflowError

def Strategy.replayStep (isLoggedPeriod : Bool) (st : M × ReplayState) (item : StreamItem) :
    Except PyError (M × ReplayState) := do
  let (memory, edge, route) ← strategy.replayItem S st.1 st.2.edge item
  return (memory, st.2.account isLoggedPeriod item edge route)

/-- With the live rules it is the loop over a fixed set of baselines. -/
theorem ZScoreDreStrategy.replayItem_eq (F : FloatArith) (edge : ReplayEdge) (item : StreamItem) :
    (ZScoreDreStrategy.strategy F S false).replayItem S () edge item
      = (replayItem F S edge item).map fun (edge, route) => ((), edge, route) := by
  cases item with
  | feedEvent event => rfl
  | tick tick =>
      unfold Strategy.replayItem replayItem
      simp only [ZScoreDreStrategy.strategy, ZScoreDreStrategy.decide]
      split
      · rfl
      · split
        · rfl
        · split
          · cases unchangedSnapshotEntersPriceWindow S .none tick edge.dedup edge.store with
            | error e => rfl
            | ok entersWindow =>
                cases entersWindow with
                | false => rfl
                | true =>
                    cases (pushToWindow S .none tick edge.store).2 with
                    | error e => rfl
                    | ok _ => rfl
          · cases (pushToWindow S .none tick edge.store).2 with
            | error e => rfl
            | ok _ =>
                cases scoreWindow F S .none tick (pushToWindow S .none tick edge.store).1 with
                | error e => rfl
                | ok score =>
                    cases hdecide : ZScoreDreStrategy.decideScored F S false tick
                        (pushToWindow S .none tick edge.store).1 score with
                    | error e => simp [bind, Except.bind, Except.map, hdecide]
                    | ok decision =>
                        simp [bind, Except.bind, Except.map, hdecide, pure, Except.pure]
  | unpriced tick =>
      cases hfeeds : tick.feedsPriceWindow <;>
        simp [Strategy.replayItem, replayItem, hfeeds, Except.map]

/-- `_BaselineSwitcher.advance`: the active build, the store, and the line it writes. -/
def BaselineSchedule.advance (schedule : BaselineSchedule) (active : Option Nat)
    (store : InMemoryEdgeStore) (timeMs : Int) :
    Option Nat × InMemoryEdgeStore × Option BaselineSwitch :=
  let index := schedule.activeIndex timeMs
  if some index = active then (active, store, none)
  else
    let build := schedule.activeBuild timeMs
    let snapshot := schedule.load build.buildId
    (some index,
      store.loadBaselines snapshot.baselines snapshot.stickerPrices skinportFees.venue,
      some { buildId := build.buildId
             builtAt := build.builtAt
             fromMs := timeMs
             lookAhead := decide (build.effectiveFromMs > timeMs) })

/-- What the loop keeps between events. -/
structure ScheduledReplay (M : Type) where
  active : Option Nat
  memory : M
  edge : ReplayEdge
  summary : ReplaySummary

/-- What one event logs: the switch before it, then its decisions. -/
structure EventLog where
  timeMs : Int
  switch : Option BaselineSwitch
  decisions : List DecisionRecord

/-- Its lines. -/
def EventLog.records (F : FloatArith) (entry : EventLog) : List LogRecord :=
  (entry.switch.map .baseline).toList
    ++ entry.decisions.map fun record => .decision (record.line F)

def Strategy.replayEvent (schedule : BaselineSchedule) (logFromMs : Option Int)
    (st : ScheduledReplay M) (event : RecordedEvent) :
    Except PyError (ScheduledReplay M × EventLog) := do
  let (active, store, switch) := schedule.advance st.active st.edge.store event.timeMs
  let (memory, replay) ← event.items.foldlM
    (strategy.replayStep S (isLoggedPeriod logFromMs event))
    (st.memory, ⟨⟨st.edge.dedup, store⟩, { st.summary with events := st.summary.events + 1 }, []⟩)
  return (⟨active, memory, replay.edge, replay.summary⟩,
    ⟨event.timeMs, switch, replay.log⟩)

/-- The events in replay order, and what each writes. -/
def Strategy.replayEvents (schedule : BaselineSchedule) (logFromMs : Option Int) :
    ScheduledReplay M → List RecordedEvent → Except PyError (ScheduledReplay M × List EventLog)
  | st, [] => .ok (st, [])
  | st, event :: events => do
      let (st, entry) ← strategy.replayEvent S schedule logFromMs st event
      let (st, entries) ← Strategy.replayEvents schedule logFromMs st events
      return (st, entry :: entries)

/-- A decision log. -/
structure ReplayLog where
  header : RunHeader
  events : List EventLog
  summary : ReplaySummary

/-- Its lines, in order, floats rounded (`_log_line`). -/
def ReplayLog.records (F : FloatArith) (log : ReplayLog) : List LogRecord :=
  .run (log.header.roundFloats F) :: log.events.flatMap (EventLog.records F)
    ++ [.summary log.summary]

/-- `run_replay` with a schedule. -/
def Strategy.runReplay (schedule : BaselineSchedule) (source : ReplaySource)
    (logFromMs : Option Int) (events : List RecordedEvent) : Except PyError ReplayLog := do
  let (st, entries) ← strategy.replayEvents S schedule logFromMs
    ⟨none, strategy.start, ⟨.empty, .empty⟩, .zero⟩ events
  return {
    header :=
      { strategy := strategy.name
        config := strategy.config
        source := source
        baselineBuilds := schedule.builds.map ScheduledBuild.buildId
        logFromMs := logFromMs }
    events := entries
    summary := st.summary }

end

section
variable {M : Type} {S : DetectionSettings} {strategy : Strategy M}
  {schedule : BaselineSchedule} {logFromMs : Option Int}

theorem Strategy.replayEvents_cons_ok {st st' : ScheduledReplay M} {event : RecordedEvent}
    {events : List RecordedEvent} {entries : List EventLog}
    (h : strategy.replayEvents S schedule logFromMs st (event :: events) = .ok (st', entries)) :
    ∃ mid entry rest, strategy.replayEvent S schedule logFromMs st event = .ok (mid, entry) ∧
      strategy.replayEvents S schedule logFromMs mid events = .ok (st', rest) ∧
      entries = entry :: rest := by
  rw [Strategy.replayEvents] at h
  obtain ⟨⟨mid, entry⟩, hevent, h⟩ := bind_eq_ok h
  obtain ⟨⟨last, rest⟩, hrest, h⟩ := bind_eq_ok h
  cases h
  exact ⟨mid, entry, rest, hevent, hrest, rfl⟩

theorem Strategy.runReplay_ok {source : ReplaySource} {events : List RecordedEvent}
    {log : ReplayLog} (h : strategy.runReplay S schedule source logFromMs events = .ok log) :
    ∃ st, strategy.replayEvents S schedule logFromMs
        ⟨none, strategy.start, ⟨.empty, .empty⟩, .zero⟩ events = .ok (st, log.events) ∧
      log.header.strategy = strategy.name ∧ log.header.config = strategy.config ∧
      log.header.source = source := by
  obtain ⟨⟨st, entries⟩, hrun, h⟩ := bind_eq_ok h
  cases h
  exact ⟨st, hrun, rfl, rfl, rfl⟩

end

end BrandSniper
