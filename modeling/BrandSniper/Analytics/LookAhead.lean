import BrandSniper.Analytics.DecisionLog

/-!
# Look-ahead marks

The harness writes a `baseline` line only when another build than before
comes into effect, with a flag that says whether that build is still to be
built, and `read_decision_log` carries the flag forward. The flag is right at
the switch. It goes stale when the replay starts before the first build: that
build comes into effect without a switch, so what is decided under it up to
the second build stays marked (`markedDecisions_eq`, `lookAheadRanges_eq`).
-/

namespace BrandSniper

open Kit

/-! ## The switches of a run -/

/-- The line the switcher writes at a time. -/
def BaselineSchedule.switchAt (schedule : BaselineSchedule) (timeMs : Int) : BaselineSwitch where
  buildId := (schedule.activeBuild timeMs).buildId
  builtAt := (schedule.activeBuild timeMs).builtAt
  fromMs := timeMs
  lookAhead := schedule.looksAhead timeMs

/-- From this active build on, every event switches exactly when its build is another one. -/
def Switched (schedule : BaselineSchedule) : Option Nat → List EventLog → Prop
  | _, [] => True
  | active, entry :: entries =>
      entry.switch = (if some (schedule.activeIndex entry.timeMs) = active then none
        else some (schedule.switchAt entry.timeMs)) ∧
      Switched schedule (some (schedule.activeIndex entry.timeMs)) entries

theorem advance_switch (schedule : BaselineSchedule) (active : Option Nat)
    (store : InMemoryEdgeStore) (timeMs : Int) :
    (schedule.advance active store timeMs).1 = some (schedule.activeIndex timeMs) ∧
      (schedule.advance active store timeMs).2.2
        = (if some (schedule.activeIndex timeMs) = active then none
          else some (schedule.switchAt timeMs)) := by
  unfold BaselineSchedule.advance
  by_cases hsame : some (schedule.activeIndex timeMs) = active
  · simp only [if_pos hsame]
    exact ⟨hsame.symm, trivial⟩
  · simp only [if_neg hsame]
    exact ⟨trivial, rfl⟩

section

variable {M : Type} {S : DetectionSettings} {strategy : Strategy M}
  {schedule : BaselineSchedule} {logFromMs : Option Int}

theorem replayEvent_switch {st st' : ScheduledReplay M} {event : RecordedEvent} {entry : EventLog}
    (h : strategy.replayEvent S schedule logFromMs st event = .ok (st', entry)) :
    entry.timeMs = event.timeMs ∧
      st'.active = some (schedule.activeIndex event.timeMs) ∧
      entry.switch = (if some (schedule.activeIndex event.timeMs) = st.active then none
        else some (schedule.switchAt event.timeMs)) := by
  obtain ⟨hactive, hswitch⟩ := advance_switch schedule st.active st.edge.store event.timeMs
  unfold Strategy.replayEvent at h
  generalize schedule.advance st.active st.edge.store event.timeMs = advanced at h hactive hswitch
  obtain ⟨active, store, switch⟩ := advanced
  obtain ⟨⟨memory, replay⟩, -, h⟩ := bind_eq_ok h
  cases h
  exact ⟨rfl, hactive, hswitch⟩

theorem replayEvents_switched {st st' : ScheduledReplay M} {events : List RecordedEvent}
    {entries : List EventLog}
    (h : strategy.replayEvents S schedule logFromMs st events = .ok (st', entries)) :
    entries.map EventLog.timeMs = events.map RecordedEvent.timeMs ∧
      Switched schedule st.active entries := by
  induction events generalizing st entries with
  | nil =>
      cases h
      exact ⟨rfl, trivial⟩
  | cons event events ih =>
      obtain ⟨mid, entry, rest, hevent, hrest, rfl⟩ := Strategy.replayEvents_cons_ok h
      obtain ⟨htime, hactive, hswitch⟩ := replayEvent_switch hevent
      obtain ⟨htimes, hswitched⟩ := ih hrest
      refine ⟨by rw [List.map_cons, List.map_cons, htime, htimes], ?_, ?_⟩
      · rw [htime]
        exact hswitch
      · rw [htime, ← hactive]
        exact hswitched

/-- The log of a replay: its source, its times, and its switches. -/
theorem runReplay_switched {source : ReplaySource} {events : List RecordedEvent} {log : ReplayLog}
    (h : strategy.runReplay S schedule source logFromMs events = .ok log) :
    log.header.source = source ∧
      log.events.map EventLog.timeMs = events.map RecordedEvent.timeMs ∧
      Switched schedule none log.events := by
  obtain ⟨st, hrun, -, -, hsource⟩ := Strategy.runReplay_ok h
  obtain ⟨htimes, hswitched⟩ := replayEvents_switched hrun
  exact ⟨hsource, htimes, hswitched⟩

end

/-! ## What the reader makes of them -/

section

variable (schedule : BaselineSchedule)

/-- The mark that is carried forward: set at a first event before the first build, and there
until another build than the first is in effect. -/
def BaselineSchedule.carriedMark (firstMs timeMs : Int) : Bool :=
  schedule.looksAhead firstMs && schedule.activeIndex timeMs == 0

/-- A switch after the first event finds its build in effect. -/
theorem looksAhead_of_activeIndex_ne {timeMs : Int} (h : schedule.activeIndex timeMs ≠ 0) :
    schedule.looksAhead timeMs = false := by
  rw [← Bool.not_eq_true, schedule.looksAhead_iff, not_lt]
  exact schedule.effective_of_activeIndex_ne h

/-- The mark after an event, from the mark at an earlier time. -/
theorem mark_of_switched {firstMs before : Int} {entry : EventLog} (hle : before ≤ entry.timeMs)
    (hswitch : entry.switch
      = (if some (schedule.activeIndex entry.timeMs) = some (schedule.activeIndex before) then none
        else some (schedule.switchAt entry.timeMs))) :
    entry.mark (some (schedule.activeBuild before).buildId, schedule.carriedMark firstMs before)
      = (some (schedule.activeBuild entry.timeMs).buildId,
        schedule.carriedMark firstMs entry.timeMs) := by
  by_cases hsame : schedule.activeIndex entry.timeMs = schedule.activeIndex before
  · have hbuild : schedule.activeBuild entry.timeMs = schedule.activeBuild before := by
      have hget := schedule.getElem?_activeBuild entry.timeMs
      rw [hsame, schedule.getElem?_activeBuild before] at hget
      exact (Option.some.inj hget).symm
    rw [hsame, if_pos rfl] at hswitch
    rw [EventLog.mark, hswitch, hbuild, BaselineSchedule.carriedMark,
      BaselineSchedule.carriedMark, hsame]
  · rw [if_neg (fun h => hsame (Option.some.inj h))] at hswitch
    have hmono := schedule.activeIndex_mono hle
    have hne : schedule.activeIndex entry.timeMs ≠ 0 := by omega
    rw [EventLog.mark, hswitch]
    have hcarried : schedule.carriedMark firstMs entry.timeMs = false := by
      rw [BaselineSchedule.carriedMark, beq_eq_false_iff_ne.mpr hne, Bool.and_false]
    show (some _, schedule.looksAhead entry.timeMs) = _
    rw [looksAhead_of_activeIndex_ne schedule hne, hcarried]
    rfl

/-- At the first event the mark is the one of its build. -/
theorem mark_of_first {entry : EventLog}
    (hswitch : entry.switch = some (schedule.switchAt entry.timeMs)) (mark : Option Int × Bool) :
    entry.mark mark = (some (schedule.activeBuild entry.timeMs).buildId,
      schedule.carriedMark entry.timeMs entry.timeMs) := by
  have hcarried : schedule.carriedMark entry.timeMs entry.timeMs
      = schedule.looksAhead entry.timeMs := by
    by_cases hzero : schedule.activeIndex entry.timeMs = 0
    · rw [BaselineSchedule.carriedMark, hzero, beq_self_eq_true, Bool.and_true]
    · rw [BaselineSchedule.carriedMark, looksAhead_of_activeIndex_ne schedule hzero,
        Bool.false_and]
  rw [EventLog.mark, hswitch, hcarried]
  rfl

/-- The decisions of the events, read with the mark a function of the time gives. -/
def decisionsRead (F : FloatArith) (mark : Int → Bool) (entries : List EventLog) :
    List ReadDecision :=
  entries.flatMap fun entry => entry.decisions.map fun record =>
    (record.line F).read (some (schedule.activeBuild entry.timeMs).buildId) (mark entry.timeMs)

theorem markedDecisions_of_switched (F : FloatArith) {firstMs before : Int} {entries : List EventLog}
    (hsorted : (before :: entries.map EventLog.timeMs).Pairwise (· ≤ ·))
    (hswitched : Switched schedule (some (schedule.activeIndex before)) entries) :
    markedDecisions F
        (some (schedule.activeBuild before).buildId, schedule.carriedMark firstMs before) entries
      = decisionsRead schedule F (schedule.carriedMark firstMs) entries := by
  induction entries generalizing before with
  | nil => rfl
  | cons entry entries ih =>
      obtain ⟨hswitch, hrest⟩ := hswitched
      obtain ⟨hbefore, hsorted⟩ := List.pairwise_cons.mp hsorted
      have hle : before ≤ entry.timeMs := hbefore _ List.mem_cons_self
      rw [markedDecisions_cons, mark_of_switched schedule hle hswitch, ih hsorted hrest]
      rfl

/-- What the reader has read: every decision with its build, and with the carried mark. -/
theorem markedDecisions_eq (F : FloatArith) {entry : EventLog} {entries : List EventLog}
    (hsorted : ((entry :: entries).map EventLog.timeMs).Pairwise (· ≤ ·))
    (hswitched : Switched schedule none (entry :: entries)) :
    markedDecisions F (none, false) (entry :: entries)
      = decisionsRead schedule F (schedule.carriedMark entry.timeMs) (entry :: entries) := by
  obtain ⟨hswitch, hrest⟩ := hswitched
  rw [if_neg (fun h => nomatch h)] at hswitch
  rw [markedDecisions_cons, mark_of_first schedule hswitch,
    markedDecisions_of_switched schedule F hsorted hrest]
  rfl

/-! ## The ranges -/

/-- The time of the first event at which another build than the first is in effect. -/
def BaselineSchedule.secondBuildMs (times : List Int) : Option Int :=
  times.find? fun timeMs => schedule.activeIndex timeMs ≠ 0

/-- After the first event no switch looks ahead, and the next one is at the first event with
another build. -/
theorem loggedSwitches_of_switched {before : Int} {entries : List EventLog}
    (hsorted : (before :: entries.map EventLog.timeMs).Pairwise (· ≤ ·))
    (hswitched : Switched schedule (some (schedule.activeIndex before)) entries) :
    (∀ switch ∈ loggedSwitches entries, switch.2 = false) ∧
      (schedule.activeIndex before = 0 → (loggedSwitches entries).head?.map Prod.fst
        = schedule.secondBuildMs (entries.map EventLog.timeMs)) := by
  induction entries generalizing before with
  | nil => exact ⟨by simp [loggedSwitches], fun _ => rfl⟩
  | cons entry entries ih =>
      obtain ⟨hswitch, hrest⟩ := hswitched
      obtain ⟨hbefore, hsorted⟩ := List.pairwise_cons.mp hsorted
      have hmono := schedule.activeIndex_mono (hbefore entry.timeMs List.mem_cons_self)
      obtain ⟨hmarks, hnext⟩ := ih hsorted hrest
      by_cases hsame : schedule.activeIndex entry.timeMs = schedule.activeIndex before
      · rw [hsame, if_pos rfl] at hswitch
        have hswitches : loggedSwitches (entry :: entries) = loggedSwitches entries := by
          rw [loggedSwitches, List.filterMap_cons_none]
          · rfl
          · rw [hswitch]
            rfl
        refine ⟨by rw [hswitches]; exact hmarks, fun hzero => ?_⟩
        rw [hswitches, hnext (hsame.trans hzero), BaselineSchedule.secondBuildMs,
          BaselineSchedule.secondBuildMs, List.map_cons, List.find?_cons_of_neg]
        simp [hsame, hzero]
      · rw [if_neg (fun h => hsame (Option.some.inj h))] at hswitch
        have hne : schedule.activeIndex entry.timeMs ≠ 0 := by omega
        have hswitches : loggedSwitches (entry :: entries)
            = (entry.timeMs, false) :: loggedSwitches entries := by
          rw [loggedSwitches, List.filterMap_cons_some]
          · rfl
          · rw [hswitch, ← looksAhead_of_activeIndex_ne schedule hne]
            rfl
        rw [hswitches]
        refine ⟨?_, fun _ => ?_⟩
        · rintro switch (_ | ⟨_, hmem⟩)
          · rfl
          · exact hmarks switch hmem
        · rw [BaselineSchedule.secondBuildMs, List.map_cons, List.find?_cons_of_pos]
          · rfl
          · simpa using hne

theorem lookAheadRanges_of_false {endMs : Int} {switches : List (Int × Bool)}
    (h : ∀ switch ∈ switches, switch.2 = false) : lookAheadRanges endMs switches = [] := by
  induction switches with
  | nil => rfl
  | cons switch switches ih =>
      obtain ⟨fromMs, isLookAhead⟩ := switch
      have hfalse : isLookAhead = false := h _ List.mem_cons_self
      rw [lookAheadRanges, hfalse, ih fun other hmem => h other (List.mem_cons_of_mem _ hmem)]
      rfl

/-- The one range: from the first event, when it is before the first build, up to the first
event with another build. -/
theorem lookAheadRanges_eq {endMs : Int} {entry : EventLog} {entries : List EventLog}
    (hsorted : ((entry :: entries).map EventLog.timeMs).Pairwise (· ≤ ·))
    (hswitched : Switched schedule none (entry :: entries)) :
    lookAheadRanges endMs (loggedSwitches (entry :: entries))
      = if entry.timeMs < schedule.firstBuild.effectiveFromMs then
          [(entry.timeMs,
            (schedule.secondBuildMs ((entry :: entries).map EventLog.timeMs)).getD endMs)]
        else [] := by
  obtain ⟨hswitch, hrest⟩ := hswitched
  rw [if_neg (fun h => nomatch h)] at hswitch
  obtain ⟨hmarks, hnext⟩ := loggedSwitches_of_switched schedule hsorted hrest
  have hswitches : loggedSwitches (entry :: entries)
      = (entry.timeMs, schedule.looksAhead entry.timeMs) :: loggedSwitches entries := by
    rw [loggedSwitches, List.filterMap_cons_some]
    · rfl
    · rw [hswitch]
      rfl
  rw [hswitches, lookAheadRanges, lookAheadRanges_of_false hmarks, List.append_nil]
  by_cases hbefore : entry.timeMs < schedule.firstBuild.effectiveFromMs
  · have hzero : schedule.activeIndex entry.timeMs = 0 := by
      by_contra hne
      have heffective := schedule.effective_of_activeIndex_ne hne
      omega
    rw [if_pos ((schedule.looksAhead_iff _).mpr hbefore), if_pos hbefore, hnext hzero,
      BaselineSchedule.secondBuildMs, BaselineSchedule.secondBuildMs, List.map_cons,
      List.find?_cons_of_neg]
    simp [hzero]
  · rw [if_neg (fun h => hbefore ((schedule.looksAhead_iff _).mp h)), if_neg hbefore]

end

/-! ## Exact marks -/

/-- The reader marks what it should: a decision is read with the build in effect at its event,
marked when that build was still to be built; the ranges hold the replayed times before the
first build; and a decision after it is scored. -/
structure MarksLookAhead (F : FloatArith) (schedule : BaselineSchedule) (log : ReplayLog)
    (read : DecisionLog) : Prop where
  decisions : read.decisions = decisionsRead schedule F schedule.looksAhead log.events
  ranges : ∀ timeMs, epochMs read.source.start ≤ timeMs → timeMs < epochMs read.source.stop →
    ((∃ range ∈ read.lookAheadRanges, range.1 ≤ timeMs ∧ timeMs < range.2) ↔
      timeMs < schedule.firstBuild.effectiveFromMs)
  kept : ∀ entry ∈ log.events, schedule.firstBuild.effectiveFromMs ≤ entry.timeMs →
    ∀ record ∈ entry.decisions, ∃ decision ∈ read.decisions,
      decision.row = (record.line F).row ∧ decision.lookAhead = false ∧
      ∀ start, decision.isScorable start = start.le decision.decidedAt

/-- The one range of a log agrees with the first build on `startMs .. stopMs`. A first event
before the first build must not come after the start, and the second build must be met as soon
as the first one is effective; without such an event the range starts after the first build. -/
def RangeMarkable (schedule : BaselineSchedule) (times : List Int) (startMs stopMs : Int) : Prop :=
  startMs < stopMs →
    match times.head? with
    | none => schedule.firstBuild.effectiveFromMs ≤ startMs
    | some firstMs =>
        if firstMs < schedule.firstBuild.effectiveFromMs then
          firstMs ≤ startMs ∧ min stopMs ((schedule.secondBuildMs times).getD stopMs)
            ≤ max startMs schedule.firstBuild.effectiveFromMs
        else schedule.firstBuild.effectiveFromMs ≤ startMs

/-- The replays whose marks are right. -/
structure Markable (F : FloatArith) (schedule : BaselineSchedule) (source : DatabaseSource)
    (times : List Int) (log : ReplayLog) : Prop where
  /-- No logged text ends its line early. -/
  oneLine : ∀ record ∈ log.records F, record.isOneLine = true
  /-- In a replay from before the first build, nothing is logged between it and the next. -/
  decisions : ∀ firstMs ∈ times.head?, firstMs < schedule.firstBuild.effectiveFromMs →
    ∀ entry ∈ log.events, entry.decisions ≠ [] →
      schedule.firstBuild.effectiveFromMs ≤ entry.timeMs → schedule.activeIndex entry.timeMs ≠ 0
  range : RangeMarkable schedule times (epochMs source.start) (epochMs source.stop)

theorem decisionsRead_eq_iff (F : FloatArith) (schedule : BaselineSchedule) {mark mark' : Int → Bool}
    {entries : List EventLog} :
    decisionsRead schedule F mark entries = decisionsRead schedule F mark' entries ↔
      ∀ entry ∈ entries, entry.decisions ≠ [] → mark entry.timeMs = mark' entry.timeMs := by
  induction entries with
  | nil => simp [decisionsRead]
  | cons entry entries ih =>
      have hcons : ∀ mark, decisionsRead schedule F mark (entry :: entries)
          = entry.decisions.map (fun record => (record.line F).read
              (some (schedule.activeBuild entry.timeMs).buildId) (mark entry.timeMs))
            ++ decisionsRead schedule F mark entries := fun _ => rfl
      rw [hcons, hcons]
      constructor
      · intro h
        obtain ⟨hhead, htail⟩ := List.append_inj h (by simp)
        rintro other (_ | ⟨_, hmem⟩) hlines
        · obtain ⟨line, lines, hline⟩ := List.exists_cons_of_ne_nil hlines
          rw [hline, List.map_cons, List.map_cons] at hhead
          exact congrArg (fun decision => decision.lookAhead) (List.cons.inj hhead).1
        · exact ih.mp htail other hmem hlines
      · intro h
        rw [ih.mpr fun other hmem => h other (List.mem_cons_of_mem _ hmem)]
        by_cases hlines : entry.decisions = []
        · rw [hlines]
          rfl
        · rw [h entry List.mem_cons_self hlines]

/-- The carried mark is right unless the first build has come into effect without a switch. -/
theorem carriedMark_eq_iff (schedule : BaselineSchedule) {firstMs timeMs : Int}
    (hle : firstMs ≤ timeMs) :
    schedule.carriedMark firstMs timeMs = schedule.looksAhead timeMs ↔
      (firstMs < schedule.firstBuild.effectiveFromMs →
        schedule.firstBuild.effectiveFromMs ≤ timeMs → schedule.activeIndex timeMs ≠ 0) := by
  rw [Bool.eq_iff_iff, schedule.looksAhead_iff, BaselineSchedule.carriedMark, Bool.and_eq_true,
    schedule.looksAhead_iff, beq_iff_eq]
  constructor
  · rintro h hfirst hlate hzero
    have hbefore := h.mp ⟨hfirst, hzero⟩
    omega
  · intro h
    constructor
    · rintro ⟨hfirst, hzero⟩
      by_contra hlate
      exact h hfirst (not_lt.mp hlate) hzero
    · intro hbefore
      refine ⟨by omega, ?_⟩
      by_contra hne
      have heffective := schedule.effective_of_activeIndex_ne hne
      omega

/-- The time of the first event with another build is at or after the first build. -/
theorem secondBuildMs_le {schedule : BaselineSchedule} {times : List Int} {timeMs : Int}
    (h : schedule.secondBuildMs times = some timeMs) :
    schedule.firstBuild.effectiveFromMs ≤ timeMs := by
  have hne := List.find?_some h
  exact schedule.effective_of_activeIndex_ne (by simpa using hne)

/-- The times of one range and the times before `e`, over `s .. t`. -/
theorem range_iff {a b e s t : Int} (hst : s < t) (ha : a < e) (hb : e ≤ b ∨ b = t) :
    (∀ x, s ≤ x → x < t → ((a ≤ x ∧ x < b) ↔ x < e)) ↔ a ≤ s ∧ min t b ≤ max s e := by
  constructor
  · intro h
    have hstart := h s (le_refl s) hst
    refine ⟨?_, ?_⟩
    · by_contra hlt
      by_cases hse : s < e
      · have := hstart.mpr hse
        omega
      · omega
    · by_contra hlt
      rw [not_le, lt_min_iff] at hlt
      have hmax := h (max s e) (le_max_left s e) hlt.1
      have hmem := hmax.mp ⟨le_trans (le_of_lt ha) (le_max_right s e), hlt.2⟩
      exact absurd hmem (not_lt.mpr (le_max_right s e))
  · rintro ⟨has, hmin⟩ x hsx hxt
    constructor
    · rintro ⟨_, hxb⟩
      by_contra hex
      have hx : x < min t b := lt_min hxt hxb
      have hx' : max s e ≤ x := max_le hsx (not_lt.mp hex)
      omega
    · intro hxe
      omega

/-- No range agrees with the first build when the range starts after it. -/
theorem noRange_iff {e s t : Int} :
    (∀ x, s ≤ x → x < t → (False ↔ x < e)) ↔ (s < t → e ≤ s) := by
  constructor
  · intro h hst
    exact not_lt.mp fun hse => (h s (le_refl s) hst).mpr hse
  · intro h x hsx hxt
    have hes := h (lt_of_le_of_lt hsx hxt)
    refine ⟨False.elim, fun hxe => ?_⟩
    omega

theorem ranges_iff {schedule : BaselineSchedule} {entries : List EventLog}
    (hsorted : (entries.map EventLog.timeMs).Pairwise (· ≤ ·))
    (hswitched : Switched schedule none entries) (startMs stopMs : Int) :
    (∀ timeMs, startMs ≤ timeMs → timeMs < stopMs →
        ((∃ range ∈ lookAheadRanges stopMs (loggedSwitches entries),
            range.1 ≤ timeMs ∧ timeMs < range.2) ↔
          timeMs < schedule.firstBuild.effectiveFromMs)) ↔
      RangeMarkable schedule (entries.map EventLog.timeMs) startMs stopMs := by
  cases entries with
  | nil =>
      have hempty : ∀ timeMs, (∃ range ∈ lookAheadRanges stopMs (loggedSwitches []),
          range.1 ≤ timeMs ∧ timeMs < range.2) ↔ False := fun timeMs => by
        simp [loggedSwitches, lookAheadRanges]
      simp only [hempty, noRange_iff]
      rfl
  | cons entry entries =>
      rw [lookAheadRanges_eq schedule hsorted hswitched]
      have htimes : ((entry :: entries).map EventLog.timeMs).head? = some entry.timeMs := rfl
      simp only [RangeMarkable, htimes]
      by_cases hbefore : entry.timeMs < schedule.firstBuild.effectiveFromMs
      · have hnext : schedule.firstBuild.effectiveFromMs
              ≤ (schedule.secondBuildMs ((entry :: entries).map EventLog.timeMs)).getD stopMs ∨
            (schedule.secondBuildMs ((entry :: entries).map EventLog.timeMs)).getD stopMs
              = stopMs := by
          cases hsecond : schedule.secondBuildMs ((entry :: entries).map EventLog.timeMs) with
          | none => exact .inr rfl
          | some secondMs => exact .inl (secondBuildMs_le hsecond)
        simp only [if_pos hbefore, List.mem_singleton, exists_eq_left]
        constructor
        · exact fun h hst => (range_iff hst hbefore hnext).mp h
        · intro h timeMs hstart hstop
          exact (range_iff (lt_of_le_of_lt hstart hstop) hbefore hnext).mpr
            (h (lt_of_le_of_lt hstart hstop)) timeMs hstart hstop
      · have hempty : ∀ timeMs, (∃ range ∈ ([] : List (Int × Int)),
            range.1 ≤ timeMs ∧ timeMs < range.2) ↔ False := by simp
        simp only [if_neg hbefore, hempty, noRange_iff]

/-- The decisions read, with the first event's time. -/
theorem decisions_iff (F : FloatArith) {schedule : BaselineSchedule} {entries : List EventLog}
    (hsorted : (entries.map EventLog.timeMs).Pairwise (· ≤ ·))
    (hswitched : Switched schedule none entries) :
    markedDecisions F (none, false) entries
        = decisionsRead schedule F schedule.looksAhead entries ↔
      ∀ firstMs ∈ (entries.map EventLog.timeMs).head?,
        firstMs < schedule.firstBuild.effectiveFromMs →
          ∀ entry ∈ entries, entry.decisions ≠ [] →
            schedule.firstBuild.effectiveFromMs ≤ entry.timeMs →
              schedule.activeIndex entry.timeMs ≠ 0 := by
  cases entries with
  | nil => exact ⟨fun _ firstMs hfirst => (Option.not_mem_none _ hfirst).elim, fun _ => rfl⟩
  | cons first entries =>
      have hle : ∀ entry ∈ first :: entries, first.timeMs ≤ entry.timeMs := by
        rintro entry (_ | ⟨_, hmem⟩)
        · exact le_refl _
        · exact (List.pairwise_cons.mp hsorted).1 _ (List.mem_map_of_mem hmem)
      rw [markedDecisions_eq schedule F hsorted hswitched, decisionsRead_eq_iff]
      constructor
      · rintro h firstMs ⟨⟩ hfirst entry hmem hlines
        exact (carriedMark_eq_iff schedule (hle entry hmem)).mp (h entry hmem hlines) hfirst
      · intro h entry hmem hlines
        exact (carriedMark_eq_iff schedule (hle entry hmem)).mpr
          fun hfirst => h first.timeMs rfl hfirst entry hmem hlines

theorem kept_of_decisions {F : FloatArith} {schedule : BaselineSchedule} {log : ReplayLog}
    {read : DecisionLog}
    (h : read.decisions = decisionsRead schedule F schedule.looksAhead log.events) :
    ∀ entry ∈ log.events, schedule.firstBuild.effectiveFromMs ≤ entry.timeMs →
      ∀ record ∈ entry.decisions, ∃ decision ∈ read.decisions,
        decision.row = (record.line F).row ∧ decision.lookAhead = false ∧
        ∀ start, decision.isScorable start = start.le decision.decidedAt := by
  intro entry hmem hlate record hrecord
  have hmark : schedule.looksAhead entry.timeMs = false := by
    rw [← Bool.not_eq_true, schedule.looksAhead_iff]
    exact not_lt.mpr hlate
  refine ⟨(record.line F).read (some (schedule.activeBuild entry.timeMs).buildId) false, ?_, rfl,
    rfl, fun start => rfl⟩
  rw [h, ← hmark]
  exact List.mem_flatMap.mpr ⟨entry, hmem, List.mem_map_of_mem hrecord⟩

/-- **Look-ahead marks.** The log of a replay is read with exact marks exactly when no decision
and no replayed time lies where the mark of a replay from before the first build is stale. -/
theorem marksLookAhead_iff {M : Type} (F : FloatArith) (S : DetectionSettings)
    (strategy : Strategy M) (schedule : BaselineSchedule) (source : DatabaseSource)
    (logFromMs : Option Int) (path : String) {events : List RecordedEvent} {log : ReplayLog}
    (hsorted : (events.map RecordedEvent.timeMs).Pairwise (· ≤ ·))
    (hrun : strategy.runReplay S schedule (.database source) logFromMs events = .ok log) :
    (∃ read, readDecisionLog path (log.records F) = .ok read ∧
        MarksLookAhead F schedule log read) ↔
      Markable F schedule source (events.map RecordedEvent.timeMs) log := by
  obtain ⟨hsource, htimes, hswitched⟩ := runReplay_switched hrun
  rw [← htimes] at hsorted
  rw [← htimes]
  constructor
  · rintro ⟨read, hread, hmarks⟩
    have hlines := isOneLine_of_readDecisionLog hread
    rw [readDecisionLog_eq hsource hlines] at hread
    cases hread
    exact ⟨hlines, (decisions_iff F hsorted hswitched).mp hmarks.decisions,
      (ranges_iff hsorted hswitched _ _).mp hmarks.ranges⟩
  · rintro ⟨hlines, hdecisions, hrange⟩
    have hread := (decisions_iff F hsorted hswitched).mpr hdecisions
    exact ⟨_, readDecisionLog_eq hsource hlines, hread,
      (ranges_iff hsorted hswitched _ _).mpr hrange, kept_of_decisions hread⟩

/-! ## Two replays around a first build -/

/-- One build, effective five seconds in. -/
def oneBuildSchedule : BaselineSchedule where
  builds := [⟨1, "1970-01-01T00:00:05", 5000⟩]
  load _ := ⟨.empty, .empty⟩
  nonempty := List.cons_ne_nil _ _
  oldestFirst := List.pairwise_singleton _ _

/-- A feed listing at the second. -/
def listingEvent (second : Int) : RecordedEvent :=
  ⟨second * 1000, [.tick (.listing "skinport" "AK-47 | Redline" 1000 second (toString second)
    isVenueName_skinport)]⟩

/-- The listings at the seconds, replayed as a database replay from second 1 on. -/
def listingsReplay (stopSecond : Int) (seconds : List Int) : Except PyError ReplayLog :=
  (ZScoreDreStrategy.strategy .exact .default true).runReplay .default oneBuildSchedule
    (.database ⟨"skinport", 1000000, stopSecond * 1000000, isVenueName_skinport⟩) none
    (seconds.map listingEvent)

/-- Up to the first build everything looks ahead, and is marked so. -/
theorem marksLookAhead_iff_upToFirstBuild :
    ∃ log, listingsReplay 5 [1, 3] = .ok log ∧ ∃ read,
      readDecisionLog "decisions.jsonl" (log.records .exact) = .ok read ∧
        MarksLookAhead .exact oneBuildSchedule log read := by
  have hobserved : (match listingsReplay 5 [1, 3] with
      | .ok log => (log.records .exact).all LogRecord.isOneLine &&
          decide (log.events.map EventLog.timeMs = [1000, 3000])
      | .error _ => false) = true := by decide +kernel
  cases hrun : listingsReplay 5 [1, 3] with
  | error e =>
      rw [hrun] at hobserved
      cases hobserved
  | ok log =>
      rw [hrun, Bool.and_eq_true, List.all_eq_true, decide_eq_true_iff] at hobserved
      obtain ⟨hlines, htimes⟩ := hobserved
      have hearly : ∀ entry ∈ log.events, entry.timeMs < 5000 := fun entry hmem => by
        have htime : entry.timeMs ∈ [1000, 3000] := htimes ▸ List.mem_map_of_mem hmem
        rcases List.mem_pair.mp htime with h | h <;> omega
      refine ⟨log, rfl, (marksLookAhead_iff .exact .default _ oneBuildSchedule _ none
        "decisions.jsonl" (by decide) hrun).mpr ⟨hlines, ?_, ?_⟩⟩
      · intro firstMs _ _ entry hmem _ hlate
        exact absurd (hearly entry hmem) (not_lt.mpr hlate)
      · intro _
        show ite _ _ _
        rw [if_pos (by decide)]
        exact ⟨by decide, by decide⟩

/-- A listing five seconds after the first build, in a replay from before it, stays marked. -/
theorem not_marksLookAhead_afterFirstBuild :
    ∃ log, listingsReplay 20 [1, 10] = .ok log ∧ ¬ ∃ read,
      readDecisionLog "decisions.jsonl" (log.records .exact) = .ok read ∧
        MarksLookAhead .exact oneBuildSchedule log read := by
  have hobserved : (match listingsReplay 20 [1, 10] with
      | .ok log => match readDecisionLog "decisions.jsonl" (log.records .exact) with
        | .ok read => decide (read.decisions
            ≠ decisionsRead oneBuildSchedule .exact oneBuildSchedule.looksAhead log.events)
        | .error _ => true
      | .error _ => false) = true := by decide +kernel
  cases hrun : listingsReplay 20 [1, 10] with
  | error e =>
      rw [hrun] at hobserved
      cases hobserved
  | ok log =>
      refine ⟨log, rfl, ?_⟩
      rintro ⟨read, hread, hmarks⟩
      rw [hrun] at hobserved
      simp only [hread, decide_eq_true_iff] at hobserved
      exact hobserved hmarks.decisions

end BrandSniper
