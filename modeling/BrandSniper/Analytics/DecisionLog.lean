import BrandSniper.Analytics.Scorecard
import BrandSniper.Backtest.Harness

/-!
# Reading a decision log

`read_decision_log` of `apps/analytics/baseline_scorecard.py`. The reader
takes the lines in order and carries the last switch forward to the decisions
behind it.

The harness writes text as it is (`ensure_ascii=False`), and `splitlines`
also ends a line at U+0085, U+2028 and U+2029: a text with one of them cuts
its line, and the piece is not JSON.
-/

namespace BrandSniper

open Kit

/-! ## Lines -/

/-- Characters `json.dumps` leaves in a line and `splitlines` ends one at. -/
def breaksLine (c : Char) : Bool := c == '\u0085' || c == '\u2028' || c == '\u2029'

/-- The texts of a source label that come from outside. -/
def ReplaySource.texts : ReplaySource → List String
  | .fixture name => [name]
  | .database source => [source.venue]

/-- The texts of a line that come from outside. -/
def LogRecord.texts : LogRecord → List String
  | .run header => header.source.texts
  | .baseline switch => [switch.builtAt]
  | .decision line =>
      line.venue :: line.marketHashName :: line.reason
        :: (line.listingId.toList ++ line.eventType.toList)
  | .summary _ => []

/-- The line is read back as one line. -/
def LogRecord.isOneLine (record : LogRecord) : Bool :=
  record.texts.all fun text => text.toList.all fun c => !breaksLine c

/-! ## What is read -/

/-- The fields of a decision line that a row is made of. -/
def DecisionLine.row (line : DecisionLine) : DecisionRow where
  timestamp := line.timestamp
  venue := line.venue
  listingId := line.listingId
  marketHashName := line.marketHashName
  priceCents := line.priceCents
  approve := line.approve
  reason := line.reason
  zSource := line.features.zSource.map ZScoreSource.label

/-- A logged decision, with what the threshold sweep reads of its row. -/
structure ReadDecision extends LoggedDecision where
  score : Option Double
  features : DecisionFeatures
  deriving DecidableEq

/-- A decision line, read with the build in effect. -/
def DecisionLine.read (line : DecisionLine) (buildId : Option Int) (lookAhead : Bool) :
    ReadDecision where
  row := line.row
  buildId := buildId
  lookAhead := lookAhead
  score := line.score
  features := line.features

structure DecisionLog where
  header : RunHeader
  decisions : List ReadDecision
  summary : Option ReplaySummary
  source : DatabaseSource
  /-- Replay time ranges (epoch ms, end exclusive) whose baselines came from a later build. -/
  lookAheadRanges : List (Int × Int)

/-- The variables of the reading loop. -/
structure LogReader where
  header : Option RunHeader
  summary : Option ReplaySummary
  decisions : List ReadDecision
  switches : List (Int × Bool)
  buildId : Option Int
  lookAhead : Bool

def LogReader.start : LogReader := ⟨none, none, [], [], none, false⟩

/-- One line. -/
def LogReader.read (st : LogReader) : LogRecord → LogReader
  | .run header => { st with header := some header }
  | .baseline switch =>
      { st with
        buildId := some switch.buildId
        lookAhead := switch.lookAhead
        switches := st.switches ++ [(switch.fromMs, switch.lookAhead)] }
  | .decision line =>
      { st with decisions := st.decisions ++ [line.read st.buildId st.lookAhead] }
  | .summary summary => { st with summary := some summary }

/-- Each look-ahead switch up to the next switch, the last one up to the end. -/
def lookAheadRanges (endMs : Int) : List (Int × Bool) → List (Int × Int)
  | [] => []
  | (fromMs, isLookAhead) :: switches =>
      let next := (switches.head?.map Prod.fst).getD endMs
      (if isLookAhead then [(fromMs, next)] else []) ++ lookAheadRanges endMs switches

/-- `SUPPORTED_STRATEGIES` -/
def supportedStrategies : List StrategyName := [.zscoreDre, .zscoreDreSweep, .zscoreDreFeatures]

def StrategyName.label : StrategyName → String
  | .zscoreDre => "zscore_dre"
  | .zscoreDreSweep => "zscore_dre_sweep"
  | .zscoreDreFeatures => "zscore_dre_features"

def parseDatabaseSource : ReplaySource → Except PyError DatabaseSource
  | .fixture name => .error (.valueError
      ("The scorecard needs a database replay; this log's source is 'fixture:" ++ name ++ "'"))
  | .database source => .ok source

/-- Read a log, noting for each decision the build it was made with. -/
def readDecisionLog (path : String) (records : List LogRecord) : Except PyError DecisionLog :=
  if ¬ records.all LogRecord.isOneLine then
    .error (.valueError "Unterminated string starting at")
  else
    let st := records.foldl LogReader.read .start
    match st.header with
    | none => .error (.valueError (path ++ " has no run header; is it a decision log?"))
    | some header =>
        if header.strategy ∉ supportedStrategies then
          .error (.valueError ("The scorecard scores the live rules; this log was made with '"
            ++ header.strategy.label ++ "'"))
        else do
          let source ← parseDatabaseSource header.source
          return {
            header := header
            decisions := st.decisions
            summary := st.summary
            source := source
            lookAheadRanges := lookAheadRanges (epochMs source.stop) st.switches }

/-- Every strategy of the harness is supported. -/
theorem mem_supportedStrategies (name : StrategyName) : name ∈ supportedStrategies := by
  cases name <;> decide

/-! ## Reading by events -/

/-- The build and the mark the decisions of an event are read with. -/
def EventLog.mark (entry : EventLog) (mark : Option Int × Bool) : Option Int × Bool :=
  match entry.switch with
  | none => mark
  | some switch => (some switch.buildId, switch.lookAhead)

/-- A decision as it was logged, with the build and the mark it is read with. -/
structure MarkedRecord where
  record : DecisionRecord
  buildId : Option Int
  lookAhead : Bool

/-- What is read of it. -/
def MarkedRecord.read (F : FloatArith) (marked : MarkedRecord) : ReadDecision :=
  (marked.record.line F).read marked.buildId marked.lookAhead

/-- The decisions of the events, each with the last switch at or before its event. -/
def markedRecords : Option Int × Bool → List EventLog → List MarkedRecord
  | _, [] => []
  | mark, entry :: entries =>
      entry.decisions.map (fun record => ⟨record, (entry.mark mark).1, (entry.mark mark).2⟩)
        ++ markedRecords (entry.mark mark) entries

/-- What is read of them. -/
def markedDecisions (F : FloatArith) (mark : Option Int × Bool) (entries : List EventLog) :
    List ReadDecision :=
  (markedRecords mark entries).map (MarkedRecord.read F)

theorem markedDecisions_cons (F : FloatArith) (mark : Option Int × Bool) (entry : EventLog)
    (entries : List EventLog) :
    markedDecisions F mark (entry :: entries)
      = entry.decisions.map (fun record =>
          (record.line F).read (entry.mark mark).1 (entry.mark mark).2)
        ++ markedDecisions F (entry.mark mark) entries := by
  rw [markedDecisions, markedRecords, List.map_append, List.map_map]
  rfl

/-- The switches of the events. -/
def loggedSwitches (entries : List EventLog) : List (Int × Bool) :=
  entries.filterMap fun entry => entry.switch.map fun switch => (switch.fromMs, switch.lookAhead)

theorem foldl_read_decisions (F : FloatArith) (st : LogReader) (records : List DecisionRecord) :
    (records.map fun record => LogRecord.decision (record.line F)).foldl LogReader.read st
      = { st with
          decisions := st.decisions
            ++ records.map fun record => (record.line F).read st.buildId st.lookAhead } := by
  induction records generalizing st with
  | nil => simp
  | cons record records ih =>
      rw [List.map_cons, List.foldl_cons, ih]
      simp [LogReader.read]

/-- Reading the lines of an event. -/
theorem foldl_read_entry (F : FloatArith) (st : LogReader) (entry : EventLog) :
    (entry.records F).foldl LogReader.read st
      = { st with
          decisions := st.decisions ++ entry.decisions.map fun record =>
            (record.line F).read (entry.mark (st.buildId, st.lookAhead)).1
              (entry.mark (st.buildId, st.lookAhead)).2
          switches := st.switches ++ loggedSwitches [entry]
          buildId := (entry.mark (st.buildId, st.lookAhead)).1
          lookAhead := (entry.mark (st.buildId, st.lookAhead)).2 } := by
  obtain ⟨timeMs, switch, decisions⟩ := entry
  cases switch with
  | none => simp [EventLog.records, EventLog.mark, loggedSwitches, foldl_read_decisions]
  | some switch =>
      simp [EventLog.records, EventLog.mark, loggedSwitches, foldl_read_decisions, LogReader.read]

theorem foldl_read_entries (F : FloatArith) (st : LogReader) (entries : List EventLog) :
    let read := (entries.flatMap (EventLog.records F)).foldl LogReader.read st
    read.header = st.header
      ∧ read.decisions = st.decisions ++ markedDecisions F (st.buildId, st.lookAhead) entries
      ∧ read.switches = st.switches ++ loggedSwitches entries := by
  induction entries generalizing st with
  | nil => simp [markedDecisions, markedRecords, loggedSwitches]
  | cons entry entries ih =>
      rw [List.flatMap_cons, List.foldl_append, foldl_read_entry]
      obtain ⟨hheader, hdecisions, hswitches⟩ := ih _
      refine ⟨hheader, ?_, ?_⟩
      · rw [hdecisions, markedDecisions_cons, List.append_assoc]
      · rw [hswitches, List.append_assoc, loggedSwitches, loggedSwitches, loggedSwitches,
          ← List.filterMap_append, List.singleton_append]

/-- Reading a database replay back. -/
theorem readDecisionLog_eq {F : FloatArith} {path : String} {log : ReplayLog}
    {source : DatabaseSource} (hsource : log.header.source = .database source)
    (hlines : ∀ record ∈ log.records F, record.isOneLine = true) :
    readDecisionLog path (log.records F) = .ok
      { header := log.header.roundFloats F
        decisions := markedDecisions F (none, false) log.events
        summary := some log.summary
        source := source
        lookAheadRanges := lookAheadRanges (epochMs source.stop) (loggedSwitches log.events) } := by
  have hread : (log.records F).foldl LogReader.read .start
      = ((log.events.flatMap (EventLog.records F)).foldl LogReader.read
          { LogReader.start with header := some (log.header.roundFloats F) }).read
            (.summary log.summary) := by
    rw [ReplayLog.records, List.foldl_append, List.foldl_cons]
    rfl
  obtain ⟨hheader, hdecisions, hswitches⟩ :=
    foldl_read_entries F { LogReader.start with header := some (log.header.roundFloats F) }
      log.events
  generalize (log.events.flatMap (EventLog.records F)).foldl LogReader.read
    { LogReader.start with header := some (log.header.roundFloats F) } = st
    at hread hheader hdecisions hswitches
  have hsupported := mem_supportedStrategies (log.header.roundFloats F).strategy
  have hsource : (log.header.roundFloats F).source = .database source := hsource
  unfold readDecisionLog
  rw [if_neg (not_not.mpr (List.all_eq_true.mpr hlines)), hread]
  simp only [LogReader.read, hheader, hdecisions, hswitches, hsupported, not_true, if_false,
    hsource, parseDatabaseSource]
  rfl

/-- A text that ends its line early makes the log unreadable. -/
theorem isOneLine_of_readDecisionLog {path : String} {records : List LogRecord}
    {log : DecisionLog} (h : readDecisionLog path records = .ok log) :
    ∀ record ∈ records, record.isOneLine = true := by
  by_contra hnot
  rw [readDecisionLog, if_pos (fun hall => hnot (List.all_eq_true.mp hall))] at h
  cases h

end BrandSniper
