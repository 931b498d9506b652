import BrandSniper.Kit.JsonObjects
import BrandSniper.Kit.Merge
import BrandSniper.Kit.Results
import BrandSniper.Kit.Text

/-!
# Recorded replay input

`apps/listener/backtest/sources.py`: recorded feed events and REST snapshots,
read from a fixture file or merged from streams of the database.

`merge_ordered` holds one event of every stream that is not exhausted in its
heap, the next one of that stream (`Holds`). So what it pops is a least one of
all that are left, and with that the run is a merge in the sense of
`Kit.Merges`. The sequence number in the sort key plays no part in it: it only
keeps the heap from comparing events.
-/

namespace BrandSniper.Sources

open Kit Json

variable {F : Type}

/-! ## Recorded events -/

structure RecordedFeedEvent (F : Type) where
  receivedAtMs : Int
  payload : List (String × Json F)

structure RecordedSnapshot where
  observedAtMs : Int
  marketHashName : String
  priceCents : Int

inductive RecordedEvent (F : Type) where
  | feed (event : RecordedFeedEvent F)
  | snapshot (event : RecordedSnapshot)

/-- `_SNAPSHOT_RANK` -/
def snapshotRank : Nat := 0

/-- `_FEED_RANK` -/
def feedRank : Nat := 1

def RecordedEvent.timeMs : RecordedEvent F → Int
  | feed event => event.receivedAtMs
  | snapshot event => event.observedAtMs

def RecordedEvent.rank : RecordedEvent F → Nat
  | feed _ => feedRank
  | snapshot _ => snapshotRank

/-- The event time, then snapshots before feed events. -/
def replayKey (event : RecordedEvent F) : Int ×ₗ Nat := toLex (event.timeMs, event.rank)

/-- Total replay order: event time, then snapshots before feed events, then recording order. -/
def sortKey (event : RecordedEvent F) (sequence : Nat) : (Int ×ₗ Nat) ×ₗ Nat :=
  toLex (replayKey event, sequence)

/-! ## The merge -/

/-- An entry of the heap. No two have one sort key, so the stream and the event are never
compared. -/
structure HeapEntry (F : Type) where
  key : (Int ×ₗ Nat) ×ₗ Nat
  streamIndex : Nat
  event : RecordedEvent F

/-- What the streams have left, the heap and the arrival counter. -/
structure MergeState (F : Type) where
  streams : List (List (RecordedEvent F))
  heap : List (HeapEntry F)
  sequence : Nat

/-- The next event of a stream into the heap, if it has one. -/
def pushNext (st : MergeState F) (streamIndex : Nat) : MergeState F :=
  match st.streams[streamIndex]? with
  | some (event :: rest) =>
      { streams := st.streams.set streamIndex rest
        heap := ⟨sortKey event st.sequence, streamIndex, event⟩ :: st.heap
        sequence := st.sequence + 1 }
  | _ => st

/-- What is still to be yielded. -/
def MergeState.left (st : MergeState F) : Nat := st.heap.length + st.streams.flatten.length

theorem left_pushNext (st : MergeState F) (streamIndex : Nat) :
    (pushNext st streamIndex).left = st.left := by
  unfold pushNext
  split
  · rename_i event rest hstream
    obtain ⟨before, after, hstreams, hset⟩ := exists_split hstream rest
    simp only [MergeState.left]
    rw [hset, hstreams]
    simp only [List.length_cons, List.flatten_append, List.flatten_cons, List.length_append]
    omega
  · rfl

theorem left_pop {st : MergeState F} {entry : HeapEntry F} {others : List (HeapEntry F)}
    (h : popLeast HeapEntry.key st.heap = some (entry, others)) :
    (pushNext { st with heap := others } entry.streamIndex).left < st.left := by
  rw [left_pushNext]
  show others.length + st.streams.flatten.length < st.heap.length + st.streams.flatten.length
  rw [(popLeast_spec h).1.length_eq, List.length_cons]
  omega

/-- `while heap:` -/
def mergeFrom (st : MergeState F) : List (RecordedEvent F) :=
  match h : popLeast HeapEntry.key st.heap with
  | none => []
  | some (entry, others) =>
      have := left_pop h
      entry.event :: mergeFrom (pushNext { st with heap := others } entry.streamIndex)
termination_by st.left

/-- Merge streams that are each already in replay order into one stream in replay order. -/
def mergeOrdered (streams : List (List (RecordedEvent F))) : List (RecordedEvent F) :=
  mergeFrom ((List.range streams.length).foldl pushNext ⟨streams, [], 0⟩)

/-! ## What the heap holds -/

/-- The heap holds the first event of some of the streams; the others are as they were. -/
structure Holds (st : MergeState F) (streams : List (List (RecordedEvent F))) : Prop where
  heads : ∀ entry ∈ st.heap, ∃ rest, st.streams[entry.streamIndex]? = some rest ∧
    streams[entry.streamIndex]? = some (entry.event :: rest)
  others : ∀ i, i ∉ st.heap.map HeapEntry.streamIndex → streams[i]? = st.streams[i]?
  nodup : (st.heap.map HeapEntry.streamIndex).Nodup
  keys : ∀ entry ∈ st.heap, (ofLex entry.key).1 = replayKey entry.event

/-- The stream has an event in the heap, or no events left. -/
def Primed (st : MergeState F) (i : Nat) : Prop :=
  i ∈ st.heap.map HeapEntry.streamIndex ∨ ∀ s, st.streams[i]? = some s → s = []

section
variable {st : MergeState F} {streams : List (List (RecordedEvent F))}

theorem Holds.pushNext (h : Holds st streams) {i : Nat}
    (hi : i ∉ st.heap.map HeapEntry.streamIndex) : Holds (pushNext st i) streams := by
  unfold Sources.pushNext
  split
  · rename_i event rest hstream
    have hlt : i < st.streams.length := (List.getElem?_eq_some_iff.mp hstream).1
    refine ⟨fun entry hentry => ?_, fun j hj => ?_, ?_, fun entry hentry => ?_⟩
    · rcases List.mem_cons.mp hentry with rfl | hentry
      · exact ⟨rest, List.getElem?_set_self hlt, (h.others i hi).trans hstream⟩
      · have hne : i ≠ entry.streamIndex := fun heq =>
          hi (heq ▸ List.mem_map.mpr ⟨entry, hentry, rfl⟩)
        rw [List.getElem?_set_ne hne]
        exact h.heads entry hentry
    · rw [List.map_cons, List.mem_cons, not_or] at hj
      rw [List.getElem?_set_ne (Ne.symm hj.1)]
      exact h.others j hj.2
    · rw [List.map_cons, List.nodup_cons]
      exact ⟨hi, h.nodup⟩
    · rcases List.mem_cons.mp hentry with rfl | hentry
      · rfl
      · exact h.keys entry hentry
  · exact h

theorem primed_pushNext (st : MergeState F) (i : Nat) : Primed (pushNext st i) i := by
  unfold pushNext
  split
  · exact .inl List.mem_cons_self
  · rename_i hnone
    refine .inr fun s hs => ?_
    cases s with
    | nil => rfl
    | cons event rest => exact absurd hs (hnone event rest)

theorem Primed.pushNext {i : Nat} (h : Primed st i) (j : Nat) : Primed (pushNext st j) i := by
  by_cases hij : j = i
  · subst hij
    exact primed_pushNext st j
  · unfold Sources.pushNext
    split
    · refine h.imp (fun hmem => List.mem_cons_of_mem _ hmem) fun hempty s hs => ?_
      rw [List.getElem?_set_ne hij] at hs
      exact hempty s hs
    · exact h

/-- Taking the least entry leaves the heap without one of its stream. -/
theorem Holds.pop (h : Holds st streams) {entry : HeapEntry F} {others : List (HeapEntry F)}
    {rest : List (RecordedEvent F)} (hperm : st.heap.Perm (entry :: others))
    (hrest : st.streams[entry.streamIndex]? = some rest) :
    Holds { st with heap := others } (streams.set entry.streamIndex rest) ∧
      entry.streamIndex ∉ others.map HeapEntry.streamIndex := by
  have hnodup := (hperm.map HeapEntry.streamIndex).nodup_iff.mp h.nodup
  rw [List.map_cons, List.nodup_cons] at hnodup
  have hmem : ∀ e ∈ others, e ∈ st.heap := fun e he =>
    hperm.mem_iff.mpr (List.mem_cons_of_mem _ he)
  have hentry : entry ∈ st.heap := hperm.mem_iff.mpr List.mem_cons_self
  refine ⟨⟨fun e he => ?_, fun j hj => ?_, hnodup.2, fun e he => h.keys e (hmem e he)⟩, hnodup.1⟩
  · have hne : entry.streamIndex ≠ e.streamIndex := fun heq =>
      hnodup.1 (heq ▸ List.mem_map.mpr ⟨e, he, rfl⟩)
    rw [List.getElem?_set_ne hne]
    exact h.heads e (hmem e he)
  · by_cases hij : entry.streamIndex = j
    · subst hij
      obtain ⟨_, _, hstream⟩ := h.heads entry hentry
      rw [List.getElem?_set_self (List.getElem?_eq_some_iff.mp hstream).1]
      exact hrest.symm
    · rw [List.getElem?_set_ne hij]
      apply h.others
      rw [(hperm.map HeapEntry.streamIndex).mem_iff, List.map_cons, List.mem_cons, not_or]
      exact ⟨Ne.symm hij, hj⟩

/-- Every event that heads a stream is in the heap. -/
theorem Holds.exists_entry (h : Holds st streams) (hprimed : ∀ i, Primed st i) {i : Nat}
    {event : RecordedEvent F} {rest : List (RecordedEvent F)}
    (hi : streams[i]? = some (event :: rest)) : ∃ entry ∈ st.heap, entry.event = event := by
  by_cases hheap : i ∈ st.heap.map HeapEntry.streamIndex
  · obtain ⟨entry, hentry, rfl⟩ := List.mem_map.mp hheap
    obtain ⟨_, -, hstream⟩ := h.heads entry hentry
    rw [hi] at hstream
    cases hstream
    exact ⟨entry, hentry, rfl⟩
  · rw [h.others i hheap] at hi
    have hempty := (hprimed i).resolve_left hheap _ hi
    cases hempty

/-- The least entry comes before every event that heads a stream. -/
theorem Holds.least (h : Holds st streams) (hprimed : ∀ i, Primed st i) {entry : HeapEntry F}
    (hmem : entry ∈ st.heap) (hleast : ∀ e ∈ st.heap, entry.key ≤ e.key) :
    ∀ s ∈ streams, ∀ event ∈ s.head?, replayKey entry.event ≤ replayKey event := by
  intro s hs event hevent
  obtain ⟨i, hi⟩ := List.mem_iff_getElem?.mp hs
  obtain ⟨rest, rfl⟩ := List.head?_eq_some_iff.mp hevent
  obtain ⟨e, he, rfl⟩ := h.exists_entry hprimed hi
  rw [← h.keys entry hmem, ← h.keys e he]
  have hle := hleast e he
  rw [Prod.Lex.le_iff] at hle
  exact hle.elim le_of_lt fun heq => le_of_eq heq.1

/-- From a primed heap on, the run is a merge: by induction on what is left. -/
theorem mergeFrom_merges (h : Holds st streams) (hprimed : ∀ i, Primed st i) :
    Merges replayKey streams (mergeFrom st) := by
  induction st using mergeFrom.induct generalizing streams with
  | case1 st hnone =>
      rw [mergeFrom]
      split
      · apply Merges.done
        intro s hs
        obtain ⟨i, hi⟩ := List.mem_iff_getElem?.mp hs
        cases s with
        | nil => rfl
        | cons event rest =>
            obtain ⟨e, he, -⟩ := h.exists_entry hprimed hi
            rw [popLeast_eq_none_iff.mp hnone] at he
            cases he
      · rename_i hsome
        rw [hnone] at hsome
        cases hsome
  | case2 st entry others hpop _ ih =>
      rw [mergeFrom]
      split
      · rename_i hbad
        rw [hpop] at hbad
        cases hbad
      · rename_i entry' others' hpop'
        rw [hpop] at hpop'
        cases hpop'
        obtain ⟨hperm, hleast⟩ := popLeast_spec hpop
        have hentry : entry ∈ st.heap := hperm.mem_iff.mpr List.mem_cons_self
        obtain ⟨rest, hrest, hstream⟩ := h.heads entry hentry
        obtain ⟨hpopped, hnone⟩ := h.pop hperm hrest
        apply Merges.take entry.streamIndex entry.event rest hstream
          (h.least hprimed hentry hleast)
        apply ih (hpopped.pushNext hnone)
        intro i
        by_cases hi : i = entry.streamIndex
        · subst hi
          exact primed_pushNext _ _
        · have hbefore : Primed { st with heap := others } i := by
            refine (hprimed i).imp (fun hmem => ?_) id
            rw [(hperm.map HeapEntry.streamIndex).mem_iff, List.map_cons, List.mem_cons] at hmem
            exact hmem.resolve_left hi
          exact hbefore.pushNext _

/-- The start: one event of every stream that has one. -/
theorem holds_start (streams : List (List (RecordedEvent F))) (n : Nat) :
    Holds ((List.range n).foldl pushNext ⟨streams, [], 0⟩) streams ∧
      (∀ i < n, Primed ((List.range n).foldl pushNext ⟨streams, [], 0⟩) i) ∧
      ∀ i ∈ ((List.range n).foldl pushNext ⟨streams, [], 0⟩).heap.map HeapEntry.streamIndex,
        i < n := by
  induction n with
  | zero =>
      exact ⟨⟨by simp, fun _ _ => rfl, List.nodup_nil, by simp⟩, by simp, by simp⟩
  | succ n ih =>
      obtain ⟨hholds, hprimed, hbelow⟩ := ih
      rw [List.range_succ, List.foldl_append, List.foldl_cons, List.foldl_nil]
      refine ⟨hholds.pushNext fun hmem => absurd (hbelow n hmem) (Nat.lt_irrefl n), ?_, ?_⟩
      · intro i hi
        rcases Nat.lt_succ_iff_lt_or_eq.mp hi with hlt | rfl
        · exact (hprimed i hlt).pushNext n
        · exact primed_pushNext _ _
      · intro i hi
        unfold pushNext at hi
        split at hi
        · rcases List.mem_cons.mp hi with rfl | hi
          · exact Nat.lt_succ_self _
          · exact Nat.lt_succ_of_lt (hbelow i hi)
        · exact Nat.lt_succ_of_lt (hbelow i hi)

/-- What is yielded is a merge of the streams. -/
theorem mergeOrdered_merges (streams : List (List (RecordedEvent F))) :
    Merges replayKey streams (mergeOrdered streams) := by
  obtain ⟨hholds, hprimed, hbelow⟩ := holds_start streams streams.length
  apply mergeFrom_merges hholds
  intro i
  rcases Nat.lt_or_ge i streams.length with hlt | hge
  · exact hprimed i hlt
  · refine .inr fun s hs => ?_
    have hnone : i ∉ ((List.range streams.length).foldl pushNext
        ⟨streams, [], 0⟩).heap.map HeapEntry.streamIndex := fun hmem =>
      absurd (hbelow i hmem) (Nat.not_lt.mpr hge)
    rw [← hholds.others i hnone, List.getElem?_eq_none hge] at hs
    cases hs

end

/-! ## Fixture files -/

/-- `isinstance(value, int)`, which holds of booleans too. -/
def int? : Json F → Option Int
  | .int z => some z
  | .bool b => some (if b then 1 else 0)
  | _ => none

inductive LineError where
  | jsonDecodeError
  | valueError (message : String)

/-- `raise ValueError(f"{path}: {err}")` -/
structure FixtureError where
  path : String
  error : LineError

section
variable [PyFloat F]

def parseFixtureLine (line : String) (lineNumber : Nat) : Except LineError (RecordedEvent F) :=
  match loads (F := F) line with
  | none => .error .jsonDecodeError
  | some record =>
      let fields := match record with
        | .obj fields => fields
        | _ => []
      let invalid := .error (.valueError
        ("line " ++ toString lineNumber ++ ": not a valid feed or snapshot record"))
      match getField fields "kind" with
      | some (.str "feed") =>
          match getField fields "payload", (getField fields "received_at_ms").bind int? with
          | some (.obj payload), some receivedAtMs => .ok (.feed ⟨receivedAtMs, payload⟩)
          | _, _ => invalid
      | some (.str "snapshot") =>
          match (getField fields "observed_at_ms").bind int?, getField fields "market_hash_name",
              (getField fields "price_cents").bind int? with
          | some observedAtMs, some (.str marketHashName), some priceCents =>
              .ok (.snapshot ⟨observedAtMs, marketHashName, priceCents⟩)
          | _, _, _ => invalid
      | _ => invalid

/-- The lines that are not blank, with their numbers. -/
def fixtureLines (lines : List String) : List (String × Nat) :=
  (lines.zipIdx 1).filter fun line => !line.1.toList.all Text.isSpace

/-- The events of a fixture file, in file order. -/
def fixtureEvents (lines : List String) : Except LineError (List (RecordedEvent F × Nat)) :=
  (fixtureLines lines).mapM fun line => do
    let event ← parseFixtureLine line.1 line.2
    return (event, line.2)

/-- `events.sort(key=lambda keyed: keyed[0])` of the keyed events, without their keys. -/
def inReplayOrder (events : List (RecordedEvent F × Nat)) : List (RecordedEvent F) :=
  (sortOn Prod.fst (events.map fun event => (sortKey event.1 event.2, event.1))).map Prod.snd

/-- Read a fixture file and return its events in replay order (the file order breaks ties). -/
def loadFixture (path : String) (lines : List String) :
    Except FixtureError (List (RecordedEvent F)) :=
  match fixtureEvents lines with
  | .error e => .error ⟨path, e⟩
  | .ok events => .ok (inReplayOrder events)

/-- The line of an event in a fixture file. -/
def fixtureRecord : RecordedEvent F → Json F
  | .feed event =>
      .obj [("kind", .str "feed"), ("received_at_ms", .int event.receivedAtMs),
        ("payload", .obj event.payload)]
  | .snapshot event =>
      .obj [("kind", .str "snapshot"), ("observed_at_ms", .int event.observedAtMs),
        ("market_hash_name", .str event.marketHashName), ("price_cents", .int event.priceCents)]

def recordLine (event : RecordedEvent F) : String := String.ofList (dumps (fixtureRecord event))

/-- A line that was written for an event is read as the event. -/
theorem parseFixtureLine_recordLine [LawfulPyFloat F] {event : RecordedEvent F}
    (h : UniqueKeys (fixtureRecord event)) (lineNumber : Nat) :
    parseFixtureLine (recordLine event) lineNumber = .ok event := by
  rw [parseFixtureLine, recordLine, loads_dumps h]
  cases event with
  | feed event => simp [fixtureRecord, getField, int?]
  | snapshot event => simp [fixtureRecord, getField, int?]

theorem recordLine_not_blank (event : RecordedEvent F) :
    (recordLine event).toList.all Text.isSpace = false := by
  have hbrace : Text.isSpace '{' = false := by decide
  rw [recordLine, String.toList_ofList]
  cases event with
  | feed event => rw [fixtureRecord, dumps, dumpsWith, List.all_cons, hbrace, Bool.false_and]
  | snapshot event => rw [fixtureRecord, dumps, dumpsWith, List.all_cons, hbrace, Bool.false_and]

/-- A file of written events holds them in file order. -/
theorem fixtureEvents_recordLines [LawfulPyFloat F] {events : List (RecordedEvent F)}
    (h : ∀ event ∈ events, UniqueKeys (fixtureRecord event)) :
    fixtureEvents (events.map recordLine) = .ok (events.zipIdx 1) := by
  have hlines : fixtureLines (events.map recordLine) = (events.map recordLine).zipIdx 1 := by
    apply List.filter_eq_self.mpr
    intro line hline
    obtain ⟨event, -, hevent⟩ := List.mem_map.mp (List.fst_mem_of_mem_zipIdx hline)
    rw [← hevent, recordLine_not_blank, Bool.not_false]
  rw [fixtureEvents, hlines]
  generalize 1 = first
  clear hlines
  induction events generalizing first with
  | nil => rfl
  | cons event rest ih =>
      have hrest := ih (fun e he => h e (List.mem_cons_of_mem _ he)) (first + 1)
      rw [List.map_cons, List.zipIdx_cons, List.zipIdx_cons, List.mapM_cons, hrest,
        parseFixtureLine_recordLine (h event List.mem_cons_self)]
      rfl

/-- The line numbers of a file's events grow. -/
theorem pairwise_of_fixtureEvents {lines : List String} {events : List (RecordedEvent F × Nat)}
    (h : fixtureEvents lines = .ok events) : events.Pairwise fun a b => a.2 < b.2 := by
  have hlines : (fixtureLines lines).Pairwise fun a b => a.2 < b.2 := by
    apply List.Pairwise.filter
    rw [List.pairwise_iff_getElem]
    intro i j hi hj hij
    rw [List.getElem_zipIdx, List.getElem_zipIdx]
    omega
  have hnumbers : events.map Prod.snd = (fixtureLines lines).map Prod.snd := by
    apply map_of_mapM_ok _ h
    intro line event hevent
    obtain ⟨parsed, -, heq⟩ := bind_eq_ok hevent
    cases heq
    rfl
  have hpairs : (events.map Prod.snd).Pairwise (· < ·) := by
    rw [hnumbers]
    exact List.pairwise_map.mpr hlines
  exact List.pairwise_map.mp hpairs

omit [PyFloat F] in
/-- Events in file order are sorted stably by time and rank. -/
theorem inReplayOrder_eq {events : List (RecordedEvent F × Nat)}
    (h : events.Pairwise fun a b => a.2 < b.2) :
    inReplayOrder events = sortOn replayKey (events.map Prod.fst) := by
  have hposition : sortOn _ events = sortOn (fun event => replayKey event.1) events :=
    sortOn_position h
  rw [inReplayOrder, sortOn_map, List.map_map, sortOn_map, ← hposition]
  rfl

/-- From any number of streams in replay order the merge yields every event of every stream
once, in replay order, with the events of a stream in their order. Where no two streams
share a time and rank, it is what a fixture file of the concatenated streams loads as. -/
theorem mergeOrdered_replayOrder (streams : List (List (RecordedEvent F)))
    (hsorted : ∀ s ∈ streams, s.Pairwise fun a b => replayKey a ≤ replayKey b) :
    Interleaves streams (mergeOrdered streams) ∧
      (mergeOrdered streams).Perm streams.flatten ∧
      (mergeOrdered streams).Pairwise (fun a b => replayKey a ≤ replayKey b) ∧
      ((streams.Pairwise fun s t => ∀ a ∈ s, ∀ b ∈ t, replayKey a ≠ replayKey b) →
        mergeOrdered streams = sortOn replayKey streams.flatten ∧
        ∀ (path : String) (lines : List String) (events : List (RecordedEvent F × Nat)),
          fixtureEvents lines = .ok events → events.map Prod.fst = streams.flatten →
          loadFixture path lines = .ok (mergeOrdered streams)) := by
  have hmerge := mergeOrdered_merges streams
  refine ⟨hmerge.interleaves, hmerge.interleaves.perm, hmerge.pairwise hsorted, fun hapart => ?_⟩
  have hsort := hmerge.eq_sortOn hsorted hapart
  refine ⟨hsort, fun path lines events hevents hconcat => ?_⟩
  rw [loadFixture, hevents, hsort, ← hconcat]
  exact congrArg Except.ok (inReplayOrder_eq (pairwise_of_fixtureEvents hevents))

end

/-- A feed event and a snapshot of another stream, ten milliseconds before it. -/
def twoStreams : List (List (RecordedEvent FloatText)) :=
  [[.feed ⟨20, []⟩], [], [.snapshot ⟨10, "AK-47", 900⟩]]

theorem mergeOrdered_replayOrder_twoStreams :
    Interleaves twoStreams (mergeOrdered twoStreams) ∧
      mergeOrdered twoStreams = [.snapshot ⟨10, "AK-47", 900⟩, .feed ⟨20, []⟩] ∧
      loadFixture "events.jsonl" (twoStreams.flatten.map recordLine)
        = .ok (mergeOrdered twoStreams) := by
  obtain ⟨hinterleaves, -, -, hload⟩ := mergeOrdered_replayOrder twoStreams (by simp [twoStreams])
  obtain ⟨hsort, hload⟩ := hload (by
    simp [twoStreams, replayKey, RecordedEvent.timeMs])
  have hkeys : ∀ event ∈ twoStreams.flatten, UniqueKeys (fixtureRecord event) := by
    simp [twoStreams, fixtureRecord, UniqueKeys, UniqueKeysFields, UniqueKeysField, Json.keys]
  refine ⟨hinterleaves, ?_, hload _ _ _ (fixtureEvents_recordLines hkeys) rfl⟩
  rw [hsort]
  simp [twoStreams, sortOn, replayKey, RecordedEvent.timeMs, Prod.Lex.toLex_le_toLex]

end BrandSniper.Sources
