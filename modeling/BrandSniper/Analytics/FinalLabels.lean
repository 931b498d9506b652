import BrandSniper.Analytics.LabelStore
import BrandSniper.Kit.ReadCommitted
import BrandSniper.Kit.Runs

/-!
# Final labels

`fetch_final_labels` of `apps/analytics/outcome_data.py` beside labeler runs
that save their labels at the same time: each `save_outcomes` call is a
transaction that takes its time.

A read as of `T` selects by `labeled_at`, which an insert takes from the start
of its transaction. Reads after `T` agree exactly if no save that commits after
`T` brings a row that counts as written by `T`, and none overwrites a row that
was final and written by `T` (`readsAgree_iff`). Saves that start after `T`, of
runs as of `T` or later, do neither (`readsAgree_of_laterSaves`).
-/

namespace BrandSniper.Labels

open Kit

/-! ## Reads -/

/-- The row is final as of `asOf` and was written by then. -/
def ReadAsOf (config : LabelConfig) (asOf : Int) (stored : StoredOutcome) : Prop :=
  (stored.outcome.venue = config.venue ∧ stored.outcome.labelVersion = config.version) ∧
    stored.outcome.labelAvailableAt ≤ config.finalBefore asOf ∧ stored.labeledAt ≤ asOf

instance (config : LabelConfig) (asOf : Int) (stored : StoredOutcome) :
    Decidable (ReadAsOf config asOf stored) :=
  inferInstanceAs (Decidable (_ ∧ _))

/-- `ORDER BY label_available_at, listing_id` -/
def finalOrder (row : ListingOutcome) : Int ×ₗ String := toLex (row.labelAvailableAt, row.listingId)

/-- The rows of `fetch_final_labels`, whose venue and finality rule are those of the version's
stored contract. -/
def fetchFinalLabels (config : LabelConfig) (asOf : Int) (table : OutcomeTable) :
    List ListingOutcome :=
  sortOn finalOrder (((table.rows.items.map Prod.snd).filter fun stored =>
    ReadAsOf config asOf stored).map StoredOutcome.outcome)

/-- What a read makes of a row. -/
def readRow (config : LabelConfig) (asOf : Int) (stored : Option StoredOutcome) :
    Option ListingOutcome :=
  (stored.filter fun stored => ReadAsOf config asOf stored).map StoredOutcome.outcome

/-! ## Saves -/

/-- A statement of a chunk: its `labeled_at`, the rows it has still to upsert and those it wrote. -/
structure SaveStatement where
  now : Int
  sent : Bool
  rows : List ListingOutcome
  touched : List OutcomeKey

/-- A `save_outcomes` call under way. -/
structure OpenSave where
  finalCutoff : Int
  startedAt : Int
  /-- `NOW()` of its transaction, which begins with the first statement. -/
  begunAt : Option Int
  chunks : List (List ListingOutcome)
  statement : Option SaveStatement
  /-- Its own versions, before the commit. -/
  writes : OutcomeTable

structure LabelStore where
  clock : Int
  table : OutcomeTable
  saves : Nat → Option OpenSave
  locks : Locks OutcomeKey

inductive StoreEvent where
  | advance (now : Int)
  /-- A labeler run saves the labels of a window. -/
  | start (save : Nat) (finalCutoff : Int) (rows : List ListingOutcome)
  | makeStatement (save : Nat)
  | sendStatement (save : Nat)
  /-- The statement upserts its next row; it waits while another save holds that row. -/
  | upsert (save : Nat)
  | commit (save : Nat)
  /-- An error, a lost connection or a crash. -/
  | abort (save : Nat)

namespace OutcomeTable

theorem keyed_merge (table writes : OutcomeTable) (key : OutcomeKey) (stored : StoredOutcome)
    (h : (table.rows.setAll writes.rows.items).get? key = some stored) :
    stored.outcome.key = key := by
  rw [OrderedDict.get?_setAll_items] at h
  rcases Option.or_eq_some_iff.mp h with h | ⟨-, h⟩
  · exact writes.keyed key stored h
  · exact table.keyed key stored h

/-- The table with a transaction's versions. -/
def merge (table writes : OutcomeTable) : OutcomeTable :=
  ⟨table.rows.setAll writes.rows.items, table.keyed_merge writes⟩

theorem get?_merge (table writes : OutcomeTable) (key : OutcomeKey) :
    (table.merge writes).get? key = (writes.get? key).or (table.get? key) :=
  OrderedDict.get?_setAll_items _ _ _

end OutcomeTable

/-- Nothing of the call is left to do. -/
def OpenSave.finished (save : OpenSave) : Bool :=
  save.chunks.isEmpty && save.statement.all fun statement => statement.rows.isEmpty

namespace LabelStore

def setSave (st : LabelStore) (id : Nat) (save : OpenSave) : LabelStore :=
  { st with saves := Function.update st.saves id (some save) }

/-- The transaction is over, with or without its versions. -/
def close (st : LabelStore) (id : Nat) : LabelStore :=
  { st with saves := Function.update st.saves id none, locks := st.locks.release id }

/-- The upsert of one row: the newest version is the save's own or the committed one. -/
def upsertRow (st : LabelStore) (id : Nat) (save : OpenSave) (statement : SaveStatement)
    (insertedAt : Int) (row : ListingOutcome) (rest : List ListingOutcome)
    (locks : Locks OutcomeKey) : LabelStore :=
  if statement.touched.contains row.key then st.close id
  else match upsertVersion save.finalCutoff insertedAt statement.now
      ((save.writes.get? row.key).or (st.table.get? row.key)) row with
    | none => { st with locks := locks }.setSave id
        { save with statement := some { statement with rows := rest } }
    | some version => { st with locks := locks }.setSave id
        { save with
          statement := some { statement with rows := rest, touched := row.key :: statement.touched }
          writes := save.writes.write version }

def step (st : LabelStore) : StoreEvent → Option LabelStore
  | .advance now => if st.clock ≤ now then some { st with clock := now } else none
  | .start id finalCutoff rows =>
      match st.saves id with
      | some _ => none
      | none => some (st.setSave id
          ⟨finalCutoff, st.clock, none, chunksOf upsertChunkSize rows, none, .empty⟩)
  | .makeStatement id =>
      match st.saves id with
      | none => none
      | some save =>
          match save.chunks with
          | [] => none
          | chunk :: chunks =>
              if save.statement.all fun statement => statement.rows.isEmpty then
                some (st.setSave id
                  { save with chunks := chunks, statement := some ⟨st.clock, false, chunk, []⟩ })
              else none
  | .sendStatement id =>
      match st.saves id with
      | none => none
      | some save =>
          match save.statement with
          | none => none
          | some statement =>
              if statement.sent then none
              else some (st.setSave id
                { save with
                  begunAt := some (save.begunAt.getD st.clock)
                  statement := some { statement with sent := true } })
  | .upsert id =>
      match st.saves id with
      | none => none
      | some save =>
          match save.statement, save.begunAt with
          | some statement, some insertedAt =>
              match statement.sent, statement.rows with
              | true, row :: rest =>
                  (st.locks.acquire? id row.key).map fun locks =>
                    st.upsertRow id save statement insertedAt row rest locks
              | _, _ => none
          | _, _ => none
  | .commit id =>
      match st.saves id with
      | none => none
      | some save =>
          if save.finished then some ({ st with table := st.table.merge save.writes }.close id)
          else none
  | .abort id =>
      match st.saves id with
      | none => none
      | some _ => some (st.close id)

end LabelStore

/-- Any two reads as of `asOf` that a run makes after it return the same rows. -/
def ReadsAgree (config : LabelConfig) (asOf : Int) (start : LabelStore) (events : List StoreEvent) :
    Prop :=
  ∀ before between st st', before ++ between <+: events →
    runFrom LabelStore.step start before = some st →
    runFrom LabelStore.step st between = some st' → asOf < st.clock →
    fetchFinalLabels config asOf st.table = fetchFinalLabels config asOf st'.table

/-- A version in place of what is stored changes no row that a read returns. -/
structure KeepsRead (config : LabelConfig) (asOf : Int) (old : Option StoredOutcome)
    (version : StoredOutcome) : Prop where
  /-- If it counts as written by then, the row was there and reads the same. -/
  late : ReadAsOf config asOf version →
    ∃ stored, old = some stored ∧ ReadAsOf config asOf stored ∧ stored.outcome = version.outcome
  /-- A row that was read is not overwritten by one that is not. -/
  rewritten : ∀ stored, old = some stored → ReadAsOf config asOf stored →
    ReadAsOf config asOf version

/-- A save that commits after `asOf` changes no row that a read as of `asOf` returns. -/
def CommitsKept (config : LabelConfig) (asOf : Int) (st : LabelStore) (event : StoreEvent) : Prop :=
  ∀ id save, event = .commit id → asOf < st.clock → st.saves id = some save →
    ∀ key version, save.writes.get? key = some version →
      KeepsRead config asOf (st.table.get? key) version

/-! ## What a read returns -/

section
variable {config : LabelConfig} {asOf : Int}

theorem readRow_eq_some {stored : Option StoredOutcome} {row : ListingOutcome} :
    readRow config asOf stored = some row ↔
      ∃ version, stored = some version ∧ ReadAsOf config asOf version ∧ version.outcome = row := by
  rw [readRow, Option.map_eq_some_iff]
  constructor
  · rintro ⟨version, hfilter, rfl⟩
    obtain ⟨hstored, hread⟩ := Option.filter_eq_some_iff.mp hfilter
    exact ⟨version, hstored, of_decide_eq_true hread, rfl⟩
  · rintro ⟨version, rfl, hread, rfl⟩
    exact ⟨version, Option.filter_eq_some_iff.mpr ⟨rfl, decide_eq_true hread⟩, rfl⟩

/-- The version reads as what it replaces. -/
theorem readRow_eq_iff {old : Option StoredOutcome} {version : StoredOutcome} :
    readRow config asOf (some version) = readRow config asOf old ↔
      KeepsRead config asOf old version := by
  constructor
  · intro h
    constructor
    · intro hread
      have hrow := h.symm.trans (readRow_eq_some.mpr ⟨version, rfl, hread, rfl⟩)
      exact readRow_eq_some.mp hrow
    · intro stored hold hread
      have hrow := h.trans (readRow_eq_some.mpr ⟨stored, hold, hread, rfl⟩)
      obtain ⟨same, hsame, hversion, -⟩ := readRow_eq_some.mp hrow
      cases hsame
      exact hversion
  · intro h
    refine Option.ext fun row => ?_
    rw [readRow_eq_some, readRow_eq_some]
    constructor
    · rintro ⟨same, hsame, hread, rfl⟩
      cases hsame
      exact h.late hread
    · rintro ⟨stored, hold, hread, rfl⟩
      have hversion := h.rewritten stored hold hread
      obtain ⟨stored', hold', -, houtcome⟩ := h.late hversion
      rw [hold] at hold'
      cases hold'
      exact ⟨version, rfl, hversion, houtcome.symm⟩

theorem mem_fetchFinalLabels {table : OutcomeTable} {row : ListingOutcome} :
    row ∈ fetchFinalLabels config asOf table ↔
      readRow config asOf (table.get? row.key) = some row := by
  rw [fetchFinalLabels, mem_sortOn, List.mem_map, readRow_eq_some]
  constructor
  · rintro ⟨stored, hmem, rfl⟩
    obtain ⟨hvalue, hread⟩ := List.mem_filter.mp hmem
    obtain ⟨⟨key, stored⟩, hitem, rfl⟩ := List.mem_map.mp hvalue
    have hget := OrderedDict.get?_eq_some.mpr hitem
    refine ⟨stored, ?_, of_decide_eq_true hread, rfl⟩
    rw [table.keyed key stored hget]
    exact hget
  · rintro ⟨stored, hget, hread, rfl⟩
    refine ⟨stored, List.mem_filter.mpr ⟨?_, decide_eq_true hread⟩, rfl⟩
    exact List.mem_map.mpr ⟨_, OrderedDict.get?_eq_some.mp hget, rfl⟩

/-- A read returns a listing once. -/
theorem nodup_readRows (table : OutcomeTable) :
    (((table.rows.items.map Prod.snd).filter fun stored =>
      ReadAsOf config asOf stored).map StoredOutcome.outcome).Nodup := by
  have hkeys : (table.rows.items.map Prod.snd).map (fun stored => stored.outcome.key)
      = table.rows.items.map Prod.fst := by
    rw [List.map_map]
    refine List.map_congr_left fun item hitem => ?_
    exact table.keyed item.1 item.2 (OrderedDict.get?_eq_some.mpr hitem)
  have hnodup : ((table.rows.items.map Prod.snd).map fun stored => stored.outcome.key).Nodup := by
    rw [hkeys]
    exact table.rows.nodupKeys
  refine .of_map ListingOutcome.key ?_
  rw [List.map_map]
  exact hnodup.sublist (List.filter_sublist.map _)

/-- Two tables read the same exactly if each of their rows does. -/
theorem fetchFinalLabels_eq_iff {table table' : OutcomeTable} :
    fetchFinalLabels config asOf table = fetchFinalLabels config asOf table' ↔
      ∀ key, readRow config asOf (table.get? key) = readRow config asOf (table'.get? key) := by
  constructor
  · intro h key
    have hside : ∀ t t' : OutcomeTable,
        fetchFinalLabels config asOf t = fetchFinalLabels config asOf t' → ∀ row,
        readRow config asOf (t.get? key) = some row →
          readRow config asOf (t'.get? key) = some row := by
      intro t t' hfetch row hrow
      obtain ⟨stored, hget, -, rfl⟩ := readRow_eq_some.mp hrow
      have hkey := t.keyed key stored hget
      rw [← hkey] at hrow ⊢
      rw [← mem_fetchFinalLabels, ← hfetch, mem_fetchFinalLabels]
      exact hrow
    exact Option.ext fun row => ⟨hside table table' h row, hside table' table h.symm row⟩
  · intro h
    refine sortOn_eq_of_perm ?_ ?_
    · intro row hrow row' hrow' horder
      have hread := mem_fetchFinalLabels.mp (mem_sortOn.mpr hrow)
      have hread' := mem_fetchFinalLabels.mp (mem_sortOn.mpr hrow')
      -- one venue and version, so the listing is the key
      have hkey : row.key = row'.key := by
        obtain ⟨_, -, hof, rfl⟩ := readRow_eq_some.mp hread
        obtain ⟨_, -, hof', rfl⟩ := readRow_eq_some.mp hread'
        have hlisting := congrArg Prod.snd (toLex.injective horder)
        dsimp only at hlisting
        rw [ListingOutcome.key, ListingOutcome.key, hof.1.1, hof.1.2, hof'.1.1, hof'.1.2, hlisting]
      rw [hkey, hread'] at hread
      exact (Option.some.inj hread).symm
    · refine (List.perm_ext_iff_of_nodup (nodup_readRows table) (nodup_readRows table')).mpr
        fun row => ?_
      have hmem := @mem_fetchFinalLabels config asOf table row
      have hmem' := @mem_fetchFinalLabels config asOf table' row
      rw [fetchFinalLabels, mem_sortOn] at hmem hmem'
      rw [hmem, hmem', h]

end

/-! ## What a step does -/

namespace LabelStore

@[simp] theorem clock_setSave (st : LabelStore) (id : Nat) (save : OpenSave) :
    (st.setSave id save).clock = st.clock := rfl

@[simp] theorem table_setSave (st : LabelStore) (id : Nat) (save : OpenSave) :
    (st.setSave id save).table = st.table := rfl

@[simp] theorem clock_close (st : LabelStore) (id : Nat) : (st.close id).clock = st.clock := rfl

@[simp] theorem table_close (st : LabelStore) (id : Nat) : (st.close id).table = st.table := rfl

/-- What each event does, by the state of its save. -/
inductive Stepped (st : LabelStore) : StoreEvent → LabelStore → Prop where
  | advance {now} : st.clock ≤ now → Stepped st (.advance now) { st with clock := now }
  | start {id finalCutoff rows} : st.saves id = none →
      Stepped st (.start id finalCutoff rows) (st.setSave id
        ⟨finalCutoff, st.clock, none, chunksOf upsertChunkSize rows, none, .empty⟩)
  | makeStatement {id save chunk chunks} : st.saves id = some save → save.chunks = chunk :: chunks →
      Stepped st (.makeStatement id) (st.setSave id
        { save with chunks := chunks, statement := some ⟨st.clock, false, chunk, []⟩ })
  | sendStatement {id save statement} : st.saves id = some save →
      save.statement = some statement →
      Stepped st (.sendStatement id) (st.setSave id
        { save with
          begunAt := some (save.begunAt.getD st.clock)
          statement := some { statement with sent := true } })
  | upsert {id save statement insertedAt row rest locks} : st.saves id = some save →
      save.statement = some statement → save.begunAt = some insertedAt →
      statement.rows = row :: rest → st.locks.acquire? id row.key = some locks →
      Stepped st (.upsert id) (st.upsertRow id save statement insertedAt row rest locks)
  | commit {id save} : st.saves id = some save →
      Stepped st (.commit id) ({ st with table := st.table.merge save.writes }.close id)
  | abort {id} : Stepped st (.abort id) (st.close id)

theorem step_cases {st st' : LabelStore} {event : StoreEvent} (h : st.step event = some st') :
    Stepped st event st' := by
  cases event with
  | advance now =>
      simp only [step] at h
      split at h
      · rename_i hclock
        cases h
        exact .advance hclock
      · cases h
  | start id finalCutoff rows =>
      simp only [step] at h
      split at h
      · cases h
      · rename_i hsave
        cases h
        exact .start hsave
  | makeStatement id =>
      simp only [step] at h
      split at h
      · cases h
      · rename_i save hsave
        split at h
        · cases h
        · rename_i chunk chunks hchunks
          split at h
          · cases h
            exact .makeStatement hsave hchunks
          · cases h
  | sendStatement id =>
      simp only [step] at h
      split at h
      · cases h
      · rename_i save hsave
        split at h
        · cases h
        · rename_i statement hstatement
          split at h
          · cases h
          · cases h
            exact .sendStatement hsave hstatement
  | upsert id =>
      simp only [step] at h
      split at h
      · cases h
      · rename_i save hsave
        split at h
        · rename_i statement insertedAt hstatement hbegun
          split at h
          · rename_i row rest _ hrows
            obtain ⟨locks, hlocks, rfl⟩ := Option.map_eq_some_iff.mp h
            exact .upsert hsave hstatement hbegun hrows hlocks
          · cases h
        · cases h
  | commit id =>
      simp only [step] at h
      split at h
      · cases h
      · rename_i save hsave
        split at h
        · cases h
          exact .commit hsave
        · cases h
  | abort id =>
      simp only [step] at h
      split at h
      · cases h
      · cases h
        exact .abort

/-- An upsert writes to the save, not to the table. -/
theorem upsertRow_frame (st : LabelStore) (id : Nat) (save : OpenSave) (statement : SaveStatement)
    (insertedAt : Int) (row : ListingOutcome) (rest : List ListingOutcome)
    (locks : Locks OutcomeKey) :
    (st.upsertRow id save statement insertedAt row rest locks).table = st.table ∧
      (st.upsertRow id save statement insertedAt row rest locks).clock = st.clock := by
  rw [upsertRow]
  split
  · exact ⟨rfl, rfl⟩
  · split <;> exact ⟨rfl, rfl⟩

theorem clock_le_of_step {st st' : LabelStore} {event : StoreEvent}
    (h : st.step event = some st') : st.clock ≤ st'.clock := by
  cases step_cases h with
  | advance hclock => exact hclock
  | upsert => exact (upsertRow_frame ..).2.symm.le
  | start | makeStatement | sendStatement | commit | abort => exact Int.le_refl _

/-- Only a commit changes the table. -/
theorem table_of_step {st st' : LabelStore} {event : StoreEvent} (h : st.step event = some st') :
    (st'.table = st.table ∧ ∀ id, event ≠ .commit id) ∨
      ∃ id save, event = .commit id ∧ st.saves id = some save ∧
        st'.table = st.table.merge save.writes := by
  cases step_cases h with
  | commit hsave => exact .inr ⟨_, _, rfl, hsave, rfl⟩
  | upsert => exact .inl ⟨(upsertRow_frame ..).1, nofun⟩
  | advance | start | makeStatement | sendStatement | abort => exact .inl ⟨rfl, nofun⟩

end LabelStore

/-! ## Reads after a moment -/

section
variable {config : LabelConfig} {asOf : Int}

/-- A commit changes no read exactly if each of its versions keeps what is read. -/
theorem fetchFinalLabels_merge_iff {table writes : OutcomeTable} :
    fetchFinalLabels config asOf (table.merge writes) = fetchFinalLabels config asOf table ↔
      ∀ key version, writes.get? key = some version →
        KeepsRead config asOf (table.get? key) version := by
  rw [fetchFinalLabels_eq_iff]
  constructor
  · intro h key version hwrite
    have hkey := h key
    rw [OutcomeTable.get?_merge, hwrite, Option.some_or] at hkey
    exact readRow_eq_iff.mp hkey
  · intro h key
    rw [OutcomeTable.get?_merge]
    cases hwrite : writes.get? key with
    | none => rw [Option.none_or]
    | some version => exact readRow_eq_iff.mpr (h key version hwrite)

/-- A step after the moment keeps the read exactly if it is no commit that changes it. -/
theorem fetchFinalLabels_step_iff {st st' : LabelStore} {event : StoreEvent}
    (h : st.step event = some st') (hafter : asOf < st.clock) :
    fetchFinalLabels config asOf st'.table = fetchFinalLabels config asOf st.table ↔
      CommitsKept config asOf st event := by
  rcases LabelStore.table_of_step h with ⟨htable, hevent⟩ | ⟨id, save, rfl, hsave, htable⟩
  · rw [htable]
    exact iff_of_true rfl fun id save heq => absurd heq (hevent id)
  · rw [htable, fetchFinalLabels_merge_iff]
    constructor
    · intro hkeeps id' save' heq _ hsave'
      cases heq
      rw [hsave] at hsave'
      cases hsave'
      exact hkeeps
    · intro hkept
      exact hkept id save rfl hafter hsave

/-- Reads after the moment agree while every commit keeps what they return. -/
theorem readsAgree_of_commitsKept {start : LabelStore} {events : List StoreEvent}
    (hkept : AllSteps LabelStore.step (CommitsKept config asOf) start events) :
    ReadsAgree config asOf start events := by
  intro before between st st' hprefix hst hst' hafter
  have hsteps := (hkept.of_prefix hprefix).of_append hst
  refine (runFrom_inv_of_allSteps (fun s => asOf < s.clock ∧
    fetchFinalLabels config asOf st.table = fetchFinalLabels config asOf s.table)
    (CommitsKept config asOf) ?_ hsteps ⟨hafter, rfl⟩ hst').2
  rintro s event s' ⟨hclock, hsame⟩ hok hs'
  have hle := LabelStore.clock_le_of_step hs'
  exact ⟨by omega, hsame.trans ((fetchFinalLabels_step_iff hs' hclock).mpr hok).symm⟩

/-- Reads as of a moment, made after it, agree in a run exactly if no save that commits after the
moment brings a row that counts as written by then, or overwrites a row that a read had. -/
theorem readsAgree_iff {start final : LabelStore} {events : List StoreEvent}
    (h : runFrom LabelStore.step start events = some final) :
    ReadsAgree config asOf start events ↔
      AllSteps LabelStore.step (CommitsKept config asOf) start events := by
  constructor
  · intro hagree before event mid hprefix hmid id save heq hafter hsave
    obtain ⟨last, hlast⟩ := runFrom_of_prefix h hprefix
    have hstep : mid.step event = some last := by
      rw [runFrom_concat, hmid] at hlast
      exact hlast
    have hread := hagree before [event] mid last hprefix hmid (by simp [runFrom, hstep]) hafter
    exact (fetchFinalLabels_step_iff hstep hafter).mp hread.symm id save heq hafter hsave
  · exact readsAgree_of_commitsKept

end

/-! ## Saves that start later -/

/-- What commits after `asOf` started after it, for a run as of `asOf` or later. -/
def CommitsLater (config : LabelConfig) (asOf : Int) (st : LabelStore) : StoreEvent → Prop
  | .commit id => asOf < st.clock → ∀ save, st.saves id = some save →
      asOf < save.startedAt ∧ config.finalBefore asOf ≤ save.finalCutoff
  | _ => True

instance (config : LabelConfig) (asOf : Int) (st : LabelStore) :
    ∀ event, Decidable (CommitsLater config asOf st event)
  | .commit id => inferInstanceAs
      (Decidable (_ → ∀ save, save ∈ st.saves id → asOf < save.startedAt ∧ _))
  | .advance _ | .start _ _ _ | .makeStatement _ | .sendStatement _ | .upsert _ | .abort _ =>
      .isTrue trivial

/-- What an open save keeps: its times are not before its start, and a row it writes is locked, and
if stored not final for it. -/
structure SaveKept (st : LabelStore) (id : Nat) (save : OpenSave) : Prop where
  started : save.startedAt ≤ st.clock
  stamped : ∀ statement, save.statement = some statement → save.startedAt ≤ statement.now
  begun : ∀ t, save.begunAt = some t → save.startedAt ≤ t
  held : ∀ key version, save.writes.get? key = some version → (id, key) ∈ st.locks
  written : ∀ key version, save.writes.get? key = some version → save.startedAt ≤ version.labeledAt
  replaced : ∀ key version, save.writes.get? key = some version → ∀ stored,
    st.table.get? key = some stored → save.finalCutoff < stored.outcome.labelAvailableAt

structure StoreKept (st : LabelStore) : Prop where
  exclusive : st.locks.Exclusive
  saves : ∀ id save, st.saves id = some save → SaveKept st id save

/-- A store with no save under way. -/
def LabelStore.atRest (clock : Int) (table : OutcomeTable) : LabelStore :=
  ⟨clock, table, fun _ => none, []⟩

theorem storeKept_atRest (clock : Int) (table : OutcomeTable) :
    StoreKept (.atRest clock table) :=
  ⟨Locks.exclusive_nil, fun _ _ h => by cases h⟩

section
variable {st : LabelStore}

/-- A save goes on: the others are as they were. -/
theorem StoreKept.setSave {locks : Locks OutcomeKey} (h : StoreKept st) (hexclusive : locks.Exclusive)
    (hlocks : ∀ l ∈ st.locks, l ∈ locks) {id : Nat} {save : OpenSave}
    (hsave : SaveKept { st with locks := locks } id save) :
    StoreKept ({ st with locks := locks }.setSave id save) := by
  refine ⟨hexclusive, fun other save' hother => ?_⟩
  by_cases hid : other = id
  · subst hid
    have hsame : some save = some save' := by
      rw [← hother]
      simp [LabelStore.setSave]
    cases hsame
    exact ⟨hsave.started, hsave.stamped, hsave.begun, hsave.held, hsave.written, hsave.replaced⟩
  · have hold : st.saves other = some save' := by
      rw [← hother]
      exact (Function.update_of_ne hid (some save) st.saves).symm
    have hkept := h.saves other save' hold
    exact ⟨hkept.started, hkept.stamped, hkept.begun,
      fun key version hwrite => hlocks _ (hkept.held key version hwrite), hkept.written,
      hkept.replaced⟩

/-- A save is over: the others hold their own rows. -/
theorem StoreKept.close {table : OutcomeTable} (h : StoreKept st) {id : Nat}
    (htable : ∀ other save key version, other ≠ id → st.saves other = some save →
      save.writes.get? key = some version → table.get? key = st.table.get? key) :
    StoreKept ({ st with table := table }.close id) := by
  refine ⟨h.exclusive.release id, fun other save hother => ?_⟩
  have hid : other ≠ id := by
    rintro rfl
    have hnone : none = some save := by
      rw [← hother]
      exact (Function.update_self other none st.saves).symm
    cases hnone
  have hold : st.saves other = some save := by
    rw [← hother]
    exact (Function.update_of_ne hid none st.saves).symm
  have hkept := h.saves other save hold
  refine ⟨hkept.started, hkept.stamped, hkept.begun, ?_, hkept.written, ?_⟩
  · intro key version hwrite
    exact Locks.mem_release.mpr ⟨hkept.held key version hwrite, hid⟩
  · intro key version hwrite stored hstored
    refine hkept.replaced key version hwrite stored ?_
    rw [← htable other save key version hid hold hwrite]
    exact hstored

/-- What the upsert of a row keeps: the version it writes is stamped by the save, and takes the
place of one that is not final for it. -/
theorem SaveKept.write {locks : Locks OutcomeKey} {id : Nat} {save : OpenSave}
    {statement : SaveStatement} {insertedAt : Int} {row : ListingOutcome} {version : StoredOutcome}
    (h : SaveKept st id save) (hlocks : locks = (id, row.key) :: st.locks)
    (hstatement : save.statement = some statement) (hbegun : save.begunAt = some insertedAt)
    (hversion : upsertVersion save.finalCutoff insertedAt statement.now
      ((save.writes.get? row.key).or (st.table.get? row.key)) row = some version)
    {rows : List ListingOutcome} {touched : List OutcomeKey} :
    SaveKept { st with locks := locks } id
      { save with
        statement := some { statement with rows := rows, touched := touched }
        writes := save.writes.write version } := by
  have houtcome := outcome_upsertVersion hversion
  have hstamped : save.startedAt ≤ version.labeledAt := by
    cases hcurrent : (save.writes.get? row.key).or (st.table.get? row.key) with
    | none =>
        rw [hcurrent, upsertVersion] at hversion
        cases hversion
        exact h.begun insertedAt hbegun
    | some current =>
        rw [hcurrent, upsertVersion] at hversion
        split at hversion
        · cases hversion
          exact h.stamped statement hstatement
        · cases hversion
  refine ⟨h.started, ?_, h.begun, ?_, ?_, ?_⟩
  · intro same hsame
    cases hsame
    exact h.stamped statement hstatement
  · intro key version' hwrite
    dsimp only at hwrite ⊢
    rw [hlocks]
    rw [OutcomeTable.get?_write, houtcome] at hwrite
    split at hwrite
    · rename_i hkey
      rw [hkey]
      exact List.mem_cons_self
    · exact List.mem_cons_of_mem _ (h.held key version' hwrite)
  · intro key version' hwrite
    dsimp only at hwrite ⊢
    rw [OutcomeTable.get?_write] at hwrite
    split at hwrite
    · cases hwrite
      exact hstamped
    · exact h.written key version' hwrite
  · intro key version' hwrite stored hstored
    dsimp only at hwrite hstored ⊢
    rw [OutcomeTable.get?_write, houtcome] at hwrite
    split at hwrite
    · rename_i hkey
      subst hkey
      cases hown : save.writes.get? row.key with
      | some own => exact h.replaced row.key own hown stored hstored
      | none =>
          rw [hown, Option.none_or, hstored, upsertVersion, mayUpdate] at hversion
          split at hversion
          · rename_i hmay
            rw [Bool.and_eq_true, decide_eq_true_eq, decide_eq_true_eq] at hmay
            exact hmay.2
          · cases hversion
    · exact h.replaced key version' hwrite stored hstored

theorem StoreKept.step {st' : LabelStore} {event : StoreEvent} (h : StoreKept st)
    (hstep : st.step event = some st') : StoreKept st' := by
  cases LabelStore.step_cases hstep with
  | advance hclock =>
      refine ⟨h.exclusive, fun id save hsave => ?_⟩
      have hkept := h.saves id save hsave
      exact ⟨hkept.started.trans hclock, hkept.stamped, hkept.begun, hkept.held, hkept.written,
        hkept.replaced⟩
  | start hsave =>
      refine h.setSave h.exclusive (fun _ hl => hl) ?_
      exact ⟨Int.le_refl _, fun _ hs => (by cases hs), fun _ ht => (by cases ht),
        fun _ _ hwrite => (by cases hwrite), fun _ _ hwrite => (by cases hwrite),
        fun _ _ hwrite => (by cases hwrite)⟩
  | @makeStatement id save chunk chunks hsave hchunks =>
      have hkept := h.saves id save hsave
      refine h.setSave h.exclusive (fun _ hl => hl) ?_
      refine ⟨hkept.started, fun statement hstatement => ?_, hkept.begun, hkept.held, hkept.written,
        hkept.replaced⟩
      cases hstatement
      exact hkept.started
  | @sendStatement id save statement hsave hstatement =>
      have hkept := h.saves id save hsave
      refine h.setSave h.exclusive (fun _ hl => hl) ?_
      refine ⟨hkept.started, fun same hsame => ?_, fun t ht => ?_, hkept.held, hkept.written,
        hkept.replaced⟩
      · cases hsame
        exact hkept.stamped statement hstatement
      · cases ht
        dsimp only
        cases hbegun : save.begunAt with
        | none => exact hkept.started
        | some t => exact hkept.begun t hbegun
  | @upsert id save statement insertedAt row rest locks hsave hstatement hbegun hrows hacquire =>
      have hkept := h.saves id save hsave
      have hlocks := (Locks.acquire?_eq_some hacquire).1
      have hall : ∀ l ∈ st.locks, l ∈ locks := by
        intro l hl
        rw [hlocks]
        exact List.mem_cons_of_mem _ hl
      rw [LabelStore.upsertRow]
      split
      · exact @StoreKept.close st st.table h id fun _ _ _ _ _ _ _ => rfl
      · split
        · refine h.setSave (h.exclusive.acquire? hacquire) hall ?_
          refine ⟨hkept.started, fun same hsame => ?_, hkept.begun,
            fun key version hwrite => hall _ (hkept.held key version hwrite), hkept.written,
            hkept.replaced⟩
          cases hsame
          exact hkept.stamped statement hstatement
        · rename_i version hversion
          refine h.setSave (h.exclusive.acquire? hacquire) hall ?_
          exact hkept.write hlocks hstatement hbegun hversion
  | @commit id save hsave =>
      refine @StoreKept.close st (st.table.merge save.writes) h id ?_
      intro other save' key version hid hother hwrite
      -- the other save holds this row, so the committed one did not write it
      rw [OutcomeTable.get?_merge]
      cases hown : save.writes.get? key with
      | none => rw [Option.none_or]
      | some own =>
          have hlock := (h.saves other save' hother).held key version hwrite
          have hlock' := (h.saves id save hsave).held key own hown
          exact absurd (h.exclusive _ hlock _ hlock' rfl) hid
  | @abort id => exact @StoreKept.close st st.table h id fun _ _ _ _ _ _ _ => rfl

/-- A save that started after the moment, of a run as of it or later, keeps what is read. -/
theorem StoreKept.commitsKept {config : LabelConfig} {asOf : Int} (h : StoreKept st)
    {event : StoreEvent} (hlater : CommitsLater config asOf st event) :
    CommitsKept config asOf st event := by
  rintro id save rfl hafter hsave key version hwrite
  obtain ⟨hstarted, hcutoff⟩ := hlater hafter save hsave
  have hkept := h.saves id save hsave
  constructor
  · intro hread
    have hstamped := hkept.written key version hwrite
    have hbefore := hread.2.2
    omega
  · intro stored hstored hread
    have hopen := hkept.replaced key version hwrite stored hstored
    have hfinal := hread.2.1
    omega

/-- Saves of runs as of the moment or later, started after it, keep every read of the run. -/
theorem StoreKept.allCommitsKept {config : LabelConfig} {asOf : Int} {events : List StoreEvent}
    (h : StoreKept st) (hlater : AllSteps LabelStore.step (CommitsLater config asOf) st events) :
    AllSteps LabelStore.step (CommitsKept config asOf) st events := by
  intro before event mid hprefix hmid
  have hmidKept := runFrom_inv StoreKept (fun _ _ _ hs hstep => hs.step hstep) h hmid
  exact hmidKept.commitsKept (hlater before event mid hprefix hmid)

end

/-- Where every save that commits after the moment started after it, for a run as of the moment or
later, reads after the moment agree, whatever the saves write. -/
theorem readsAgree_of_laterSaves {config : LabelConfig} {asOf clock : Int} {table : OutcomeTable}
    {events : List StoreEvent}
    (hlater : AllSteps LabelStore.step (CommitsLater config asOf) (.atRest clock table) events) :
    ReadsAgree config asOf (.atRest clock table) events :=
  readsAgree_of_commitsKept ((storeKept_atRest clock table).allCommitsKept hlater)

/-- The events of a save of one row up to its commit. -/
def saveEvents (id : Nat) (asOf : Int) (row : ListingOutcome) : List StoreEvent :=
  [.start id (dmarketLabels.finalBefore (seconds asOf)) [row], .makeStatement id, .sendStatement id,
    .upsert id]

/-- A save of the knife's label before second 1700000, and one of another listing after it. -/
def laterSavesRun : List StoreEvent :=
  saveEvents 0 1600000 knifeOutcome ++ [.commit 0, .advance (seconds 1700001)] ++
    saveEvents 1 1700001 { knifeOutcome with listingId := "o-2" } ++ [.commit 1]

theorem readsAgree_of_laterSaves_twoRuns :
    ReadsAgree dmarketLabels (seconds 1700000) (.atRest (seconds 1600001) .empty) laterSavesRun :=
  readsAgree_of_laterSaves (.of_check (by decide +kernel))

/-- What a read after the events returns. -/
def readAfter (asOf : Int) (start : LabelStore) (events : List StoreEvent) :
    Option (List ListingOutcome) :=
  (runFrom LabelStore.step start events).map fun st =>
    fetchFinalLabels dmarketLabels asOf st.table

theorem not_readsAgree_of_readAfter {asOf : Int} {start : LabelStore} {before after : List StoreEvent}
    {first second : List ListingOutcome} (hfirst : readAfter asOf start before = some first)
    (hsecond : readAfter asOf start (before ++ after) = some second) (hdiffer : first ≠ second)
    (hafter : ((runFrom LabelStore.step start before).all fun st => decide (asOf < st.clock))
      = true) :
    ¬ ReadsAgree dmarketLabels asOf start (before ++ after) := by
  intro h
  obtain ⟨st, hst, rfl⟩ := Option.map_eq_some_iff.mp hfirst
  obtain ⟨st', hst', rfl⟩ := Option.map_eq_some_iff.mp hsecond
  rw [runFrom_append, hst, Option.bind_some] at hst'
  rw [hst, Option.all_some, decide_eq_true_eq] at hafter
  exact hdiffer (h before after st st' (List.prefix_refl _) hst hst' hafter)

/-- Reads as of second 2000000. A save that began ten seconds before it commits after the first
read. And a row that a read had is rewritten by a run as of an earlier moment. -/
theorem not_readsAgree_lateCommit :
    ¬ ReadsAgree dmarketLabels (seconds 2000000) (.atRest (seconds 1999990) .empty)
        (saveEvents 0 1999990 knifeOutcome ++ [.advance (seconds 2000001)] ++ [.commit 0]) ∧
      ¬ ReadsAgree dmarketLabels (seconds 2000000)
        (.atRest (seconds 2000001) (runCalls .empty [knifeCall]))
        ([] ++ (saveEvents 0 1600000 knifeOutcome ++ [.commit 0])) := by
  constructor
  · exact @not_readsAgree_of_readAfter _ _ _ _ [] [knifeOutcome] (by decide +kernel)
      (by decide +kernel) (by decide) (by decide +kernel)
  · exact @not_readsAgree_of_readAfter _ _ _ _ [knifeOutcome] [] (by decide +kernel)
      (by decide +kernel) (by decide) (by decide +kernel)

end BrandSniper.Labels
