import BrandSniper.Analytics.LabelRanges
import BrandSniper.Kit.Pages

/-!
# The label store

`save_outcomes` of `apps/analytics/outcome_data.py`: the conditional upsert of
a window's labels into `listing_outcomes`, in chunks of one transaction.

A final row stays as it is. As long as no row is final for a run, the upsert
keeps the row of a listing's earliest sighting, so the table depends on which
rows were saved and not on their order (`finalAndConvergent_of_run`).
-/

namespace BrandSniper.Labels

open Kit

/-! ## The table -/

/-- The primary key of `listing_outcomes`. -/
abbrev OutcomeKey := String × String × String

def ListingOutcome.key (row : ListingOutcome) : OutcomeKey :=
  (row.venue, row.listingId, row.labelVersion)

/-- A stored row: the label and when it was written. -/
structure StoredOutcome where
  outcome : ListingOutcome
  labeledAt : Int
  deriving DecidableEq

/-- The table; a row is stored under its own key. -/
structure OutcomeTable where
  rows : OrderedDict OutcomeKey StoredOutcome
  keyed : ∀ key stored, rows.get? key = some stored → stored.outcome.key = key

namespace OutcomeTable

def empty : OutcomeTable := ⟨.empty, fun _ stored h => absurd h (Option.some_ne_none stored).symm⟩

def get? (table : OutcomeTable) (key : OutcomeKey) : Option StoredOutcome := table.rows.get? key

theorem keyed_write (table : OutcomeTable) (version : StoredOutcome) (key : OutcomeKey)
    (stored : StoredOutcome) (h : (table.rows.set version.outcome.key version).get? key = some stored) :
    stored.outcome.key = key := by
  rw [OrderedDict.get?_set] at h
  split at h
  · rename_i hkey
    cases h
    exact hkey
  · exact table.keyed key stored h

/-- The version in place of the one stored under its key. -/
def write (table : OutcomeTable) (version : StoredOutcome) : OutcomeTable :=
  ⟨table.rows.set version.outcome.key version, table.keyed_write version⟩

theorem get?_write (table : OutcomeTable) (version : StoredOutcome) (key : OutcomeKey) :
    (table.write version).get? key
      = if version.outcome.key = key then some version else table.get? key :=
  OrderedDict.get?_set _ _ _ _

end OutcomeTable

/-- `_UPSERT_CHUNK_SIZE` -/
def upsertChunkSize : Nat := 1000

/-- `ON CONFLICT DO UPDATE command cannot affect row a second time` -/
inductive DatabaseError where
  | cardinalityViolation
  deriving DecidableEq

/-- The `where` of the upsert. -/
def mayUpdate (finalCutoff : Int) (stored new : ListingOutcome) : Bool :=
  decide (new.listedAt ≤ stored.listedAt) && decide (finalCutoff < stored.labelAvailableAt)

/-- The version an upsert writes over the current one, if any: an insert takes the time its
transaction began, an update the time its statement was made. -/
def upsertVersion (finalCutoff insertedAt now : Int) (current : Option StoredOutcome)
    (row : ListingOutcome) : Option StoredOutcome :=
  match current with
  | none => some ⟨row, insertedAt⟩
  | some stored => if mayUpdate finalCutoff stored.outcome row then some ⟨row, now⟩ else none

/-- What a statement has done so far: the table, and the rows it wrote. -/
structure Upsert where
  table : OutcomeTable
  touched : List OutcomeKey

def upsertRow (finalCutoff insertedAt now : Int) (done : Upsert) (row : ListingOutcome) :
    Except DatabaseError Upsert :=
  if row.key ∈ done.touched then .error .cardinalityViolation
  else match upsertVersion finalCutoff insertedAt now (done.table.get? row.key) row with
    | none => .ok done
    | some version => .ok ⟨done.table.write version, row.key :: done.touched⟩

/-- One statement for each chunk, made at a time of its own; the number of rows written. -/
def saveChunks (finalCutoff insertedAt : Int) :
    List (Int × List ListingOutcome) → OutcomeTable → Except DatabaseError (OutcomeTable × Nat)
  | [], table => .ok (table, 0)
  | (now, chunk) :: rest, table => do
      let done ← chunk.foldlM (upsertRow finalCutoff insertedAt now) ⟨table, []⟩
      let (saved, written) ← saveChunks finalCutoff insertedAt rest done.table
      .ok (saved, done.touched.length + written)

/-- `rows[chunk_start : chunk_start + size] for chunk_start in range(0, len(rows), size)` -/
def chunksOf (size : Nat) (rows : List ListingOutcome) : List (List ListingOutcome) :=
  (List.range ((rows.length + size - 1) / size)).map fun i => (rows.drop (size * i)).take size

/-- `save_outcomes` in a transaction that began at `insertedAt`, with the clock at each
statement. -/
def saveOutcomes (insertedAt : Int) (clock : Nat → Int) (rows : List ListingOutcome)
    (finalCutoff : Int) (table : OutcomeTable) : Except DatabaseError (OutcomeTable × Nat) :=
  saveChunks finalCutoff insertedAt
    ((chunksOf upsertChunkSize rows).zipIdx.map fun chunk => (clock chunk.2, chunk.1)) table

/-! ## Calls -/

/-- A call of a labeler run. Its rows are of distinct listings. -/
structure SaveCall where
  rows : List ListingOutcome
  finalCutoff : Int
  insertedAt : Int
  clock : Nat → Int
  distinct : (rows.map ListingOutcome.key).Nodup

/-- A call that raises is rolled back. -/
def SaveCall.run (table : OutcomeTable) (call : SaveCall) : OutcomeTable :=
  match saveOutcomes call.insertedAt call.clock call.rows call.finalCutoff table with
  | .ok (saved, _) => saved
  | .error _ => table

/-- The table after some calls. -/
def runCalls (table : OutcomeTable) (calls : List SaveCall) : OutcomeTable :=
  calls.foldl SaveCall.run table

/-- The stored label, without the time it was written. -/
def outcomeAt (table : OutcomeTable) (key : OutcomeKey) : Option ListingOutcome :=
  (table.get? key).map StoredOutcome.outcome

/-! ## One call -/

section
variable {finalCutoff insertedAt now : Int}

theorem upsertVersion_of_final {stored : StoredOutcome} {row : ListingOutcome}
    (h : stored.outcome.labelAvailableAt ≤ finalCutoff) :
    upsertVersion finalCutoff insertedAt now (some stored) row = none := by
  rw [upsertVersion, mayUpdate, decide_eq_false (Int.not_lt.mpr h), Bool.and_false]
  rfl

theorem outcome_upsertVersion {current : Option StoredOutcome} {row : ListingOutcome}
    {version : StoredOutcome}
    (h : upsertVersion finalCutoff insertedAt now current row = some version) :
    version.outcome = row := by
  cases current with
  | none =>
      cases h
      rfl
  | some stored =>
      rw [upsertVersion] at h
      split at h
      · cases h
        rfl
      · cases h

/-- What a statement over rows of distinct listings does to the table. -/
structure Upserted (finalCutoff insertedAt : Int) (rows : List ListingOutcome)
    (table saved : OutcomeTable) : Prop where
  others : ∀ key, key ∉ rows.map ListingOutcome.key → saved.get? key = table.get? key
  each : ∀ row ∈ rows, ∃ now, saved.get? row.key
    = (upsertVersion finalCutoff insertedAt now (table.get? row.key) row).or (table.get? row.key)

theorem Upserted.nil (table : OutcomeTable) : Upserted finalCutoff insertedAt [] table table :=
  ⟨fun _ _ => rfl, fun _ h => absurd h List.not_mem_nil⟩

theorem Upserted.append {rows rows' : List ListingOutcome} {table middle saved : OutcomeTable}
    (hdistinct : ((rows ++ rows').map ListingOutcome.key).Nodup)
    (h : Upserted finalCutoff insertedAt rows table middle)
    (h' : Upserted finalCutoff insertedAt rows' middle saved) :
    Upserted finalCutoff insertedAt (rows ++ rows') table saved := by
  rw [List.map_append, List.nodup_append] at hdistinct
  obtain ⟨-, -, hdisjoint⟩ := hdistinct
  constructor
  · intro key hkey
    rw [List.map_append, List.mem_append, not_or] at hkey
    rw [h'.others key hkey.2, h.others key hkey.1]
  · intro row hrow
    rcases List.mem_append.mp hrow with hrow | hrow
    · have hkey : row.key ∉ rows'.map ListingOutcome.key := fun hmem =>
        hdisjoint row.key (List.mem_map_of_mem hrow) row.key hmem rfl
      rw [h'.others row.key hkey]
      exact h.each row hrow
    · have hkey : row.key ∉ rows.map ListingOutcome.key := fun hmem =>
        hdisjoint row.key hmem row.key (List.mem_map_of_mem hrow) rfl
      rw [← h.others row.key hkey]
      exact h'.each row hrow

theorem upserted_row {done : Upsert} {row : ListingOutcome} (h : row.key ∉ done.touched) :
    ∃ saved, upsertRow finalCutoff insertedAt now done row = .ok saved ∧
      Upserted finalCutoff insertedAt [row] done.table saved.table ∧
      ∀ key ∈ saved.touched, key = row.key ∨ key ∈ done.touched := by
  rw [upsertRow, if_neg h]
  cases hversion : upsertVersion finalCutoff insertedAt now (done.table.get? row.key) row with
  | none =>
      refine ⟨done, rfl, ⟨fun _ _ => rfl, fun other hother => ?_⟩, fun _ hkey => .inr hkey⟩
      cases List.mem_singleton.mp hother
      exact ⟨now, by rw [hversion, Option.none_or]⟩
  | some version =>
      have houtcome := outcome_upsertVersion hversion
      refine ⟨_, rfl, ⟨fun key hkey => ?_, fun other hother => ?_⟩, fun _ => List.mem_cons.mp⟩
      · rw [OutcomeTable.get?_write, houtcome, if_neg]
        rintro rfl
        exact hkey (by simp)
      · cases List.mem_singleton.mp hother
        exact ⟨now, by rw [OutcomeTable.get?_write, houtcome, if_pos rfl, hversion, Option.some_or]⟩

theorem upserted_chunk {rows : List ListingOutcome} {done : Upsert}
    (hdistinct : (rows.map ListingOutcome.key).Nodup)
    (htouched : ∀ row ∈ rows, row.key ∉ done.touched) :
    ∃ saved, rows.foldlM (upsertRow finalCutoff insertedAt now) done = .ok saved ∧
      Upserted finalCutoff insertedAt rows done.table saved.table := by
  induction rows generalizing done with
  | nil => exact ⟨done, rfl, .nil done.table⟩
  | cons row rest ih =>
      obtain ⟨middle, hok, hrow, hnext⟩ := @upserted_row finalCutoff insertedAt now done row
        (htouched row List.mem_cons_self)
      rw [List.map_cons, List.nodup_cons] at hdistinct
      have huntouched : ∀ other ∈ rest, other.key ∉ middle.touched := by
        intro other hother hkey
        rcases hnext other.key hkey with heq | hkey
        · exact hdistinct.1 (heq ▸ List.mem_map_of_mem hother)
        · exact htouched other (List.mem_cons_of_mem _ hother) hkey
      obtain ⟨saved, hrest, hsaved⟩ := ih hdistinct.2 huntouched
      refine ⟨saved, ?_, hrow.append ?_ hsaved⟩
      · rw [List.foldlM_cons, hok]
        exact hrest
      · rw [List.map_append, List.nodup_append]
        refine ⟨by simp, hdistinct.2, ?_⟩
        rintro key hkey other hother rfl
        cases List.mem_singleton.mp hkey
        exact hdistinct.1 hother

theorem upserted_chunks {chunks : List (Int × List ListingOutcome)} {table : OutcomeTable}
    (hdistinct : (((chunks.map Prod.snd).flatten).map ListingOutcome.key).Nodup) :
    ∃ saved written, saveChunks finalCutoff insertedAt chunks table = .ok (saved, written) ∧
      Upserted finalCutoff insertedAt (chunks.map Prod.snd).flatten table saved := by
  induction chunks generalizing table with
  | nil => exact ⟨table, 0, rfl, .nil table⟩
  | cons chunk rest ih =>
      obtain ⟨now, rows⟩ := chunk
      have hboth := hdistinct
      rw [List.map_cons, List.flatten_cons, List.map_append, List.nodup_append] at hboth
      obtain ⟨done, hok, hrows⟩ := @upserted_chunk finalCutoff insertedAt now rows ⟨table, []⟩
        hboth.1 fun _ _ => List.not_mem_nil
      obtain ⟨saved, written, hrest, hsaved⟩ := @ih done.table hboth.2.1
      refine ⟨saved, done.touched.length + written, ?_, hrows.append hdistinct hsaved⟩
      rw [saveChunks, hok]
      show (do
        let (saved, written) ← saveChunks finalCutoff insertedAt rest done.table
        .ok (saved, done.touched.length + written)) = _
      rw [hrest]
      rfl

end

/-- A call never raises, and does what its rows say. -/
theorem SaveCall.upserted (call : SaveCall) (table : OutcomeTable) :
    Upserted call.finalCutoff call.insertedAt call.rows table (call.run table) := by
  have hchunks : (((chunksOf upsertChunkSize call.rows).zipIdx.map fun chunk =>
      (call.clock chunk.2, chunk.1)).map Prod.snd).flatten = call.rows := by
    rw [List.map_map, show (Prod.snd ∘ fun chunk : List ListingOutcome × Nat =>
      (call.clock chunk.2, chunk.1)) = Prod.fst from rfl, List.zipIdx_map_fst]
    exact flatten_chunks (by decide) call.rows
  obtain ⟨saved, written, hok, hsaved⟩ := @upserted_chunks call.finalCutoff call.insertedAt
    ((chunksOf upsertChunkSize call.rows).zipIdx.map fun chunk => (call.clock chunk.2, chunk.1))
    table (by rw [hchunks]; exact call.distinct)
  rw [hchunks] at hsaved
  rw [SaveCall.run, saveOutcomes, hok]
  exact hsaved

/-! ## The calls of a labeler run -/

section
variable {F : Type} [DecidableEq F] {round10 : F → F} {config : LabelConfig}

/-- A run labels each listing of a window once. -/
theorem nodup_labelListings {listed : List (FeedSale F)} {sold : SoldIndex F} {cutoff : Int}
    {fees : Option ItemFees} {rows : List ListingOutcome}
    (h : labelListings round10 listed sold config cutoff fees = .ok rows) :
    (rows.map ListingOutcome.key).Nodup := by
  have hids : (rows.map ListingOutcome.listingId).Nodup := by
    rw [labelListings] at h
    cases hrows : ((((firstSightingPerListing listed).items.map Prod.snd).filter fun listing =>
        listing.seenAt ≤ cutoff).mapM fun listing =>
          labelListing round10 listing sold config fees) with
    | error e =>
        rw [hrows] at h
        cases h
    | ok labels =>
        rw [hrows] at h
        cases h
        rw [((perm_sortOn labels).map ListingOutcome.listingId).nodup_iff,
          map_of_mapM_ok (fun _ _ hlabel => (labelListing_fields hlabel).1) hrows]
        exact (nodup_keys_firstPerKey listed).sublist (List.filter_sublist.map _)
  rw [show ListingOutcome.listingId = (fun key : OutcomeKey => key.2.1) ∘ ListingOutcome.key
    from rfl, ← List.map_map] at hids
  exact .of_map _ hids

/-- What `label_window` saves. -/
def windowCall {db : LabelDatabase F} {asOf start stop : Int} {window : Int × Int}
    {rows : List ListingOutcome}
    (h : labelWindow round10 db config asOf start stop window = .ok rows) (insertedAt : Int)
    (clock : Nat → Int) : SaveCall where
  rows := rows
  finalCutoff := config.finalBefore asOf
  insertedAt := insertedAt
  clock := clock
  distinct := nodup_labelListings h

end

/-! ## Convergence -/

/-- Every row that is stored or that a call saves. -/
def allRows (table : OutcomeTable) (calls : List SaveCall) : List ListingOutcome :=
  table.rows.items.map (fun item => item.2.outcome) ++ calls.flatMap SaveCall.rows

/-- Two runs that label the same sighting of a listing produce the same row. -/
def SameSightings (table : OutcomeTable) (calls : List SaveCall) : Prop :=
  ∀ a ∈ allRows table calls, ∀ b ∈ allRows table calls,
    a.key = b.key → a.listedAt = b.listedAt → a = b

/-- No row stored before, between or after the calls is final for one of them. -/
def NeverFinal (table : OutcomeTable) (calls : List SaveCall) : Prop :=
  ∀ done rest, calls = done ++ rest → ∀ key stored, (runCalls table done).get? key = some stored →
    ∀ call ∈ calls, call.finalCutoff < stored.outcome.labelAvailableAt

/-- The row is that of the earliest sighting of its listing among some rows; none without one. -/
def IsEarliest (rows : List ListingOutcome) (key : OutcomeKey) : Option ListingOutcome → Prop
  | none => ∀ row ∈ rows, row.key ≠ key
  | some row => row ∈ rows ∧ row.key = key ∧
      ∀ other ∈ rows, other.key = key → row.listedAt ≤ other.listedAt

theorem allRows_append (table : OutcomeTable) (done : List SaveCall) (call : SaveCall) :
    allRows table (done ++ [call]) = allRows table done ++ call.rows := by
  rw [allRows, allRows, List.flatMap_append, List.append_assoc]
  simp

/-- The stored row of a listing is its only row. -/
theorem isEarliest_table (table : OutcomeTable) (key : OutcomeKey) :
    IsEarliest (allRows table []) key (outcomeAt table key) := by
  have hrows : ∀ row, row ∈ allRows table [] ↔
      ∃ stored, table.get? row.key = some stored ∧ stored.outcome = row := by
    intro row
    rw [allRows, List.flatMap_nil, List.append_nil, List.mem_map]
    constructor
    · rintro ⟨⟨key, stored⟩, hmem, rfl⟩
      have hget := OrderedDict.get?_eq_some.mpr hmem
      refine ⟨stored, ?_, rfl⟩
      rw [table.keyed key stored hget]
      exact hget
    · rintro ⟨stored, hget, rfl⟩
      exact ⟨_, OrderedDict.get?_eq_some.mp hget, rfl⟩
  cases hget : table.get? key with
  | none =>
      rw [outcomeAt, hget]
      rintro row hrow rfl
      obtain ⟨stored, hstored, -⟩ := (hrows row).mp hrow
      rw [hget] at hstored
      cases hstored
  | some stored =>
      have hkey := table.keyed key stored hget
      rw [outcomeAt, hget]
      refine ⟨(hrows _).mpr ⟨stored, by rw [hkey]; exact hget, rfl⟩, hkey, ?_⟩
      rintro other hother rfl
      obtain ⟨stored', hstored', rfl⟩ := (hrows other).mp hother
      rw [hget] at hstored'
      cases hstored'
      exact Int.le_refl _

/-- A call for which nothing stored is final keeps the earliest sighting. -/
theorem IsEarliest.call {rows : List ListingOutcome} {table : OutcomeTable} {call : SaveCall}
    (hopen : ∀ key stored, table.get? key = some stored →
      call.finalCutoff < stored.outcome.labelAvailableAt)
    {key : OutcomeKey} (h : IsEarliest rows key (outcomeAt table key)) :
    IsEarliest (rows ++ call.rows) key (outcomeAt (call.run table) key) := by
  have hupserted := call.upserted table
  by_cases hkey : key ∈ call.rows.map ListingOutcome.key
  · obtain ⟨row, hrow, rfl⟩ := List.mem_map.mp hkey
    have honly : ∀ other ∈ call.rows, other.key = row.key → other = row := fun other hother heq =>
      List.inj_on_of_nodup_map call.distinct hother hrow heq
    obtain ⟨now, hget⟩ := hupserted.each row hrow
    cases hold : table.get? row.key with
    | none =>
        rw [hold] at hget
        rw [outcomeAt, hold] at h
        rw [outcomeAt, hget]
        refine ⟨List.mem_append_right _ hrow, rfl, fun other hother heq => ?_⟩
        rcases List.mem_append.mp hother with hother | hother
        · exact absurd heq (h other hother)
        · rw [honly other hother heq]
    | some stored =>
        rw [outcomeAt, hold] at h
        obtain ⟨hmem, hstored, hmin⟩ := h
        rw [hold, upsertVersion, mayUpdate, decide_eq_true (hopen row.key stored hold),
          Bool.and_true] at hget
        rw [outcomeAt, hget]
        by_cases hearlier : row.listedAt ≤ stored.outcome.listedAt
        · rw [if_pos (decide_eq_true hearlier)]
          refine ⟨List.mem_append_right _ hrow, rfl, fun other hother heq => ?_⟩
          rcases List.mem_append.mp hother with hother | hother
          · exact hearlier.trans (hmin other hother heq)
          · rw [honly other hother heq]
        · rw [if_neg (by simpa using hearlier)]
          refine ⟨List.mem_append_left _ hmem, hstored, fun other hother heq => ?_⟩
          rcases List.mem_append.mp hother with hother | hother
          · exact hmin other hother heq
          · rw [honly other hother heq]
            omega
  · have hsame : outcomeAt (call.run table) key = outcomeAt table key := by
      rw [outcomeAt, hupserted.others key hkey, outcomeAt]
    have hother : ∀ other ∈ call.rows, other.key ≠ key := fun other hother heq =>
      hkey (heq ▸ List.mem_map_of_mem hother)
    rw [hsame]
    cases hrow : outcomeAt table key with
    | none =>
        rw [hrow] at h
        intro other hmem
        rcases List.mem_append.mp hmem with hmem | hmem
        · exact h other hmem
        · exact hother other hmem
    | some row =>
        rw [hrow] at h
        obtain ⟨hmem, hstored, hmin⟩ := h
        refine ⟨List.mem_append_left _ hmem, hstored, fun other hmem heq => ?_⟩
        rcases List.mem_append.mp hmem with hmem | hmem
        · exact hmin other hmem heq
        · exact absurd heq (hother other hmem)

/-- While nothing is final, the table holds the row of each listing's earliest sighting. -/
theorem isEarliest_runCalls {table : OutcomeTable} {calls : List SaveCall}
    (h : NeverFinal table calls) (key : OutcomeKey) {done rest : List SaveCall}
    (hsplit : calls = done ++ rest) :
    IsEarliest (allRows table done) key (outcomeAt (runCalls table done) key) := by
  induction done using List.reverseRecOn generalizing rest with
  | nil => exact isEarliest_table table key
  | append_singleton done call ih =>
      have hsplit' : calls = done ++ (call :: rest) := by
        rw [hsplit, List.append_assoc]
        rfl
      rw [allRows_append, runCalls, List.foldl_append]
      refine (ih hsplit').call fun key stored hget => ?_
      refine h done (call :: rest) hsplit' key stored hget call ?_
      rw [hsplit']
      simp

/-- What is stored was stored before or is a row of a call. -/
theorem mem_allRows_of_stored {table : OutcomeTable} {calls : List SaveCall} {key : OutcomeKey}
    {stored : StoredOutcome} (h : (runCalls table calls).get? key = some stored) :
    stored.outcome ∈ allRows table calls := by
  induction calls using List.reverseRecOn generalizing stored with
  | nil =>
      have hearliest := isEarliest_table table key
      rw [outcomeAt, show table.get? key = some stored from h] at hearliest
      exact hearliest.1
  | append_singleton done call ih =>
      rw [runCalls, List.foldl_append] at h
      have hupserted := call.upserted (runCalls table done)
      rw [allRows_append]
      by_cases hkey : key ∈ call.rows.map ListingOutcome.key
      · obtain ⟨row, hrow, rfl⟩ := List.mem_map.mp hkey
        obtain ⟨now, hsaved⟩ := hupserted.each row hrow
        rcases Option.or_eq_some_iff.mp (hsaved.symm.trans h) with hversion | ⟨-, hold⟩
        · rw [outcome_upsertVersion hversion]
          exact List.mem_append_right _ hrow
        · exact List.mem_append_left _ (ih hold)
      · exact List.mem_append_left _ (ih ((hupserted.others key hkey).symm.trans h))

/-- Rows that are all available after every cutoff are never final. -/
theorem neverFinal_of_rows {table : OutcomeTable} {calls : List SaveCall}
    (h : ∀ row ∈ allRows table calls, ∀ call ∈ calls, call.finalCutoff < row.labelAvailableAt) :
    NeverFinal table calls := by
  intro done rest hsplit key stored hget
  refine h stored.outcome ?_
  rw [hsplit, allRows, List.flatMap_append, ← List.append_assoc]
  exact List.mem_append_left _ (mem_allRows_of_stored hget)

/-- There is one earliest row, whatever order the rows come in. -/
theorem IsEarliest.unique {rows rows' : List ListingOutcome} (hmem : ∀ row, row ∈ rows ↔ row ∈ rows')
    (hsame : ∀ a ∈ rows, ∀ b ∈ rows, a.key = b.key → a.listedAt = b.listedAt → a = b)
    {key : OutcomeKey} {first first' : Option ListingOutcome} (h : IsEarliest rows key first)
    (h' : IsEarliest rows' key first') : first = first' := by
  cases first with
  | none =>
      cases first' with
      | none => rfl
      | some row =>
          obtain ⟨hrow, hkey, -⟩ := h'
          exact absurd hkey (h row ((hmem row).mpr hrow))
  | some row =>
      obtain ⟨hrow, hkey, hmin⟩ := h
      cases first' with
      | none => exact absurd hkey (h' row ((hmem row).mp hrow))
      | some row' =>
          obtain ⟨hrow', hkey', hmin'⟩ := h'
          have hrow' := (hmem row').mpr hrow'
          have hle := hmin row' hrow' hkey'
          have hle' := hmin' row ((hmem row).mp hrow) hkey
          rw [hsame row hrow row' hrow' (hkey.trans hkey'.symm) (by omega)]

/-- Calls of labeler runs in any order. A call leaves the rows that are final for it as they are.
While no row is final for one of the runs, the table ends up with the row of each listing's earliest
sighting, so any order of the calls ends with the same labels. -/
theorem finalAndConvergent_of_run (table : OutcomeTable) (calls : List SaveCall) :
    (∀ done call rest, calls = done ++ call :: rest → ∀ key stored,
      (runCalls table done).get? key = some stored →
      stored.outcome.labelAvailableAt ≤ call.finalCutoff →
      (runCalls table (done ++ [call])).get? key = some stored) ∧
    (SameSightings table calls → NeverFinal table calls →
      ∀ calls', calls'.Perm calls → NeverFinal table calls' → ∀ key,
        outcomeAt (runCalls table calls') key = outcomeAt (runCalls table calls) key ∧
        IsEarliest (allRows table calls) key (outcomeAt (runCalls table calls) key)) := by
  constructor
  · intro done call rest _ key stored hget hfinal
    rw [runCalls, List.foldl_append]
    have hupserted := call.upserted (runCalls table done)
    by_cases hkey : key ∈ call.rows.map ListingOutcome.key
    · obtain ⟨row, hrow, rfl⟩ := List.mem_map.mp hkey
      obtain ⟨now, hsaved⟩ := hupserted.each row hrow
      rw [hget, upsertVersion_of_final hfinal, Option.none_or] at hsaved
      exact hsaved
    · exact (hupserted.others key hkey).trans hget
  · intro hsame hopen calls' hperm hopen' key
    have hearliest := isEarliest_runCalls hopen key (List.append_nil calls).symm
    have hearliest' := isEarliest_runCalls hopen' key (List.append_nil calls').symm
    have hmem : ∀ row, row ∈ allRows table calls' ↔ row ∈ allRows table calls := by
      intro row
      simp only [allRows, List.mem_append, List.mem_flatMap, hperm.mem_iff]
    refine ⟨(hearliest.unique (fun row => (hmem row).symm) hsame hearliest').symm, hearliest⟩

theorem labelWindow_knife :
    labelWindow id knifeDatabase dmarketLabels (seconds 1600000) (seconds 86400) (seconds 259200)
      (seconds 172800, seconds 259200) = .ok [knifeOutcome] := by
  decide +kernel

/-- A run labels the knife's listing. -/
def knifeCall : SaveCall := windowCall labelWindow_knife (seconds 1600001) fun _ => seconds 1600001

/-- A sighting of the listing some seconds after its first one. -/
def laterOutcome (after : Int) : ListingOutcome :=
  { knifeOutcome with
    listedAt := knifeOutcome.listedAt + seconds after
    labelAvailableAt := knifeOutcome.labelAvailableAt + seconds after }

theorem nodup_oneKey (row : ListingOutcome) : ([row].map ListingOutcome.key).Nodup :=
  List.nodup_singleton _

/-- A run over a later range, as of some moment, labels a later sighting. -/
def laterCall (after asOf : Int) : SaveCall where
  rows := [laterOutcome after]
  finalCutoff := dmarketLabels.finalBefore (seconds asOf)
  insertedAt := seconds asOf
  clock := fun _ => seconds asOf
  distinct := nodup_oneKey _

/-- The knife's first sighting replaces the later one or stays, in either order of two runs; a run
before the first sighting does not change the row that is final by then. -/
theorem finalAndConvergent_of_run_knife :
    (runCalls .empty [knifeCall, laterCall (-60) 1700000]).get? knifeOutcome.key
        = some ⟨knifeOutcome, seconds 1600001⟩ ∧
      outcomeAt (runCalls .empty [laterCall 3600 1610000, knifeCall]) knifeOutcome.key
        = outcomeAt (runCalls .empty [knifeCall, laterCall 3600 1610000]) knifeOutcome.key := by
  constructor
  · exact (finalAndConvergent_of_run .empty [knifeCall, laterCall (-60) 1700000]).1 [knifeCall]
      (laterCall (-60) 1700000) [] rfl knifeOutcome.key ⟨knifeOutcome, seconds 1600001⟩
      (by decide +kernel) (by decide)
  · refine ((finalAndConvergent_of_run .empty [knifeCall, laterCall 3600 1610000]).2 ?_ ?_
      [laterCall 3600 1610000, knifeCall] (List.Perm.swap _ _ _) ?_ knifeOutcome.key).1
    · show ∀ a ∈ [knifeOutcome, laterOutcome 3600], ∀ b ∈ [knifeOutcome, laterOutcome 3600], _
      decide
    · refine neverFinal_of_rows ?_
      show ∀ row ∈ [knifeOutcome, laterOutcome 3600], ∀ call ∈ [knifeCall, laterCall 3600 1610000], _
      decide
    · refine neverFinal_of_rows ?_
      show ∀ row ∈ [laterOutcome 3600, knifeOutcome], ∀ call ∈ [laterCall 3600 1610000, knifeCall], _
      decide

end BrandSniper.Labels
