import BrandSniper.Kit.Runs
import BrandSniper.Listener.StoredBatches
import BrandSniper.Listener.StreamAdoption

/-!
# Reading a batch stream

`RedisBatchStore._iter_stream` of `apps/listener/batch_delivery.py`: a stream
is read a page at a time, each page past the last ID of the one before.
A malformed entry goes to the malformed stream in one transaction; a batch goes
to the consumer, which keeps or deletes it before it asks for the next one.
Other clients add entries meanwhile.

The entries that the stream has had are those visited, the rest of the page,
and those past it, in this order (`Inv`), and the last ones are still there.
So the visited ones begin with those of the start once the reader returns.
-/

namespace BrandSniper.Delivery

open Kit Batch StreamAdoption

/-! ## The machine -/

abbrev Entry := StreamEntry Fields

/-- Where an iteration is. `rest` is what is left of the page. -/
inductive Reader where
  | fetching (last : Option Nat)
  | handling (page rest : List Entry)
  /-- At its `yield`, with the ID of what the consumer has. -/
  | suspended (given : Nat) (page rest : List Entry)
  | returned
  | raised

/-- The page that was read; an empty one ends the reading. -/
def ofPage : List Entry → Reader
  | [] => .returned
  | entry :: rest => .handling (entry :: rest) (entry :: rest)

/-- After the last entry of a page: a short page is the last one. -/
def afterPage (pageSize : Nat) (page : List Entry) : Reader :=
  if page.length < pageSize then .returned else .fetching (page.getLast?.map Prod.fst)

def afterEntry (pageSize : Nat) (page : List Entry) : List Entry → Reader
  | [] => afterPage pageSize page
  | entry :: rest => .handling page (entry :: rest)

structure Iteration (F : Type) where
  store : StreamStore Fields
  reader : Reader
  /-- The entries the stream has had. -/
  held : List Entry
  /-- What other clients have added to the malformed stream. -/
  others : List Fields
  visited : List Entry
  yielded : List (StoredBatch F)
  moved : List Entry

inductive Event where
  | fetch
  /-- The next entry of the page; the server's clock shows `now`. -/
  | handle (now : Nat)
  /-- The consumer asks for the next batch, and has deleted the one it was given or not. -/
  | next (deleted : Bool)
  /-- Another client adds an entry. -/
  | append (now : Nat) (key : String) (fields : Fields)

/-- Steps of the iteration and of its consumer. -/
def Event.isMove : Event → Bool
  | .append _ _ _ => false
  | _ => true

def Event.appendsTo (key : String) : Event → Bool
  | .append _ other _ => other = key
  | _ => false

/-- Which stream is read. -/
inductive Source where
  | pending
  | deadLetters

def Source.key (streams : RedisBatchStore) : Source → String
  | .pending => streams.pendingKey
  | .deadLetters => streams.deadLetterKey

section
variable {F : Type} [PyFloat F] (client : Client) (streams : RedisBatchStore) (key : String)
  (pageSize : Nat)

def Iteration.start (store : StreamStore Fields) : Iteration F :=
  ⟨store, .fetching none, store.entriesAt key, [], [], [], []⟩

def fetch (s : Iteration F) (last : Option Nat) : Iteration F :=
  let page := s.store.xrangePast key last pageSize
  { s with reader := if page.all fun e => client.decodes e.2 then ofPage page else .raised }

/-- `_quarantine_malformed` -/
def quarantine (now : Nat) (s : Iteration F) (entry : Entry) (payload error : String) : Iteration F :=
  { s with
    store := (s.store.xadd now streams.malformedKey
      (malformedFields key entry.1 payload error)).xdel key entry.1
    moved := s.moved ++ [entry] }

def handle (now : Nat) (s : Iteration F) (page : List Entry) (entry : Entry) (rest : List Entry) :
    Iteration F :=
  let s := { s with visited := s.visited ++ [entry] }
  match readEntry F client entry.1 entry.2 with
  | .batch batch =>
      { s with reader := .suspended entry.1 page rest, yielded := s.yielded ++ [batch] }
  | .malformed payload error =>
      { quarantine streams key now s entry payload error with reader := afterEntry pageSize page rest }
  | .raises => { s with reader := .raised }

/-- `acknowledge` or `acknowledge_dead_letter` -/
def consume (s : Iteration F) (deleted : Bool) (given : Nat) (page rest : List Entry) : Iteration F :=
  { s with
    store := if deleted then s.store.xdel key given else s.store
    reader := afterEntry pageSize page rest }

def append (s : Iteration F) (now : Nat) (other : String) (fields : Fields) : Iteration F :=
  { s with
    store := s.store.xadd now other fields
    held := if other = key then s.held ++ [(s.store.nextIdAt key now, fields)] else s.held
    others := if other = streams.malformedKey then s.others ++ [fields] else s.others }

def step (s : Iteration F) : Event → Option (Iteration F)
  | .fetch =>
      match s.reader with
      | .fetching last => some (fetch client key pageSize s last)
      | _ => none
  | .handle now =>
      match s.reader with
      | .handling page (entry :: rest) => some (handle client streams key pageSize now s page entry rest)
      | _ => none
  | .next deleted =>
      match s.reader with
      | .suspended given page rest => some (consume key pageSize s deleted given page rest)
      | _ => none
  | .append now other fields => some (append streams key s now other fields)

/-! ## What an iteration is for -/

/-- The batch of a well-formed entry. -/
def batchOf (entry : Entry) : Option (StoredBatch F) :=
  match readEntry F client entry.1 entry.2 with
  | .batch batch => some batch
  | _ => none

/-- What the malformed stream gets of an entry. -/
def malformedOf (F : Type) [PyFloat F] (entry : Entry) : Option Fields :=
  match readEntry F client entry.1 entry.2 with
  | .malformed payload error => some (malformedFields key entry.1 payload error)
  | _ => none

/-- The entries of the start are visited once, in the order of their IDs: the batches among those
visited are yielded, and the others are moved, each once. -/
structure ReadsStream (store : StreamStore Fields) (s : Iteration F) : Prop where
  not_raised : s.reader ≠ .raised
  inOrder : s.visited.Pairwise fun a b => a.1 < b.1
  yields : s.yielded = s.visited.filterMap (batchOf client)
  moves : s.moved = s.visited.filter fun e => (malformedOf client key F e).isSome
  gone : ∀ e ∈ s.moved, ∀ other ∈ s.store.entriesAt key, other.1 ≠ e.1
  malformed : (s.store.fieldsAt streams.malformedKey).Perm
    (store.fieldsAt streams.malformedKey ++ s.others ++ s.moved.filterMap (malformedOf client key F))
  complete : s.reader = .returned → store.entriesAt key <+: s.visited

/-! ## The invariant -/

def Reader.rest : Reader → List Entry
  | .handling _ rest => rest
  | .suspended _ _ rest => rest
  | _ => []

/-- What is left of a page that has been read, and what a short page says. -/
structure InPage (first visited page rest : List Entry) : Prop where
  page_ne : page ≠ []
  suffix : page <:+ visited ++ rest
  short : page.length < pageSize → first <+: visited ++ rest

/-- Where a reader stands, after the entries visited. `first` are those of the start. -/
def Placed (first visited : List Entry) : Reader → Prop
  | .fetching last => last = visited.getLast?.map Prod.fst
  | .handling page rest => rest ≠ [] ∧ InPage pageSize first visited page rest
  | .suspended given page rest =>
      visited.getLast?.map Prod.fst = some given ∧ InPage pageSize first visited page rest
  | .returned => first <+: visited
  | .raised => False

/-- The entries past the page are the last ones of the stream, and are still there. -/
structure Ahead (store : StreamStore Fields) (held visited rest : List Entry) : Prop where
  sorted : held.Pairwise fun a b => a.1 < b.1
  le_lastId : ∀ e ∈ held, e.1 ≤ store.lastIdAt key
  subset : ∀ e ∈ store.entriesAt key, e ∈ held
  later : ∃ later, held = visited ++ (rest ++ later) ∧ ∀ e ∈ later, e ∈ store.entriesAt key

structure Inv (store : StreamStore Fields) (s : Iteration F) : Prop where
  started : store.entriesAt key <+: s.held
  reads : ∀ e ∈ s.held, client.Reads e.2
  ahead : Ahead key s.store s.held s.visited s.reader.rest
  placed : Placed pageSize (store.entriesAt key) s.visited s.reader
  yields : s.yielded = s.visited.filterMap (batchOf client)
  moves : s.moved = s.visited.filter fun e => (malformedOf client key F e).isSome
  gone : ∀ e ∈ s.moved, ∀ other ∈ s.store.entriesAt key, other.1 ≠ e.1
  malformed : (s.store.fieldsAt streams.malformedKey).Perm
    (store.fieldsAt streams.malformedKey ++ s.others ++ s.moved.filterMap (malformedOf client key F))

section
variable {client : Client} {streams : RedisBatchStore} {key : String} {pageSize : Nat}

theorem Inv.readsStream {store : StreamStore Fields} {s : Iteration F}
    (h : Inv client streams key pageSize store s) : ReadsStream client streams key store s where
  not_raised := fun hraised => by
    have hplaced := h.placed
    rw [hraised] at hplaced
    exact hplaced
  inOrder := by
    obtain ⟨later, hheld, -⟩ := h.ahead.later
    have hsorted := h.ahead.sorted
    rw [hheld] at hsorted
    exact (List.pairwise_append.mp hsorted).1
  yields := h.yields
  moves := h.moves
  gone := h.gone
  malformed := h.malformed
  complete := fun hreturned => by
    have hplaced := h.placed
    rw [hreturned] at hplaced
    exact hplaced

theorem inv_start {store : StreamStore Fields} (h : ∀ e ∈ store.entriesAt key, client.Reads e.2) :
    Inv client streams key pageSize store (Iteration.start key store : Iteration F) where
  started := List.prefix_refl _
  reads := h
  ahead := {
    sorted := store.sorted_entriesAt key
    le_lastId := store.le_lastIdAt key
    subset := fun _ he => he
    later := ⟨store.entriesAt key, rfl, fun _ he => he⟩ }
  placed := rfl
  yields := rfl
  moves := rfl
  gone := List.forall_mem_nil _
  malformed := by
    rw [Iteration.start, List.append_nil, List.filterMap_nil, List.append_nil]

/-! ### Pages -/

/-- Past the last entry visited are the entries ahead. -/
theorem Ahead.filter_past {store : StreamStore Fields} {held visited later : List Entry}
    (h : Ahead key store held visited []) (hheld : held = visited ++ later)
    (hlater : ∀ e ∈ later, e ∈ store.entriesAt key) :
    (store.entriesAt key).filter (StreamStore.past (visited.getLast?.map Prod.fst)) = later := by
  have hsorted := h.sorted
  rw [hheld, List.pairwise_append] at hsorted
  obtain ⟨hvisited, hahead, hacross⟩ := hsorted
  have hmem : ∀ e, e ∈ (store.entriesAt key).filter
      (StreamStore.past (visited.getLast?.map Prod.fst)) ↔ e ∈ later := by
    intro e
    rw [List.mem_filter]
    constructor
    · rintro ⟨hin, hpast⟩
      have hhad := h.subset e hin
      rw [hheld, List.mem_append] at hhad
      rcases hhad with hold | hnew
      · -- The last entry visited has the largest ID of those visited.
        rcases List.eq_nil_or_concat visited with rfl | ⟨before, last, rfl⟩
        · exact absurd hold List.not_mem_nil
        · rw [List.concat_eq_append] at hold hvisited hpast
          rw [List.getLast?_append, List.getLast?_singleton, Option.some_or, Option.map_some] at hpast
          have hlast : last.1 < e.1 := of_decide_eq_true hpast
          rcases List.mem_append.mp hold with hbefore | hlast'
          · have hlt := (List.pairwise_append.mp hvisited).2.2 e hbefore last List.mem_cons_self
            exact absurd hlt (Nat.lt_asymm hlast)
          · rw [List.mem_singleton.mp hlast'] at hlast
            exact absurd hlast (Nat.lt_irrefl _)
      · exact hnew
    · intro he
      refine ⟨hlater e he, ?_⟩
      rw [StreamStore.past]
      cases hlast : visited.getLast? with
      | none => rfl
      | some last =>
          have hlt := hacross last (List.mem_of_getLast? hlast) e he
          exact decide_eq_true hlt
  have hnodup : ∀ {l : List Entry}, l.Pairwise (fun a b => a.1 < b.1) → l.Nodup := fun hl =>
    hl.imp fun hlt heq => absurd (congrArg Prod.fst heq) (Nat.ne_of_lt hlt)
  have hfiltered := (store.sorted_entriesAt key).filter
    (StreamStore.past (visited.getLast?.map Prod.fst))
  have hperm := (List.perm_ext_iff_of_nodup (hnodup hfiltered) (hnodup hahead)).mpr hmem
  exact hperm.eq_of_pairwise (fun a b _ _ hab hba => absurd hab (Nat.lt_asymm hba)) hfiltered hahead

omit [PyFloat F] in
theorem fetch_of_page {s : Iteration F} {last : Option Nat} {page : List Entry}
    (hpage : s.store.xrangePast key last pageSize = page)
    (hdecodes : (page.all fun e => client.decodes e.2) = true) :
    fetch client key pageSize s last = { s with reader := ofPage page } := by
  subst hpage
  rw [fetch]
  exact congrArg (fun reader => { s with reader := reader }) (if_pos hdecodes)

theorem rest_ofPage (page : List Entry) : (ofPage page).rest = page := by
  cases page <;> rfl

/-- A page that is read past the last entry visited. -/
theorem Inv.fetch (hsize : 0 < pageSize) {store : StreamStore Fields} {s : Iteration F}
    (h : Inv client streams key pageSize store s) {last : Option Nat}
    (hreader : s.reader = .fetching last) :
    Inv client streams key pageSize store (fetch client key pageSize s last) := by
  have hahead := h.ahead
  have hplaced := h.placed
  rw [hreader] at hahead hplaced
  obtain ⟨later, hheld, hlater⟩ := hahead.later
  have hheld : s.held = s.visited ++ later := hheld
  have hpage : s.store.xrangePast key last pageSize = later.take pageSize := by
    rw [StreamStore.xrangePast, show last = s.visited.getLast?.map Prod.fst from hplaced,
      hahead.filter_past hheld hlater]
  have hdecodes : ((later.take pageSize).all fun e => client.decodes e.2) = true := by
    rw [List.all_eq_true]
    intro e he
    have hmem : e ∈ s.held := by
      rw [hheld]
      exact List.mem_append_right _ (List.mem_of_mem_take he)
    exact (h.reads e hmem).1
  rw [fetch_of_page hpage hdecodes]
  refine ⟨h.started, h.reads, ⟨hahead.sorted, hahead.le_lastId, hahead.subset, ?_⟩, ?_, h.yields,
    h.moves, h.gone, h.malformed⟩
  · refine ⟨later.drop pageSize, ?_, fun e he => hlater e (List.mem_of_mem_drop he)⟩
    rw [rest_ofPage, List.take_append_drop]
    exact hheld
  · -- A page with less than it may hold is all that is ahead.
    have hshort : (later.take pageSize).length < pageSize → later.take pageSize = later := by
      intro hlen
      rw [List.length_take] at hlen
      exact List.take_of_length_le (by omega)
    cases hcases : later.take pageSize with
    | nil =>
        have hempty : later.take pageSize = later := hshort (by rw [hcases]; exact hsize)
        have hstarted := h.started
        rw [hheld, ← hempty, hcases, List.append_nil] at hstarted
        exact hstarted
    | cons entry rest =>
        refine ⟨List.cons_ne_nil _ _, List.cons_ne_nil _ _, List.suffix_append _ _, fun hlen => ?_⟩
        have hall : later.take pageSize = later := hshort (by rw [hcases]; exact hlen)
        have hstarted := h.started
        rw [hheld, ← hall, hcases] at hstarted
        exact hstarted

/-! ### Entries -/

theorem rest_afterEntry (pageSize : Nat) (page rest : List Entry) :
    (afterEntry pageSize page rest).rest = rest := by
  cases rest with
  | nil =>
      rw [afterEntry, afterPage]
      split <;> rfl
  | cons entry rest => rfl

/-- After an entry, the reader stands before the next one, or past its page. -/
theorem InPage.placed {first visited page rest : List Entry}
    (h : InPage pageSize first visited page rest) :
    Placed pageSize first visited (afterEntry pageSize page rest) := by
  cases rest with
  | nil =>
      have hsuffix := h.suffix
      have hshort := h.short
      rw [List.append_nil] at hsuffix hshort
      rw [afterEntry, afterPage]
      split
      · exact hshort ‹_›
      · obtain ⟨before, rfl⟩ := hsuffix
        rw [Placed, List.getLast?_append_of_ne_nil before h.page_ne]
  | cons entry rest => exact ⟨List.cons_ne_nil _ _, h⟩

theorem InPage.visit {first visited page rest : List Entry} {entry : Entry}
    (h : InPage pageSize first visited page (entry :: rest)) :
    InPage pageSize first (visited ++ [entry]) page rest := by
  have hsplit : visited ++ [entry] ++ rest = visited ++ (entry :: rest) := by
    rw [List.append_assoc, List.singleton_append]
  exact ⟨h.page_ne, hsplit ▸ h.suffix, hsplit ▸ h.short⟩

theorem Ahead.visit {store : StreamStore Fields} {held visited rest : List Entry} {entry : Entry}
    (h : Ahead key store held visited (entry :: rest)) :
    Ahead key store held (visited ++ [entry]) rest := by
  obtain ⟨later, hheld, hlater⟩ := h.later
  refine ⟨h.sorted, h.le_lastId, h.subset, later, ?_, hlater⟩
  rw [hheld, List.append_assoc, List.cons_append, List.singleton_append]

/-- Deleting an entry that was visited takes none of those ahead. -/
theorem Ahead.xdel {store : StreamStore Fields} {held visited rest : List Entry} {id : Nat}
    (h : Ahead key store held visited rest) (hid : ∃ e ∈ visited, e.1 = id) :
    Ahead key (store.xdel key id) held visited rest := by
  obtain ⟨later, hheld, hlater⟩ := h.later
  obtain ⟨e, he, rfl⟩ := hid
  refine ⟨h.sorted, ?_, ?_, later, hheld, ?_⟩
  · rw [StreamStore.lastIdAt_xdel]
    exact h.le_lastId
  · rw [StreamStore.entriesAt_xdel]
    exact fun other hother => h.subset other (List.mem_of_mem_filter hother)
  · intro other hother
    rw [StreamStore.entriesAt_xdel, List.mem_filter]
    refine ⟨hlater other hother, ?_⟩
    have hsorted := h.sorted
    rw [hheld, List.pairwise_append] at hsorted
    have hlt := hsorted.2.2 e he other (List.mem_append_right rest hother)
    exact bne_iff_ne.mpr (Nat.ne_of_gt hlt)

/-- Another stream may change. -/
theorem Ahead.congr {store store' : StreamStore Fields} {held visited rest : List Entry}
    (h : Ahead key store held visited rest) (hsame : store' key = store key) :
    Ahead key store' held visited rest := by
  obtain ⟨later, hheld, hlater⟩ := h.later
  refine ⟨h.sorted, ?_, ?_, later, hheld, ?_⟩
  · rw [StreamStore.lastIdAt_congr hsame]
    exact h.le_lastId
  · rw [StreamStore.entriesAt_congr hsame]
    exact h.subset
  · rw [StreamStore.entriesAt_congr hsame]
    exact hlater

theorem filterMap_concat {α β : Type} (f : α → Option β) (l : List α) (a : α) :
    (l ++ [a]).filterMap f = l.filterMap f ++ (f a).toList := by
  rw [List.filterMap_append, List.filterMap_cons, List.filterMap_nil]
  cases f a <;> rfl

theorem filter_concat {α : Type} (p : α → Bool) (l : List α) (a : α) :
    (l ++ [a]).filter p = l.filter p ++ if p a then [a] else [] := by
  rw [List.filter_append, List.filter_cons, List.filter_nil]

theorem handle_batch {s : Iteration F} {page rest : List Entry} {entry : Entry} {now : Nat}
    {batch : StoredBatch F} (h : readEntry F client entry.1 entry.2 = .batch batch) :
    handle client streams key pageSize now s page entry rest
      = { s with
          reader := .suspended entry.1 page rest
          visited := s.visited ++ [entry]
          yielded := s.yielded ++ [batch] } := by
  rw [handle, h]

theorem handle_malformed {s : Iteration F} {page rest : List Entry} {entry : Entry} {now : Nat}
    {payload error : String} (h : readEntry F client entry.1 entry.2 = .malformed payload error) :
    handle client streams key pageSize now s page entry rest
      = { s with
          store := (s.store.xadd now streams.malformedKey
            (malformedFields key entry.1 payload error)).xdel key entry.1
          reader := afterEntry pageSize page rest
          visited := s.visited ++ [entry]
          moved := s.moved ++ [entry] } := by
  rw [handle, h]
  rfl

theorem Inv.handle (hkey : key ≠ streams.malformedKey) {store : StreamStore Fields}
    {s : Iteration F} (h : Inv client streams key pageSize store s) {page rest : List Entry}
    {entry : Entry} (hreader : s.reader = .handling page (entry :: rest)) (now : Nat) :
    Inv client streams key pageSize store
      (handle client streams key pageSize now s page entry rest) := by
  have hahead := h.ahead
  have hplaced := h.placed
  rw [hreader] at hahead hplaced
  have hvisited := Ahead.visit hahead
  have hinPage := hplaced.2.visit
  have hmem : entry ∈ s.held := by
    obtain ⟨later, hheld, -⟩ := hahead.later
    rw [hheld]
    exact List.mem_append_right _ List.mem_cons_self
  cases hread : readEntry F client entry.1 entry.2 with
  | raises => exact absurd hread (readEntry_ne_raises (h.reads entry hmem))
  | batch batch =>
      have hyield : batchOf client entry = some batch := by
        rw [batchOf, hread]
      have hkept : malformedOf client key F entry = none := by
        rw [malformedOf, hread]
      rw [handle_batch hread]
      refine ⟨h.started, h.reads, hvisited, ⟨?_, hinPage⟩, ?_, ?_, h.gone, h.malformed⟩
      · rw [List.getLast?_append, List.getLast?_singleton, Option.some_or, Option.map_some]
      · rw [filterMap_concat, hyield, h.yields]
        rfl
      · rw [filter_concat, hkept, h.moves]
        exact (List.append_nil _).symm
  | malformed payload error =>
      have hyield : batchOf (F := F) client entry = none := by
        rw [batchOf, hread]
      have hmoved : malformedOf client key F entry
          = some (malformedFields key entry.1 payload error) := by
        rw [malformedOf, hread]
      have hother : streams.malformedKey ≠ key := hkey.symm
      rw [handle_malformed hread]
      refine ⟨h.started, h.reads, ?_, ?_, ?_, ?_, ?_, ?_⟩
      · rw [rest_afterEntry]
        exact (hvisited.congr (StreamStore.xadd_of_ne now _ hkey)).xdel
          ⟨entry, List.mem_append_right _ List.mem_cons_self, rfl⟩
      · exact hinPage.placed
      · rw [filterMap_concat, hyield, h.yields]
        exact (List.append_nil _).symm
      · rw [filter_concat, hmoved, h.moves]
        rfl
      · have hentries : ((s.store.xadd now streams.malformedKey
            (malformedFields key entry.1 payload error)).xdel key entry.1).entriesAt key
              = (s.store.entriesAt key).filter fun e => e.1 != entry.1 := by
          rw [StreamStore.entriesAt_xdel,
            StreamStore.entriesAt_congr (StreamStore.xadd_of_ne now _ hkey)]
        intro e he other hin
        rw [hentries, List.mem_filter] at hin
        rcases List.mem_append.mp he with hold | hnew
        · exact h.gone e hold other hin.1
        · rw [List.mem_singleton.mp hnew]
          exact bne_iff_ne.mp hin.2
      · rw [StreamStore.fieldsAt_congr (StreamStore.xdel_of_ne entry.1 hother),
          StreamStore.fieldsAt_xadd, filterMap_concat, hmoved, ← List.append_assoc]
        exact h.malformed.append_right _

theorem Inv.consume {store : StreamStore Fields} {s : Iteration F}
    (h : Inv client streams key pageSize store s) {given : Nat} {page rest : List Entry}
    (hkey : key ≠ streams.malformedKey)
    (hreader : s.reader = .suspended given page rest) (deleted : Bool) :
    Inv client streams key pageSize store (consume key pageSize s deleted given page rest) := by
  have hahead := h.ahead
  have hplaced := h.placed
  rw [hreader] at hahead hplaced
  obtain ⟨hgiven, hinPage⟩ := hplaced
  obtain ⟨last, hlast, hid⟩ := Option.map_eq_some_iff.mp hgiven
  cases deleted with
  | false =>
      refine ⟨h.started, h.reads, ?_, hinPage.placed, h.yields, h.moves, h.gone, h.malformed⟩
      rw [Delivery.consume, rest_afterEntry]
      exact hahead
  | true =>
      refine ⟨h.started, h.reads, ?_, hinPage.placed, h.yields, h.moves, ?_, ?_⟩
      · rw [Delivery.consume, rest_afterEntry]
        exact hahead.xdel ⟨last, List.mem_of_getLast? hlast, hid⟩
      · intro e he other hin
        have hin : other ∈ (s.store.xdel key given).entriesAt key := hin
        rw [StreamStore.entriesAt_xdel] at hin
        exact h.gone e he other (List.mem_of_mem_filter hin)
      · have hsame : (s.store.xdel key given).fieldsAt streams.malformedKey
            = s.store.fieldsAt streams.malformedKey :=
          StreamStore.fieldsAt_congr (StreamStore.xdel_of_ne given hkey.symm)
        rw [Delivery.consume, if_pos rfl, hsame]
        exact h.malformed

/-- An entry of another client comes last. -/
theorem Ahead.append {store : StreamStore Fields} {held visited rest : List Entry}
    (h : Ahead key store held visited rest) (now : Nat) (fields : Fields) :
    Ahead key (store.xadd now key fields) (held ++ [(store.nextIdAt key now, fields)]) visited rest := by
  obtain ⟨later, hheld, hlater⟩ := h.later
  have hlast := store.lastIdAt_lt_nextIdAt key now
  refine ⟨?_, ?_, ?_, later ++ [(store.nextIdAt key now, fields)], ?_, ?_⟩
  · refine List.pairwise_append.mpr ⟨h.sorted, List.pairwise_singleton _ _, fun a ha b hb => ?_⟩
    rw [List.mem_singleton.mp hb]
    exact Nat.lt_of_le_of_lt (h.le_lastId a ha) hlast
  · rw [StreamStore.lastIdAt_xadd]
    intro e he
    rcases List.mem_append.mp he with hold | hnew
    · exact Nat.le_of_lt (Nat.lt_of_le_of_lt (h.le_lastId e hold) hlast)
    · rw [List.mem_singleton.mp hnew]
  · rw [StreamStore.entriesAt_xadd]
    intro e he
    exact List.mem_append.mpr ((List.mem_append.mp he).imp_left (h.subset e))
  · rw [hheld]
    simp only [List.append_assoc]
  · rw [StreamStore.entriesAt_xadd]
    intro e he
    exact List.mem_append.mpr ((List.mem_append.mp he).imp_left (hlater e))

theorem Inv.append (hkey : key ≠ streams.malformedKey) {store : StreamStore Fields}
    {s : Iteration F} (h : Inv client streams key pageSize store s) {now : Nat} {other : String}
    {fields : Fields} (hreads : other = key → client.Reads fields) :
    Inv client streams key pageSize store (Delivery.append streams key s now other fields) := by
  by_cases hsource : other = key
  · subst hsource
    have hheld : (Delivery.append streams other s now other fields).held
        = s.held ++ [(s.store.nextIdAt other now, fields)] := if_pos rfl
    have hothers : (Delivery.append streams other s now other fields).others = s.others := if_neg hkey
    refine ⟨?_, ?_, ?_, h.placed, h.yields, h.moves, ?_, ?_⟩
    · rw [hheld]
      exact h.started.trans (List.prefix_append _ _)
    · rw [hheld]
      intro e he
      rcases List.mem_append.mp he with hold | hnew
      · exact h.reads e hold
      · rw [List.mem_singleton.mp hnew]
        exact hreads rfl
    · rw [hheld]
      exact h.ahead.append now fields
    · intro e he entry hin
      have hin : entry ∈ (s.store.xadd now other fields).entriesAt other := hin
      rw [StreamStore.entriesAt_xadd] at hin
      rcases List.mem_append.mp hin with hold | hnew
      · exact h.gone e he entry hold
      · rw [List.mem_singleton.mp hnew]
        have hmem : e ∈ s.held := by
          obtain ⟨later, hsplit, -⟩ := h.ahead.later
          have hvisited : e ∈ s.visited := by
            have he : e ∈ s.moved := he
            rw [h.moves] at he
            exact List.mem_of_mem_filter he
          rw [hsplit]
          exact List.mem_append_left _ hvisited
        have hle := h.ahead.le_lastId e hmem
        have hlt := s.store.lastIdAt_lt_nextIdAt other now
        exact Nat.ne_of_gt (Nat.lt_of_le_of_lt hle hlt)
    · rw [hothers]
      have hsame : (s.store.xadd now other fields).fieldsAt streams.malformedKey
          = s.store.fieldsAt streams.malformedKey :=
        StreamStore.fieldsAt_congr (StreamStore.xadd_of_ne now fields hkey.symm)
      rw [Delivery.append, hsame]
      exact h.malformed
  · have hheld : (Delivery.append streams key s now other fields).held = s.held := if_neg hsource
    have hsame : s.store.xadd now other fields key = s.store key :=
      StreamStore.xadd_of_ne now fields (Ne.symm hsource)
    refine ⟨?_, ?_, ?_, h.placed, h.yields, h.moves, ?_, ?_⟩
    · rw [hheld]
      exact h.started
    · rw [hheld]
      exact h.reads
    · rw [hheld]
      exact h.ahead.congr hsame
    · intro e he entry hin
      have hin : entry ∈ (s.store.xadd now other fields).entriesAt key := hin
      rw [StreamStore.entriesAt_congr hsame] at hin
      exact h.gone e he entry hin
    · by_cases hmalformed : other = streams.malformedKey
      · subst hmalformed
        have hothers : (Delivery.append streams key s now streams.malformedKey fields).others
            = s.others ++ [fields] := if_pos rfl
        rw [hothers, Delivery.append, StreamStore.fieldsAt_xadd]
        refine (h.malformed.append_right [fields]).trans ?_
        rw [List.append_assoc, ← List.append_assoc _ s.others [fields], List.append_assoc (_ ++ _)]
        exact List.Perm.append_left _ List.perm_append_comm
      · have hothers : (Delivery.append streams key s now other fields).others = s.others :=
          if_neg hmalformed
        rw [hothers, Delivery.append,
          StreamStore.fieldsAt_congr (StreamStore.xadd_of_ne now fields (Ne.symm hmalformed))]
        exact h.malformed

/-! ## Runs -/

/-- What another client adds to the stream can be read. -/
def AppendReads (client : Client) (key : String) (_ : Iteration F) (e : Event) : Prop :=
  ∀ now fields, e = .append now key fields → client.Reads fields

theorem Inv.step (hkey : key ≠ streams.malformedKey) (hsize : 0 < pageSize)
    {store : StreamStore Fields} {s s' : Iteration F} {e : Event}
    (h : Inv client streams key pageSize store s) (hreads : AppendReads client key s e)
    (hstep : step client streams key pageSize s e = some s') :
    Inv client streams key pageSize store s' := by
  cases e with
  | fetch =>
      rw [Delivery.step] at hstep
      split at hstep
      · cases hstep
        exact h.fetch hsize ‹_›
      · cases hstep
  | handle now =>
      rw [Delivery.step] at hstep
      split at hstep
      · cases hstep
        exact h.handle hkey ‹_› now
      · cases hstep
  | next deleted =>
      rw [Delivery.step] at hstep
      split at hstep
      · cases hstep
        exact h.consume hkey ‹_› deleted
      · cases hstep
  | append now other fields =>
      cases hstep
      exact h.append hkey fun hother => hreads now fields (by rw [hother])

/-- How many more moves a reader may make: three for each entry ahead, and one. -/
def Reader.moves (ahead : Nat) : Reader → Nat
  | .fetching _ => 3 * ahead + 1
  | .handling _ _ => 3 * ahead
  | .suspended _ _ _ => 3 * ahead + 2
  | .returned => 0
  | .raised => 0

theorem moves_ofPage (ahead : Nat) (page : List Entry) : (ofPage page).moves ahead ≤ 3 * ahead := by
  cases page with
  | nil => exact Nat.zero_le _
  | cons entry rest => exact Nat.le_refl _

theorem moves_afterEntry (ahead pageSize : Nat) (page rest : List Entry) :
    (afterEntry pageSize page rest).moves ahead ≤ 3 * ahead + 1 := by
  cases rest with
  | nil =>
      rw [afterEntry, afterPage]
      split
      · exact Nat.zero_le _
      · exact Nat.le_refl _
  | cons entry rest => exact Nat.le_succ _

def remaining (s : Iteration F) : Nat := s.reader.moves (s.held.length - s.visited.length)

/-- A move pays for itself, and an entry of another client for three. -/
theorem remaining_step (hkey : key ≠ streams.malformedKey) (hsize : 0 < pageSize)
    {store : StreamStore Fields} {s s' : Iteration F} {e : Event}
    (h : Inv client streams key pageSize store s) (hreads : AppendReads client key s e)
    (hstep : step client streams key pageSize s e = some s') :
    Inv client streams key pageSize store s' ∧
      remaining s' + (if e.isMove then 1 else 0)
        ≤ remaining s + if e.appendsTo key then 3 else 0 := by
  refine ⟨h.step hkey hsize hreads hstep, ?_⟩
  cases e with
  | fetch =>
      rw [Delivery.step] at hstep
      split at hstep
      · rename_i last hreader
        cases hstep
        have hpage := moves_ofPage (s.held.length - s.visited.length)
          (s.store.xrangePast key last pageSize)
        have hafter : remaining (fetch client key pageSize s last)
            ≤ 3 * (s.held.length - s.visited.length) := by
          rw [remaining, fetch]
          dsimp only
          split
          · exact hpage
          · exact Nat.zero_le _
        have hbefore : remaining s = 3 * (s.held.length - s.visited.length) + 1 := by
          rw [remaining, hreader, Reader.moves]
        rw [hbefore]
        exact Nat.succ_le_succ hafter
      · cases hstep
  | handle now =>
      rw [Delivery.step] at hstep
      split at hstep
      · rename_i page entry rest hreader
        cases hstep
        obtain ⟨later, hheld, -⟩ := h.ahead.later
        rw [hreader, Reader.rest] at hheld
        have hlen : s.visited.length + 1 ≤ s.held.length := by
          rw [hheld, List.length_append, List.length_append, List.length_cons]
          omega
        have hbefore : remaining s = 3 * (s.held.length - s.visited.length) := by
          rw [remaining, hreader, Reader.moves]
        have hvisited : (s.visited ++ [entry]).length = s.visited.length + 1 := List.length_append
        show remaining (handle client streams key pageSize now s page entry rest) + 1
          ≤ remaining s + 0
        cases hread : readEntry F client entry.1 entry.2 with
        | raises =>
            have hmem : entry ∈ s.held := by
              rw [hheld]
              exact List.mem_append_right _ List.mem_cons_self
            exact absurd hread (readEntry_ne_raises (h.reads entry hmem))
        | batch batch =>
            rw [handle_batch hread, hbefore, remaining, Reader.moves, hvisited]
            dsimp only
            omega
        | malformed payload error =>
            have hafter := moves_afterEntry (s.held.length - (s.visited.length + 1)) pageSize page rest
            rw [handle_malformed hread, hbefore, remaining, hvisited]
            dsimp only
            omega
      · cases hstep
  | next deleted =>
      rw [Delivery.step] at hstep
      split at hstep
      · rename_i given page rest hreader
        cases hstep
        have hafter := moves_afterEntry (s.held.length - s.visited.length) pageSize page rest
        have hbefore : remaining s = 3 * (s.held.length - s.visited.length) + 2 := by
          rw [remaining, hreader, Reader.moves]
        rw [hbefore]
        exact Nat.succ_le_succ hafter
      · cases hstep
  | append now other fields =>
      cases hstep
      show (s.reader.moves _) + 0 ≤ s.reader.moves _ + if decide (other = key) then 3 else 0
      by_cases hother : other = key
      · have hheld : (Delivery.append streams key s now other fields).held.length
            = s.held.length + 1 := by
          rw [Delivery.append, if_pos hother, List.length_append, List.length_singleton]
        rw [hheld, if_pos (decide_eq_true hother)]
        have hvisited : (Delivery.append streams key s now other fields).visited = s.visited := rfl
        rw [hvisited]
        cases s.reader <;> simp only [Reader.moves] <;> omega
      · have hheld : (Delivery.append streams key s now other fields).held = s.held :=
          if_neg hother
        rw [hheld]
        exact Nat.le_add_right _ _

/-- Until it returns, the reader or its consumer can go on. -/
theorem Inv.goesOn {store : StreamStore Fields} {s : Iteration F}
    (h : Inv client streams key pageSize store s) : s.reader = .returned ∨
      ∃ e s', e.isMove = true ∧ Delivery.step client streams key pageSize s e = some s' := by
  have hplaced := h.placed
  cases hreader : s.reader with
  | returned => exact .inl rfl
  | raised =>
      rw [hreader] at hplaced
      exact absurd hplaced id
  | fetching last => exact .inr ⟨.fetch, _, rfl, by rw [Delivery.step, hreader]⟩
  | suspended given page rest => exact .inr ⟨.next false, _, rfl, by rw [Delivery.step, hreader]⟩
  | handling page rest =>
      rw [hreader] at hplaced
      cases rest with
      | nil => exact absurd rfl hplaced.1
      | cons entry rest => exact .inr ⟨.handle 0, _, rfl, by rw [Delivery.step, hreader]⟩

end

theorem key_ne_malformedKey (venue : String) (source : Source) :
    source.key (.forVenue venue) ≠ (RedisBatchStore.forVenue venue).malformedKey := by
  intro h
  have hlength := congrArg String.length h
  cases source with
  | pending =>
    change ("listener:ingest:" ++ venue ++ ":pending").length =
      ("listener:ingest:" ++ venue ++ ":malformed").length at hlength
    simp only [String.length_append] at hlength
    exact absurd (Nat.add_left_cancel hlength) (by decide)
  | deadLetters =>
    change ("listener:ingest:" ++ venue ++ ":dead-letter").length =
      ("listener:ingest:" ++ venue ++ ":malformed").length at hlength
    simp only [String.length_append] at hlength
    exact absurd (Nat.add_left_cancel hlength) (by decide)

/-- The entries of a stream that the client can read are visited once each, in order: what a run
reads is what the stream is for, and it ends. -/
theorem readsStream_of_run (venue : String) (source : Source) (hsize : 0 < pageSize)
    {store : StreamStore Fields}
    (hstart : ∀ e ∈ store.entriesAt (source.key (.forVenue venue)), client.Reads e.2)
    {es : List Event}
    (hreads : ∀ now fields, .append now (source.key (.forVenue venue)) fields ∈ es →
      client.Reads fields)
    {s : Iteration F}
    (hrun : runFrom (step client (.forVenue venue) (source.key (.forVenue venue)) pageSize)
      (.start (source.key (.forVenue venue)) store) es = some s) :
    ReadsStream client (.forVenue venue) (source.key (.forVenue venue)) store s ∧
      (s.reader = .returned ∨ ∃ e s', e.isMove = true ∧
        step client (.forVenue venue) (source.key (.forVenue venue)) pageSize s e = some s') ∧
      es.countP Event.isMove
        ≤ 3 * (store.entriesAt (source.key (.forVenue venue))).length + 1
          + 3 * es.countP (Event.appendsTo (source.key (.forVenue venue))) := by
  have hkey := key_ne_malformedKey venue source
  generalize source.key (.forVenue venue) = key at *
  have hok : AllSteps (step client (.forVenue venue) key pageSize) (AppendReads client key)
      (.start key store : Iteration F) es := by
    intro before e mid hpre _ now fields he
    refine hreads now fields (hpre.subset (List.mem_append_right _ ?_))
    rw [he]
    exact List.mem_singleton_self _
  have hinv : Inv client (.forVenue venue) key pageSize store s :=
    runFrom_inv_of_allSteps (Inv client (.forVenue venue) key pageSize store) (AppendReads client key)
      (fun _ _ _ h he hs => h.step hkey hsize he hs) hok (inv_start hstart) hrun
  refine ⟨hinv.readsStream, hinv.goesOn, ?_⟩
  have hcount := countP_moves_le (Inv client (.forVenue venue) key pageSize store)
    (AppendReads client key) remaining Event.isMove (Event.appendsTo key) 3
    (fun _ _ _ h he hs => remaining_step hkey hsize h he hs) hok (inv_start hstart) hrun
  have hfirst : remaining (.start key store : Iteration F) = 3 * (store.entriesAt key).length + 1 := rfl
  omega

end

/-! ## A payload of brackets -/

/-- The client of a listener: texts, and a `json.loads` that gives up on ten thousand brackets. -/
def listenerClient : Client where
  decodeResponses := true
  tooDeep text := 10000 ≤ (text.toList.takeWhile fun c => c = '[').length
  jsonErrorText _ := "Expecting value: line 1 column 1 (char 0)"
  unicodeErrorText _ := ""
  uuidErrorText _ := "badly formed hexadecimal UUID string"

def pendingKey : String := Source.pending.key (.forVenue "skinport")

/-- So many opening brackets. -/
def brackets (n : Nat) : String := String.ofList (List.replicate n '[')

theorem tooDeep_brackets {n : Nat} (h : 10000 ≤ n) : listenerClient.tooDeep (brackets n) = true := by
  have hall : (List.replicate n '[').takeWhile (fun c => c = '[') = List.replicate n '[' := by
    rw [List.takeWhile_replicate, if_pos (by decide)]
  show decide (10000 ≤ ((brackets n).toList.takeWhile fun c => c = '[').length) = true
  rw [brackets, String.toList_ofList, hall, List.length_replicate]
  exact decide_eq_true h

theorem brackets_ne_empty {n : Nat} (h : 0 < n) : brackets n ≠ "" := by
  intro hempty
  have hlength := congrArg String.length hempty
  rw [brackets, String.length_ofList, List.length_replicate] at hlength
  exact absurd hlength (Nat.ne_of_gt h)

theorem readEntry_tooDeep {payload : String} (hne : payload ≠ "")
    (hdeep : listenerClient.tooDeep payload = true) (id : Nat) :
    readEntry FloatText listenerClient id [(.text "payload", .text payload)] = .raises := by
  have hvalue : valueOf [(.text "payload", .text payload)] "payload" = some (.text payload) := rfl
  have hpayload : listenerClient.payloadOf [(.text "payload", .text payload)]
      = some (.text payload) := by
    have hdecode : listenerClient.decodeResponses = true := rfl
    rw [Client.payloadOf, if_pos hdecode, hvalue, Option.filter_some, if_pos]
    exact decide_eq_true fun h => hne (RedisBytes.text.inj h)
  have hraises : deserialize listenerClient (idText id) payload
      = (.error .tooDeep : Except _ (StoredBatch FloatText)) := by
    rw [deserialize, jsonLoads, if_pos hdeep]
    rfl
  rw [readEntry, hpayload]
  dsimp only
  rw [hraises]

/-- A pending stream with one entry. -/
def oneEntry (payload : String) : StreamStore Fields :=
  StreamStore.xadd (fun _ => none) 1 pendingKey [(.text "payload", .text payload)]

theorem raised_of_tooDeep {payload : String} (hne : payload ≠ "")
    (hdeep : listenerClient.tooDeep payload = true) : ∃ s : Iteration FloatText,
    runFrom (step listenerClient (.forVenue "skinport") pendingKey 100)
      (.start pendingKey (oneEntry payload)) [.fetch, .handle 2] = some s ∧ s.reader = .raised := by
  have hpage : (oneEntry payload).xrangePast pendingKey none 100
      = [(1, [(.text "payload", .text payload)])] := by
    rw [StreamStore.xrangePast, oneEntry, StreamStore.entriesAt_xadd]
    rfl
  let page : List Entry := [(1, [(.text "payload", .text payload)])]
  let s1 : Iteration FloatText :=
    { Iteration.start pendingKey (oneEntry payload) with reader := ofPage page }
  have hfetch : fetch listenerClient pendingKey 100
      (.start pendingKey (oneEntry payload) : Iteration FloatText) none = s1 :=
    fetch_of_page hpage rfl
  have hraised : (handle listenerClient (.forVenue "skinport") pendingKey 100 2 s1 page
      (1, [(.text "payload", .text payload)]) []).reader = .raised := by
    rw [handle, readEntry_tooDeep hne hdeep]
  refine ⟨_, ?_, hraised⟩
  show (some (fetch listenerClient pendingKey 100 _ none)).bind _ = _
  rw [hfetch]
  rfl

/-- `json.loads` raises `RecursionError`, which is not caught: the entry stays where it is, and
ends every iteration. -/
theorem not_readsStream_brackets : ∃ s : Iteration FloatText,
    runFrom (step listenerClient (.forVenue "skinport") pendingKey 100)
      (.start pendingKey (oneEntry (brackets 100000))) [.fetch, .handle 2] = some s ∧
    ¬ ReadsStream listenerClient (.forVenue "skinport") pendingKey (oneEntry (brackets 100000)) s := by
  obtain ⟨s, hrun, hraised⟩ := raised_of_tooDeep (brackets_ne_empty (by decide))
    (tooDeep_brackets (show 10000 ≤ 100000 by decide))
  exact ⟨s, hrun, fun h => h.not_raised hraised⟩

/-- A pending stream with a batch, and then an entry that is no JSON. -/
def twoEntries : StreamStore Fields :=
  let batch := "\x7b\"batch_id\":\"12345678-1234-5678-1234-567812345678\",\"venue\":\"skinport\",\"ticks\":[]\x7d"
  StreamStore.xadd (StreamStore.xadd (fun _ => none) 1 pendingKey [(.text "payload", .text batch)])
    2 pendingKey [(.text "payload", .text "not-json")]

/-- The batch is delivered and deleted, and the other entry is moved. -/
def twoEntriesRun : List Event := [.fetch, .handle 3, .next true, .handle 4, .fetch]

theorem readsStream_of_run_twoEntries : ∃ s : Iteration FloatText,
    runFrom (step listenerClient (.forVenue "skinport") pendingKey 2)
      (.start pendingKey twoEntries) twoEntriesRun = some s ∧
    ReadsStream listenerClient (.forVenue "skinport") pendingKey twoEntries s ∧
    twoEntriesRun.countP Event.isMove ≤ 7 := by
  have hsome : (runFrom (step (F := FloatText) listenerClient (.forVenue "skinport") pendingKey 2)
      (.start pendingKey twoEntries) twoEntriesRun).isSome = true := by decide +kernel
  obtain ⟨s, hs⟩ := Option.isSome_iff_exists.mp hsome
  have hrun := @readsStream_of_run FloatText _ listenerClient 2 "skinport" .pending (by decide)
    twoEntries (by decide +kernel) twoEntriesRun nofun s hs
  exact ⟨s, hs, hrun.1, hrun.2.2⟩

end BrandSniper.Delivery
