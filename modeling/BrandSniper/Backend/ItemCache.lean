import BrandSniper.Kit.OrderedDict
import BrandSniper.Kit.ReadCommitted
import BrandSniper.Kit.Runs
import Mathlib.Logic.Function.Basic

/-!
# The item cache

`get_or_create_item_id` of `apps/backend/main.py` and the process-wide
`item_cache`, under concurrent bulk and trade requests. A request resolves
the name of each of its records to an item id, from the cache, from its own
pending items, or by an upsert into `market_items`. It inserts its rows,
commits, and only then adds its pending items to the cache.

A request may fail at any statement, and after its commit before the cache is
updated. The process may restart, and another process may create items.
-/

namespace BrandSniper.ItemCache

open Kit

/-- Item rows are never deleted. Of a row the backend reads its id and name only. -/
structure MarketItem where
  id : Nat
  marketHashName : String
  deriving DecidableEq

/-- The unique index on the name. -/
def MarketItem.conflicts (a b : MarketItem) : Bool := a.marketHashName = b.marketHashName

/-- The primary key. -/
def MarketItem.sameId (a b : MarketItem) : Bool := a.id = b.id

theorem MarketItem.conflicts_comm (a b : MarketItem) : a.conflicts b = b.conflicts a :=
  decide_eq_decide.mpr eq_comm

theorem MarketItem.sameId_comm (a b : MarketItem) : a.sameId b = b.sameId a :=
  decide_eq_decide.mpr eq_comm

/-- A tick or trade row: the item it references, and the name the request carried for it. -/
structure RecordRow where
  itemId : Nat
  marketHashName : String
  deriving DecidableEq

/-- Names with the ids they were resolved to. -/
abbrev ItemIds := OrderedDict String Nat

inductive Endpoint where
  | bulk
  | trade
  deriving DecidableEq, Repr

inductive ItemPhase where
  /-- The pending items, and the ids of the records resolved so far. -/
  | resolving (pendingItems : ItemIds) (itemIds : List Nat)
  /-- All statements ran. -/
  | stored (pendingItems : ItemIds)
  | committed (pendingItems : ItemIds)
  | done
  | failed

structure ItemRequest where
  endpoint : Endpoint
  /-- The names of its records. -/
  names : List String
  phase : ItemPhase

structure ItemBackend where
  items : TxTable MarketItem
  /-- The next id of `market_items`. An upsert that inserts nothing uses one up too. -/
  sequence : Nat
  records : TxTable RecordRow
  itemCache : ItemIds
  requests : Nat → Option ItemRequest

/-- The item of a name in the cache or among the request's pending items. -/
def knownItemId (itemCache pendingItems : ItemIds) (name : String) : Option Nat :=
  (itemCache.get? name).or (pendingItems.get? name)

/-- The rows of a request that resolved all its names. -/
def recordRows (names : List String) (itemIds : List Nat) : List RecordRow :=
  List.zipWith (fun name itemId => ⟨itemId, name⟩) names itemIds

/-- The rows of a request; a trade that repeats a purchase has none. -/
def insertedRows (inserted : Bool) (names : List String) (itemIds : List Nat) : List RecordRow :=
  if inserted then recordRows names itemIds else []

inductive ItemEvent where
  | receiveBulk (request : Nat) (names : List String)
  | receiveTrade (request : Nat) (name : String)
  /-- The next name is known already. -/
  | lookUp (request : Nat)
  /-- The upsert of the next name. -/
  | upsert (request : Nat)
  /-- The insert of the rows; a repeated trade inserts none. -/
  | store (request : Nat) (inserted : Bool)
  /-- A replayed batch stores nothing. -/
  | replay (request : Nat)
  | commit (request : Nat)
  /-- `item_cache.update(pending_items)` -/
  | updateCache (request : Nat)
  | fail (request : Nat)
  | restart
  /-- Another process commits a new item. -/
  | createElsewhere (name : String)

namespace ItemBackend

def empty : ItemBackend := ⟨.empty, 0, .empty, .empty, fun _ => none⟩

def setPhase (st : ItemBackend) (r : Nat) (endpoint : Endpoint) (names : List String)
    (phase : ItemPhase) : ItemBackend :=
  { st with requests := Function.update st.requests r (some ⟨endpoint, names, phase⟩) }

/-- The row an upsert returns the id of, when it inserts nothing. -/
def existingId (st : ItemBackend) (r : Nat) (name : String) : Option Nat :=
  ((st.items.visible r).find? fun item => item.marketHashName = name).map MarketItem.id

/-- `INSERT ... ON CONFLICT DO UPDATE ... RETURNING id` -/
def upsertItem (st : ItemBackend) (r : Nat) (name : String) : Option (ItemBackend × Nat) :=
  match st.items.insert? MarketItem.conflicts r ⟨st.sequence, name⟩ with
  | none => none
  | some (items, true) =>
      some ({ st with items := items, sequence := st.sequence + 1 }, st.sequence)
  | some (_, false) =>
      (st.existingId r name).map fun itemId => ({ st with sequence := st.sequence + 1 }, itemId)

/-- `select(MarketItem.market_hash_name, MarketItem.id)` at the start of the process. -/
def loadCache (items : TxTable MarketItem) : ItemIds :=
  OrderedDict.empty.setAll (items.committed.map fun row => (row.2.marketHashName, row.2.id))

/-- One statement of one request. -/
def step (st : ItemBackend) : ItemEvent → Option ItemBackend
  | .receiveBulk r names =>
      match st.requests r with
      | none => some (st.setPhase r .bulk names (.resolving .empty []))
      | some _ => none
  | .receiveTrade r name =>
      match st.requests r with
      | none => some (st.setPhase r .trade [name] (.resolving .empty []))
      | some _ => none
  | .lookUp r =>
      match st.requests r with
      | some ⟨endpoint, names, .resolving pendingItems itemIds⟩ =>
          names[itemIds.length]?.bind fun name =>
            (knownItemId st.itemCache pendingItems name).map fun itemId =>
              st.setPhase r endpoint names (.resolving pendingItems (itemIds ++ [itemId]))
      | _ => none
  | .upsert r =>
      match st.requests r with
      | some ⟨endpoint, names, .resolving pendingItems itemIds⟩ =>
          names[itemIds.length]?.bind fun name =>
            if (knownItemId st.itemCache pendingItems name).isSome then none
            else (st.upsertItem r name).map fun (st, itemId) =>
              st.setPhase r endpoint names
                (.resolving (pendingItems.set name itemId) (itemIds ++ [itemId]))
      | _ => none
  | .store r inserted =>
      match st.requests r with
      | some ⟨endpoint, names, .resolving pendingItems itemIds⟩ =>
          if itemIds.length = names.length ∧ (endpoint = .bulk → inserted = true) then
            some ({ st with
              records := st.records.append r (insertedRows inserted names itemIds) }.setPhase r
                endpoint names (.stored pendingItems))
          else none
      | _ => none
  | .replay r =>
      match st.requests r with
      | some ⟨.bulk, names, .resolving _ []⟩ =>
          some (st.setPhase r .bulk names (.stored .empty))
      | _ => none
  | .commit r =>
      match st.requests r with
      | some ⟨endpoint, names, .stored pendingItems⟩ =>
          some ({ st with items := st.items.commit r, records := st.records.commit r }.setPhase r
            endpoint names (.committed pendingItems))
      | _ => none
  | .updateCache r =>
      match st.requests r with
      | some ⟨endpoint, names, .committed pendingItems⟩ =>
          some ({ st with itemCache := st.itemCache.setAll pendingItems.items }.setPhase r
            endpoint names .done)
      | _ => none
  | .fail r =>
      match st.requests r with
      | some ⟨_, _, .done⟩ => none
      | some ⟨endpoint, names, _⟩ =>
          some ({ st with items := st.items.rollback r, records := st.records.rollback r }.setPhase r
            endpoint names .failed)
      | none => none
  | .restart =>
      some { st with
        items := { st.items with pending := [] }
        records := { st.records with pending := [] }
        itemCache := loadCache st.items
        requests := fun r => (st.requests r).map fun q => { q with phase := .failed } }
  | .createElsewhere name =>
      if st.items.rows.any fun row => row.2.marketHashName = name then none
      else some { st with
        items := { st.items with committed := st.items.committed ++ [(0, ⟨st.sequence, name⟩)] }
        sequence := st.sequence + 1 }

/-- What each event does, by the phase of its request. -/
inductive Stepped (st : ItemBackend) : ItemEvent → ItemBackend → Prop where
  | receiveBulk {r names} : st.requests r = none →
      Stepped st (.receiveBulk r names) (st.setPhase r .bulk names (.resolving .empty []))
  | receiveTrade {r name} : st.requests r = none →
      Stepped st (.receiveTrade r name) (st.setPhase r .trade [name] (.resolving .empty []))
  | lookUp {r endpoint names pendingItems itemIds name itemId} :
      st.requests r = some ⟨endpoint, names, .resolving pendingItems itemIds⟩ →
      names[itemIds.length]? = some name →
      knownItemId st.itemCache pendingItems name = some itemId →
      Stepped st (.lookUp r)
        (st.setPhase r endpoint names (.resolving pendingItems (itemIds ++ [itemId])))
  | upsert {r endpoint names pendingItems itemIds name stored itemId} :
      st.requests r = some ⟨endpoint, names, .resolving pendingItems itemIds⟩ →
      names[itemIds.length]? = some name → st.upsertItem r name = some (stored, itemId) →
      Stepped st (.upsert r) (stored.setPhase r endpoint names
        (.resolving (pendingItems.set name itemId) (itemIds ++ [itemId])))
  | store {r inserted endpoint names pendingItems itemIds} :
      st.requests r = some ⟨endpoint, names, .resolving pendingItems itemIds⟩ →
      itemIds.length = names.length →
      Stepped st (.store r inserted)
        ({ st with records := st.records.append r (insertedRows inserted names itemIds) }.setPhase r
          endpoint names (.stored pendingItems))
  | replay {r names pendingItems} :
      st.requests r = some ⟨.bulk, names, .resolving pendingItems []⟩ →
      Stepped st (.replay r) (st.setPhase r .bulk names (.stored .empty))
  | commit {r endpoint names pendingItems} :
      st.requests r = some ⟨endpoint, names, .stored pendingItems⟩ →
      Stepped st (.commit r)
        ({ st with items := st.items.commit r, records := st.records.commit r }.setPhase r
          endpoint names (.committed pendingItems))
  | updateCache {r endpoint names pendingItems} :
      st.requests r = some ⟨endpoint, names, .committed pendingItems⟩ →
      Stepped st (.updateCache r)
        ({ st with itemCache := st.itemCache.setAll pendingItems.items }.setPhase r endpoint names
          .done)
  | fail {r endpoint names phase} : st.requests r = some ⟨endpoint, names, phase⟩ →
      Stepped st (.fail r)
        ({ st with items := st.items.rollback r, records := st.records.rollback r }.setPhase r
          endpoint names .failed)
  | restart : Stepped st .restart
      { st with
        items := { st.items with pending := [] }
        records := { st.records with pending := [] }
        itemCache := loadCache st.items
        requests := fun r => (st.requests r).map fun q => { q with phase := .failed } }
  | createElsewhere {name} : (∀ row ∈ st.items.rows, row.2.marketHashName ≠ name) →
      Stepped st (.createElsewhere name)
        { st with
          items := { st.items with committed := st.items.committed ++ [(0, ⟨st.sequence, name⟩)] }
          sequence := st.sequence + 1 }

theorem step_cases {st st' : ItemBackend} {e : ItemEvent} (h : st.step e = some st') :
    Stepped st e st' := by
  cases e with
  | receiveBulk r names =>
      simp only [step] at h
      split at h
      · rename_i hr
        cases h
        exact .receiveBulk hr
      · cases h
  | receiveTrade r name =>
      simp only [step] at h
      split at h
      · rename_i hr
        cases h
        exact .receiveTrade hr
      · cases h
  | lookUp r =>
      simp only [step] at h
      split at h
      · rename_i endpoint names pendingItems itemIds hr
        obtain ⟨name, hname, h⟩ := Option.bind_eq_some_iff.mp h
        obtain ⟨itemId, hknown, rfl⟩ := Option.map_eq_some_iff.mp h
        exact .lookUp hr hname hknown
      · cases h
  | upsert r =>
      simp only [step] at h
      split at h
      · rename_i endpoint names pendingItems itemIds hr
        obtain ⟨name, hname, h⟩ := Option.bind_eq_some_iff.mp h
        split at h
        · cases h
        · obtain ⟨⟨stored, itemId⟩, hupsert, rfl⟩ := Option.map_eq_some_iff.mp h
          exact .upsert hr hname hupsert
      · cases h
  | store r inserted =>
      simp only [step] at h
      split at h
      · rename_i endpoint names pendingItems itemIds hr
        split at h
        · rename_i hresolved
          cases h
          exact .store hr hresolved.1
        · cases h
      · cases h
  | replay r =>
      simp only [step] at h
      split at h
      · rename_i names pendingItems hr
        cases h
        exact .replay hr
      · cases h
  | commit r =>
      simp only [step] at h
      split at h
      · rename_i endpoint names pendingItems hr
        cases h
        exact .commit hr
      · cases h
  | updateCache r =>
      simp only [step] at h
      split at h
      · rename_i endpoint names pendingItems hr
        cases h
        exact .updateCache hr
      · cases h
  | fail r =>
      simp only [step] at h
      split at h
      · cases h
      · rename_i endpoint names phase hdone hr
        cases h
        exact .fail hr
      · cases h
  | restart =>
      cases h
      exact .restart
  | createElsewhere name =>
      simp only [step] at h
      split at h
      · cases h
      · rename_i hnew
        cases h
        refine .createElsewhere fun row hrow hname => hnew ?_
        exact List.any_eq_true.mpr ⟨row, hrow, decide_eq_true hname⟩

theorem requests_setPhase (st : ItemBackend) (r : Nat) (endpoint : Endpoint) (names : List String)
    (phase : ItemPhase) (r' : Nat) : (st.setPhase r endpoint names phase).requests r'
      = if r' = r then some ⟨endpoint, names, phase⟩ else st.requests r' :=
  Function.update_apply _ _ _ _

/-! ## Item ids and the rows behind them -/

/-- The item row of the name and id is committed. -/
def Stored (items : TxTable MarketItem) (name : String) (itemId : Nat) : Prop :=
  ∃ row ∈ items.committed, row.2 = ⟨itemId, name⟩

/-- The transaction sees it: it is committed, or its own. -/
def Seen (items : TxTable MarketItem) (tx : Nat) (name : String) (itemId : Nat) : Prop :=
  ⟨itemId, name⟩ ∈ items.visible tx

section
variable {items items' : TxTable MarketItem} {tx tx' : Nat} {name : String} {itemId : Nat}

theorem seen_iff : Seen items tx name itemId
    ↔ Stored items name itemId ∨ (tx, ⟨itemId, name⟩) ∈ items.pending := by
  rw [Seen, TxTable.mem_visible]
  constructor
  · rintro (hstored | ⟨⟨owner, row⟩, hmem, rfl, rfl⟩)
    · exact .inl hstored
    · exact .inr hmem
  · rintro (hstored | hpending)
    · exact .inl hstored
    · exact .inr ⟨_, hpending, rfl, rfl⟩

theorem Stored.seen (h : Stored items name itemId) : Seen items tx name itemId := seen_iff.mpr (.inl h)

/-- More rows hide nothing. -/
theorem Seen.mono (h : Seen items tx name itemId)
    (hcommitted : ∀ row ∈ items.committed, row ∈ items'.committed)
    (hpending : ∀ row ∈ items.pending, row.1 = tx → row ∈ items'.pending ∨ row ∈ items'.committed) :
    Seen items' tx name itemId := by
  rcases seen_iff.mp h with ⟨row, hrow, heq⟩ | hown
  · exact seen_iff.mpr (.inl ⟨row, hcommitted row hrow, heq⟩)
  · rcases hpending _ hown rfl with hown | hstored
    · exact seen_iff.mpr (.inr hown)
    · exact seen_iff.mpr (.inl ⟨_, hstored, rfl⟩)

theorem Stored.commit (h : Stored items name itemId) : Stored (items.commit tx) name itemId := by
  obtain ⟨row, hrow, heq⟩ := h
  exact ⟨row, TxTable.mem_committed_commit.mpr (.inl hrow), heq⟩

/-- A commit stores what its transaction sees. -/
theorem Seen.commit_self (h : Seen items tx name itemId) : Stored (items.commit tx) name itemId := by
  rcases seen_iff.mp h with hstored | hown
  · exact hstored.commit
  · exact ⟨_, TxTable.mem_committed_commit.mpr (.inr ⟨hown, rfl⟩), rfl⟩

theorem Seen.commit (h : Seen items tx name itemId) : Seen (items.commit tx') tx name itemId := by
  refine h.mono (fun row hrow => TxTable.mem_committed_commit.mpr (.inl hrow)) fun row hrow hown => ?_
  by_cases htx : row.1 = tx'
  · exact .inr (TxTable.mem_committed_commit.mpr (.inr ⟨hrow, htx⟩))
  · exact .inl (TxTable.mem_pending_commit.mpr ⟨hrow, htx⟩)

/-- A rollback hides nothing from the other transactions. -/
theorem Seen.rollback (h : Seen items tx name itemId) (hne : tx ≠ tx') :
    Seen (items.rollback tx') tx name itemId := by
  refine h.mono (fun row hrow => hrow) fun row hrow hown => .inl ?_
  exact TxTable.mem_pending_rollback.mpr ⟨hrow, fun htx => hne (hown.symm.trans htx)⟩

end

/-! ## The invariant -/

/-- Every id of the dictionary belongs to its name's row. -/
def SoundIds (ids : ItemIds) (sound : String → Nat → Prop) : Prop :=
  ∀ name itemId, ids.get? name = some itemId → sound name itemId

/-- What a request in a phase relies on. -/
def PhaseHolds (items : TxTable MarketItem) (r : Nat) (names : List String) : ItemPhase → Prop
  | .resolving pendingItems itemIds => SoundIds pendingItems (Seen items r) ∧
      List.Forall₂ (Seen items r) (names.take itemIds.length) itemIds
  | .stored pendingItems => SoundIds pendingItems (Seen items r)
  | .committed pendingItems => SoundIds pendingItems (Stored items)
  | _ => True

structure Inv (st : ItemBackend) : Prop where
  names : st.items.Unique MarketItem.conflicts
  ids : st.items.Unique MarketItem.sameId
  fresh : ∀ row ∈ st.items.rows, row.2.id < st.sequence
  cache : SoundIds st.itemCache (Stored st.items)
  phases : ∀ r endpoint names phase, st.requests r = some ⟨endpoint, names, phase⟩ →
    PhaseHolds st.items r names phase
  pending : ∀ x ∈ st.records.pending, Seen st.items x.1 x.2.marketHashName x.2.itemId
  committed : ∀ x ∈ st.records.committed, Stored st.items x.2.marketHashName x.2.itemId

theorem inv_empty : empty.Inv where
  names := TxTable.unique_empty
  ids := TxTable.unique_empty
  fresh row hrow := by cases hrow
  cache name itemId h := by cases h
  phases r endpoint names phase h := by cases h
  pending x hx := by cases hx
  committed x hx := by cases hx

theorem PhaseHolds.mono {items items' : TxTable MarketItem} {r : Nat} {names : List String}
    {phase : ItemPhase} (h : PhaseHolds items r names phase)
    (hseen : ∀ name itemId, Seen items r name itemId → Seen items' r name itemId)
    (hstored : ∀ name itemId, Stored items name itemId → Stored items' name itemId) :
    PhaseHolds items' r names phase := by
  cases phase with
  | resolving pendingItems itemIds =>
      exact ⟨fun name itemId hget => hseen name itemId (h.1 name itemId hget),
        h.2.imp fun name itemId => hseen name itemId⟩
  | stored pendingItems => exact fun name itemId hget => hseen name itemId (h name itemId hget)
  | committed pendingItems => exact fun name itemId hget => hstored name itemId (h name itemId hget)
  | done => trivial
  | failed => trivial

section
variable {st st' : ItemBackend} {r : Nat} {endpoint : Endpoint} {names : List String}
  {pendingItems : ItemIds} {itemIds : List Nat} {phase : ItemPhase} {name : String} {itemId : Nat}

theorem Inv.setPhase (h : st.Inv) (hholds : PhaseHolds st.items r names phase) :
    (st.setPhase r endpoint names phase).Inv := by
  refine ⟨h.names, h.ids, h.fresh, h.cache, fun r' endpoint' names' phase' hr' => ?_, h.pending,
    h.committed⟩
  rw [requests_setPhase] at hr'
  split at hr'
  · rename_i heq
    subst heq
    cases hr'
    exact hholds
  · exact h.phases r' endpoint' names' phase' hr'

/-- One more name is resolved. -/
theorem resolved_concat (hname : names[itemIds.length]? = some name)
    (h : List.Forall₂ (Seen st.items r) (names.take itemIds.length) itemIds)
    (hseen : Seen st.items r name itemId) :
    List.Forall₂ (Seen st.items r) (names.take (itemIds ++ [itemId]).length)
      (itemIds ++ [itemId]) := by
  rw [List.length_append, List.length_singleton, List.take_add_one, hname]
  exact List.rel_append h (.cons hseen .nil)

theorem Inv.lookUp (h : st.Inv)
    (hr : st.requests r = some ⟨endpoint, names, .resolving pendingItems itemIds⟩)
    (hname : names[itemIds.length]? = some name)
    (hknown : knownItemId st.itemCache pendingItems name = some itemId) :
    (st.setPhase r endpoint names (.resolving pendingItems (itemIds ++ [itemId]))).Inv := by
  obtain ⟨hpending, hresolved⟩ := h.phases r endpoint names _ hr
  refine h.setPhase ⟨hpending, resolved_concat hname hresolved ?_⟩
  rw [knownItemId, Option.or_eq_some_iff] at hknown
  rcases hknown with hcached | ⟨-, hown⟩
  · exact (h.cache name itemId hcached).seen
  · exact hpending name itemId hown

/-- An upsert keeps everything, and its transaction sees the row of the id it returns. -/
theorem Inv.upsertItem (h : st.Inv) (hupsert : st.upsertItem r name = some (st', itemId)) :
    st'.Inv ∧ Seen st'.items r name itemId ∧ st'.requests = st.requests ∧
      ∀ name' itemId', Seen st.items r name' itemId' → Seen st'.items r name' itemId' := by
  unfold ItemBackend.upsertItem at hupsert
  split at hupsert
  · cases hupsert
  · rename_i items hinsert
    obtain ⟨hfalse, -, -⟩ | ⟨-, rfl, hfree⟩ := TxTable.insert?_cases hinsert
    · cases hfalse
    · cases hupsert
      have hmono : ∀ tx name' itemId', Seen st.items tx name' itemId' →
          Seen { st.items with pending := st.items.pending ++ [(r, ⟨st.sequence, name⟩)] } tx name'
            itemId' := fun tx name' itemId' hseen =>
        hseen.mono (fun row hrow => hrow) fun row hrow _ => .inl (List.mem_append_left _ hrow)
      refine ⟨⟨h.names.concat r hfree, h.ids.concat r fun row hrow => ?_, fun row hrow => ?_,
        h.cache, fun r' endpoint' names' phase' hr' => (h.phases r' endpoint' names' phase' hr').mono
          (hmono r') fun _ _ hstored => hstored, fun x hx => hmono _ _ _ (h.pending x hx),
        h.committed⟩, seen_iff.mpr (.inr ?_), rfl, hmono r⟩
      · exact decide_eq_false (Nat.ne_of_lt (h.fresh row hrow))
      · rw [TxTable.rows, ← List.append_assoc] at hrow
        rcases List.mem_append.mp hrow with hrow | hrow
        · exact Nat.lt_succ_of_lt (h.fresh row hrow)
        · rw [List.mem_singleton.mp hrow]
          exact Nat.lt_succ_self _
      · exact List.mem_append_right _ (List.mem_singleton_self _)
  · rename_i items hinsert
    obtain ⟨existing, hexisting, hpair⟩ := Option.map_eq_some_iff.mp hupsert
    cases hpair
    refine ⟨⟨h.names, h.ids, fun row hrow => Nat.lt_succ_of_lt (h.fresh row hrow), h.cache, h.phases,
      h.pending, h.committed⟩, ?_, rfl, fun _ _ hseen => hseen⟩
    obtain ⟨item, hfound, rfl⟩ := Option.map_eq_some_iff.mp hexisting
    have hname : item.marketHashName = name := by simpa using List.find?_some hfound
    subst hname
    exact List.mem_of_find?_eq_some hfound

theorem Inv.upsert {stored : ItemBackend} (h : st.Inv)
    (hr : st.requests r = some ⟨endpoint, names, .resolving pendingItems itemIds⟩)
    (hname : names[itemIds.length]? = some name)
    (hupsert : st.upsertItem r name = some (stored, itemId)) :
    (stored.setPhase r endpoint names
      (.resolving (pendingItems.set name itemId) (itemIds ++ [itemId]))).Inv := by
  obtain ⟨hinv, hseen, hrequests, hmono⟩ := h.upsertItem hupsert
  obtain ⟨hpending, hresolved⟩ := hinv.phases r endpoint names _ (hrequests ▸ hr)
  refine hinv.setPhase ⟨fun name' itemId' hget => ?_, resolved_concat hname hresolved hseen⟩
  rw [OrderedDict.get?_set] at hget
  split at hget
  · rename_i heq
    cases hget
    exact heq ▸ hseen
  · exact hpending name' itemId' hget

/-- The transaction sees the item of each of its rows. -/
theorem seen_recordRows {names : List String} {itemIds : List Nat}
    (h : List.Forall₂ (Seen st.items r) names itemIds) :
    ∀ row ∈ recordRows names itemIds, Seen st.items r row.marketHashName row.itemId := by
  induction h with
  | nil =>
      intro row hrow
      cases hrow
  | cons hseen _ ih =>
      intro row hrow
      rcases List.mem_cons.mp hrow with rfl | hrow
      · exact hseen
      · exact ih row hrow

theorem Inv.store {inserted : Bool} (h : st.Inv)
    (hr : st.requests r = some ⟨endpoint, names, .resolving pendingItems itemIds⟩)
    (hlength : itemIds.length = names.length) :
    Inv (({ st with records := st.records.append r (insertedRows inserted names itemIds) } :
      ItemBackend).setPhase r endpoint names (.stored pendingItems)) := by
  obtain ⟨hpending, hresolved⟩ := h.phases r endpoint names _ hr
  rw [hlength, List.take_length] at hresolved
  refine Inv.setPhase ⟨h.names, h.ids, h.fresh, h.cache, h.phases, fun x hx => ?_, h.committed⟩
    hpending
  rcases List.mem_append.mp hx with hx | hx
  · exact h.pending x hx
  · obtain ⟨row, hrow, rfl⟩ := List.mem_map.mp hx
    cases inserted with
    | false => cases hrow
    | true => exact seen_recordRows hresolved row hrow

theorem Inv.commit (h : st.Inv)
    (hr : st.requests r = some ⟨endpoint, names, .stored pendingItems⟩) :
    Inv (({ st with items := st.items.commit r, records := st.records.commit r } :
      ItemBackend).setPhase r endpoint names (.committed pendingItems)) := by
  have hpending := h.phases r endpoint names _ hr
  refine Inv.setPhase ⟨h.names.commit MarketItem.conflicts_comm r,
    h.ids.commit MarketItem.sameId_comm r,
    fun row hrow => h.fresh row ((TxTable.rows_commit_perm st.items r).mem_iff.mp hrow),
    fun name itemId hget => (h.cache name itemId hget).commit,
    fun r' endpoint' names' phase' hr' => (h.phases r' endpoint' names' phase' hr').mono
      (fun _ _ hseen => hseen.commit) fun _ _ hstored => hstored.commit,
    fun x hx => ?_, fun x hx => ?_⟩ fun name itemId hget => (hpending name itemId hget).commit_self
  · exact (h.pending x (TxTable.mem_pending_commit.mp hx).1).commit
  · rcases TxTable.mem_committed_commit.mp hx with hx | ⟨hx, hown⟩
    · exact (h.committed x hx).commit
    · have hseen := h.pending x hx
      rw [hown] at hseen
      exact hseen.commit_self

theorem Inv.updateCache (h : st.Inv)
    (hr : st.requests r = some ⟨endpoint, names, .committed pendingItems⟩) :
    Inv (({ st with itemCache := st.itemCache.setAll pendingItems.items } :
      ItemBackend).setPhase r endpoint names .done) := by
  have hpending := h.phases r endpoint names _ hr
  refine Inv.setPhase ⟨h.names, h.ids, h.fresh, fun name itemId hget => ?_, h.phases, h.pending,
    h.committed⟩ trivial
  rcases OrderedDict.get?_setAll hget with hmem | hcached
  · exact hpending name itemId (OrderedDict.get?_eq_some.mpr hmem)
  · exact h.cache name itemId hcached

/-- The others see what they saw; the request itself relies on nothing any more. -/
theorem Inv.fail (h : st.Inv) :
    Inv (({ st with items := st.items.rollback r, records := st.records.rollback r } :
      ItemBackend).setPhase r endpoint names .failed) := by
  refine ⟨h.names.rollback r, h.ids.rollback r, fun row hrow => h.fresh row ?_, h.cache,
    fun r' endpoint' names' phase' hr' => ?_, fun x hx => ?_, h.committed⟩
  · rcases TxTable.mem_rows.mp hrow with hrow | hrow
    · exact TxTable.mem_rows.mpr (.inl hrow)
    · exact TxTable.mem_rows.mpr (.inr (TxTable.mem_pending_rollback.mp hrow).1)
  · rw [requests_setPhase] at hr'
    split at hr'
    · cases hr'
      trivial
    · rename_i hne
      exact (h.phases r' endpoint' names' phase' hr').mono (fun _ _ hseen => hseen.rollback hne)
        fun _ _ hstored => hstored
  · obtain ⟨hx, hne⟩ := TxTable.mem_pending_rollback.mp hx
    exact (h.pending x hx).rollback hne

theorem Inv.restart (h : st.Inv) :
    Inv { st with
      items := { st.items with pending := [] }
      records := { st.records with pending := [] }
      itemCache := loadCache st.items
      requests := fun r => (st.requests r).map fun q => { q with phase := .failed } } := by
  have hrows : ∀ row ∈ TxTable.rows { st.items with pending := [] }, row ∈ st.items.rows := by
    intro row hrow
    rcases TxTable.mem_rows.mp hrow with hrow | hrow
    · exact TxTable.mem_rows.mpr (.inl hrow)
    · cases hrow
  refine ⟨h.names.sublist ?_, h.ids.sublist ?_, fun row hrow => h.fresh row (hrows row hrow),
    fun name itemId hget => ?_, fun r' endpoint' names' phase' hr' => ?_, fun x hx => ?_,
    h.committed⟩
  · exact List.Sublist.append_left (List.nil_sublist _) _
  · exact List.Sublist.append_left (List.nil_sublist _) _
  · rcases OrderedDict.get?_setAll hget with hmem | hempty
    · obtain ⟨row, hrow, hpair⟩ := List.mem_map.mp hmem
      cases hpair
      exact ⟨row, hrow, rfl⟩
    · cases hempty
  · obtain ⟨q, -, hq⟩ := Option.map_eq_some_iff.mp hr'
    cases hq
    trivial
  · cases hx

theorem Inv.createElsewhere (h : st.Inv)
    (hnew : ∀ row ∈ st.items.rows, row.2.marketHashName ≠ name) :
    Inv { st with
      items := { st.items with committed := st.items.committed ++ [(0, ⟨st.sequence, name⟩)] }
      sequence := st.sequence + 1 } := by
  have hmono : ∀ tx name' itemId', Seen st.items tx name' itemId' →
      Seen { st.items with committed := st.items.committed ++ [(0, ⟨st.sequence, name⟩)] } tx name'
        itemId' := fun tx name' itemId' hseen =>
    hseen.mono (fun row hrow => List.mem_append_left _ hrow) fun row hrow _ => .inl hrow
  have hstored : ∀ name' itemId', Stored st.items name' itemId' →
      Stored { st.items with committed := st.items.committed ++ [(0, ⟨st.sequence, name⟩)] } name'
        itemId' := by
    rintro name' itemId' ⟨row, hrow, heq⟩
    exact ⟨row, List.mem_append_left _ hrow, heq⟩
  refine ⟨h.names.concat_committed MarketItem.conflicts_comm 0 fun row hrow => ?_,
    h.ids.concat_committed MarketItem.sameId_comm 0 fun row hrow => ?_, fun row hrow => ?_,
    fun name' itemId' hget => hstored name' itemId' (h.cache name' itemId' hget),
    fun r' endpoint' names' phase' hr' => (h.phases r' endpoint' names' phase' hr').mono
      (hmono r') hstored, fun x hx => hmono _ _ _ (h.pending x hx),
    fun x hx => hstored _ _ (h.committed x hx)⟩
  · exact decide_eq_false (hnew row hrow)
  · exact decide_eq_false (Nat.ne_of_lt (h.fresh row hrow))
  · rcases TxTable.mem_rows.mp hrow with hrow | hrow
    · rcases List.mem_append.mp hrow with hrow | hrow
      · exact Nat.lt_succ_of_lt (h.fresh row (TxTable.mem_rows.mpr (.inl hrow)))
      · rw [List.mem_singleton.mp hrow]
        exact Nat.lt_succ_self _
    · exact Nat.lt_succ_of_lt (h.fresh row (TxTable.mem_rows.mpr (.inr hrow)))

end

/-! ## Every run -/

theorem inv_step (st : ItemBackend) (e : ItemEvent) (st' : ItemBackend) (h : st.Inv)
    (hstep : st.step e = some st') : st'.Inv := by
  cases step_cases hstep with
  | receiveBulk hr => exact h.setPhase ⟨fun _ _ hget => (by cases hget), .nil⟩
  | receiveTrade hr => exact h.setPhase ⟨fun _ _ hget => (by cases hget), .nil⟩
  | lookUp hr hname hknown => exact h.lookUp hr hname hknown
  | upsert hr hname hupsert => exact h.upsert hr hname hupsert
  | store hr hlength => exact h.store hr hlength
  | replay hr => exact h.setPhase fun _ _ hget => (by cases hget)
  | commit hr => exact h.commit hr
  | updateCache hr => exact h.updateCache hr
  | fail hr => exact h.fail
  | restart => exact h.restart
  | createElsewhere hnew => exact h.createElsewhere hnew

/-- In every state the backend comes to, each cached id is that of the committed item row of its
name, and each committed tick or trade row references the item row of the name its request
carried. -/
theorem cacheSound_of_run (es : List ItemEvent) (st : ItemBackend)
    (hrun : runFrom step empty es = some st) :
    (∀ name itemId, st.itemCache.get? name = some itemId →
      ∃ row ∈ st.items.committed, row.2 = ⟨itemId, name⟩) ∧
    ∀ x ∈ st.records.committed,
      (∃ row ∈ st.items.committed, row.2 = ⟨x.2.itemId, x.2.marketHashName⟩) ∧
      ∀ row ∈ st.items.committed, row.2.id = x.2.itemId →
        row.2.marketHashName = x.2.marketHashName := by
  have hinv : st.Inv := runFrom_inv Inv inv_step inv_empty hrun
  refine ⟨hinv.cache, fun x hx => ?_⟩
  obtain ⟨row, hrow, heq⟩ := hinv.committed x hx
  refine ⟨⟨row, hrow, heq⟩, fun row' hrow' hid => ?_⟩
  have hsame : row = row' := hinv.ids.eq_of_conflicts MarketItem.sameId_comm hrow hrow'
    (decide_eq_true (by rw [heq, hid]))
  rw [← hsame, heq]

/-- Two requests create one item at the same time. The first to insert it fails, so the second,
which had to wait, creates it under a new id; a trade then finds it in the cache. -/
def contendedRun : List ItemEvent :=
  [.receiveBulk 1 ["AK-47"], .receiveBulk 2 ["AK-47", "AK-47"], .upsert 1, .store 1 true, .fail 1,
    .upsert 2, .lookUp 2, .store 2 true, .commit 2, .updateCache 2, .receiveTrade 3 "AK-47",
    .lookUp 3, .store 3 true, .commit 3]

theorem cacheSound_of_run_contendedRun : ∃ st, runFrom step empty contendedRun = some st ∧
    ∀ name itemId, st.itemCache.get? name = some itemId →
      ∃ row ∈ st.items.committed, row.2 = ⟨itemId, name⟩ := by
  have hrun : ∃ st, runFrom step empty contendedRun = some st :=
    Option.isSome_iff_exists.mp (by decide +kernel)
  obtain ⟨st, hst⟩ := hrun
  exact ⟨st, hst, (cacheSound_of_run contendedRun st hst).1⟩

end ItemBackend

end BrandSniper.ItemCache
