import BrandSniper.Backend.Trades
import BrandSniper.Kit.ReadCommitted
import BrandSniper.Kit.Runs
import Mathlib.Logic.Function.Basic

/-!
# Trade requests side by side

Concurrent `ingest_simulated_trade` requests. Every request runs its
statements one by one in a transaction of its own: it reads the clock,
resolves the item id, takes the advisory lock of the purchase, looks for an
earlier buy (a REST snapshot only), inserts, commits, and answers. Steps of
other requests come in between in any order, and a request may fail at any of
them.

The item id is whatever `get_or_create_item_id` returns, and `hashtext` any
function of the lock's text. `TradeBackend.Inv` ties the rows, the locks and
the phases of the requests together.
-/

namespace BrandSniper

open Kit

/-! ## Requests -/

/-- How far a request is. -/
inductive TradePhase where
  | received
  | clocked (boughtAt : Moment)
  | resolved (boughtAt : Moment) (itemId : Nat)
  | locked (boughtAt : Moment) (itemId : Nat)
  /-- The lookup of a snapshot found no earlier buy. -/
  | cleared (boughtAt : Moment) (itemId : Nat)
  /-- All statements ran; the flag says whether `trade_id` is set. -/
  | executed (boughtAt : Moment) (itemId : Nat) (inserted : Bool)
  | committed (inserted : Bool)
  | answered (answer : TradeAnswer)
  | failed
  deriving DecidableEq

structure TradeRequest where
  payload : SimulatedTradePayload
  phase : TradePhase
  deriving DecidableEq

structure TradeBackend where
  trades : TxTable SimulatedTrade
  /-- Hashes of lock texts, by the request that holds them. -/
  locks : Locks Int
  requests : Nat → Option TradeRequest
  metrics : TradeMetrics

inductive TradeEvent where
  | receive (request : Nat) (payload : SimulatedTradePayload)
  | readClock (request : Nat) (now : Moment)
  | resolveItem (request itemId : Nat)
  | lock (request : Nat)
  | look (request : Nat)
  | insert (request : Nat)
  | commit (request : Nat)
  | answer (request : Nat)
  | fail (request : Nat)
  deriving DecidableEq

namespace TradeBackend

def empty : TradeBackend := ⟨.empty, [], fun _ => none, ⟨0, 0⟩⟩

def setPhase (st : TradeBackend) (request : Nat) (payload : SimulatedTradePayload)
    (phase : TradePhase) : TradeBackend :=
  { st with requests := Function.update st.requests request (some ⟨payload, phase⟩) }

def lockKey (hashtext : String → Int) (payload : SimulatedTradePayload) (itemId : Nat) : Int :=
  hashtext (purchaseLockText payload.venue itemId payload.purchasePriceCents)

/-- The insert of a request that may insert. -/
def insertRow (st : TradeBackend) (request : Nat) (payload : SimulatedTradePayload)
    (boughtAt : Moment) (itemId : Nat) : Option TradeBackend :=
  (st.trades.insert? SimulatedTrade.conflicts request (payload.toRow itemId boughtAt)).map
    fun (trades, inserted) =>
      { st with trades := trades }.setPhase request payload (.executed boughtAt itemId inserted)

/-- One statement of one request. -/
def step (hashtext : String → Int) (st : TradeBackend) : TradeEvent → Option TradeBackend
  | .receive r payload =>
      match st.requests r with
      | none => some (st.setPhase r payload .received)
      | some _ => none
  | .readClock r now =>
      match st.requests r with
      | some ⟨payload, .received⟩ => some (st.setPhase r payload (.clocked now))
      | _ => none
  | .resolveItem r itemId =>
      match st.requests r with
      | some ⟨payload, .clocked boughtAt⟩ =>
          some (st.setPhase r payload (.resolved boughtAt itemId))
      | _ => none
  | .lock r =>
      match st.requests r with
      | some ⟨payload, .resolved boughtAt itemId⟩ =>
          (st.locks.acquire? r (lockKey hashtext payload itemId)).map fun locks =>
            { st with locks := locks }.setPhase r payload (.locked boughtAt itemId)
      | _ => none
  | .look r =>
      match st.requests r with
      | some ⟨payload, .locked boughtAt itemId⟩ =>
          -- only a snapshot is looked up
          if payload.listingId.isSome then none
          else if snapshotAlreadyBought (st.trades.visible r) payload itemId boughtAt then
            some (st.setPhase r payload (.executed boughtAt itemId false))
          else some (st.setPhase r payload (.cleared boughtAt itemId))
      | _ => none
  | .insert r =>
      match st.requests r with
      | some ⟨payload, .locked boughtAt itemId⟩ =>
          if payload.listingId.isSome then st.insertRow r payload boughtAt itemId else none
      | some ⟨payload, .cleared boughtAt itemId⟩ => st.insertRow r payload boughtAt itemId
      | _ => none
  | .commit r =>
      match st.requests r with
      | some ⟨payload, .executed _ _ inserted⟩ =>
          -- the commit makes the rows visible and ends the lock
          some ({ st with trades := st.trades.commit r, locks := st.locks.release r }.setPhase
            r payload (.committed inserted))
      | _ => none
  | .answer r =>
      match st.requests r with
      | some ⟨payload, .committed true⟩ =>
          some ({ st with metrics := st.metrics.count payload }.setPhase r payload
            (.answered .success))
      | some ⟨payload, .committed false⟩ =>
          some (st.setPhase r payload (.answered .alreadyRecorded))
      | _ => none
  | .fail r =>
      match st.requests r with
      | some ⟨_, .answered _⟩ => none
      | some ⟨payload, _⟩ =>
          some ({ st with trades := st.trades.rollback r, locks := st.locks.release r }.setPhase
            r payload .failed)
      | none => none

/-- What each event does, by the phase of its request. -/
inductive Stepped (hashtext : String → Int) (st : TradeBackend) :
    TradeEvent → TradeBackend → Prop where
  | receive {r payload} : st.requests r = none →
      Stepped hashtext st (.receive r payload) (st.setPhase r payload .received)
  | readClock {r payload now} : st.requests r = some ⟨payload, .received⟩ →
      Stepped hashtext st (.readClock r now) (st.setPhase r payload (.clocked now))
  | resolveItem {r payload boughtAt itemId} : st.requests r = some ⟨payload, .clocked boughtAt⟩ →
      Stepped hashtext st (.resolveItem r itemId)
        (st.setPhase r payload (.resolved boughtAt itemId))
  | lock {r payload boughtAt itemId locks} :
      st.requests r = some ⟨payload, .resolved boughtAt itemId⟩ →
      st.locks.acquire? r (lockKey hashtext payload itemId) = some locks →
      Stepped hashtext st (.lock r)
        ({ st with locks := locks }.setPhase r payload (.locked boughtAt itemId))
  | lookRepeat {r payload boughtAt itemId} :
      st.requests r = some ⟨payload, .locked boughtAt itemId⟩ →
      Stepped hashtext st (.look r) (st.setPhase r payload (.executed boughtAt itemId false))
  | lookClear {r payload boughtAt itemId} :
      st.requests r = some ⟨payload, .locked boughtAt itemId⟩ → payload.listingId = none →
      snapshotAlreadyBought (st.trades.visible r) payload itemId boughtAt = false →
      Stepped hashtext st (.look r) (st.setPhase r payload (.cleared boughtAt itemId))
  | insert {r payload boughtAt itemId phase trades inserted} :
      st.requests r = some ⟨payload, phase⟩ →
      (phase = .locked boughtAt itemId ∧ payload.listingId ≠ none) ∨
        phase = .cleared boughtAt itemId →
      st.trades.insert? SimulatedTrade.conflicts r (payload.toRow itemId boughtAt)
        = some (trades, inserted) →
      Stepped hashtext st (.insert r)
        ({ st with trades := trades }.setPhase r payload (.executed boughtAt itemId inserted))
  | commit {r payload boughtAt itemId inserted} :
      st.requests r = some ⟨payload, .executed boughtAt itemId inserted⟩ →
      Stepped hashtext st (.commit r)
        ({ st with trades := st.trades.commit r, locks := st.locks.release r }.setPhase r payload
          (.committed inserted))
  | answerSuccess {r payload} : st.requests r = some ⟨payload, .committed true⟩ →
      Stepped hashtext st (.answer r) ({ st with metrics := st.metrics.count payload }.setPhase r
        payload (.answered .success))
  | answerRepeat {r payload} : st.requests r = some ⟨payload, .committed false⟩ →
      Stepped hashtext st (.answer r) (st.setPhase r payload (.answered .alreadyRecorded))
  | fail {r payload phase} : st.requests r = some ⟨payload, phase⟩ →
      (∀ answer, phase ≠ .answered answer) →
      Stepped hashtext st (.fail r)
        ({ st with trades := st.trades.rollback r, locks := st.locks.release r }.setPhase r payload
          .failed)

theorem insertRow_eq_some {hashtext : String → Int} {st st' : TradeBackend} {r : Nat}
    {payload : SimulatedTradePayload} {boughtAt : Moment} {itemId : Nat} {phase : TradePhase}
    (hr : st.requests r = some ⟨payload, phase⟩)
    (hphase : (phase = .locked boughtAt itemId ∧ payload.listingId ≠ none) ∨
      phase = .cleared boughtAt itemId)
    (h : st.insertRow r payload boughtAt itemId = some st') :
    Stepped hashtext st (.insert r) st' := by
  obtain ⟨⟨trades, inserted⟩, hinsert, rfl⟩ := Option.map_eq_some_iff.mp h
  exact .insert hr hphase hinsert

theorem step_cases {hashtext : String → Int} {st st' : TradeBackend} {e : TradeEvent}
    (h : st.step hashtext e = some st') : Stepped hashtext st e st' := by
  cases e with
  | receive r payload =>
      simp only [step] at h
      split at h
      · rename_i hr
        cases h
        exact .receive hr
      · cases h
  | readClock r now =>
      simp only [step] at h
      split at h
      · rename_i payload hr
        cases h
        exact .readClock hr
      · cases h
  | resolveItem r itemId =>
      simp only [step] at h
      split at h
      · rename_i payload boughtAt hr
        cases h
        exact .resolveItem hr
      · cases h
  | lock r =>
      simp only [step] at h
      split at h
      · rename_i payload boughtAt itemId hr
        obtain ⟨locks, hacquire, rfl⟩ := Option.map_eq_some_iff.mp h
        exact .lock hr hacquire
      · cases h
  | look r =>
      simp only [step] at h
      split at h
      · rename_i payload boughtAt itemId hr
        split at h
        · cases h
        · rename_i hlisting
          split at h
          · cases h
            exact .lookRepeat hr
          · rename_i hfound
            cases h
            exact .lookClear hr (by simpa using hlisting) (by simpa using hfound)
      · cases h
  | insert r =>
      simp only [step] at h
      split at h
      · rename_i payload boughtAt itemId hr
        split at h
        · rename_i hlisting
          exact insertRow_eq_some hr (.inl ⟨rfl, Option.isSome_iff_ne_none.mp hlisting⟩) h
        · cases h
      · rename_i payload boughtAt itemId hr
        exact insertRow_eq_some hr (.inr rfl) h
      · cases h
  | commit r =>
      simp only [step] at h
      split at h
      · rename_i payload boughtAt itemId inserted hr
        cases h
        exact .commit hr
      · cases h
  | answer r =>
      simp only [step] at h
      split at h
      · rename_i payload hr
        cases h
        exact .answerSuccess hr
      · rename_i payload hr
        cases h
        exact .answerRepeat hr
      · cases h
  | fail r =>
      simp only [step] at h
      split at h
      · cases h
      · rename_i payload phase hphase hr
        cases h
        exact .fail hr fun answer heq => hphase answer heq
      · cases h

theorem requests_setPhase (st : TradeBackend) (r : Nat) (payload : SimulatedTradePayload)
    (phase : TradePhase) (r' : Nat) : (st.setPhase r payload phase).requests r'
      = if r' = r then some ⟨payload, phase⟩ else st.requests r' :=
  Function.update_apply _ _ _ _

/-! ## The invariant -/

/-- What the tables hold of a request in a phase. A snapshot's clearance stays true as long as
it holds the lock: whoever could commit a row of its purchase holds the same lock. -/
def PhaseHolds (hashtext : String → Int) (trades : TxTable SimulatedTrade) (locks : Locks Int)
    (r : Nat) (payload : SimulatedTradePayload) : TradePhase → Prop
  | .locked _ itemId => (r, lockKey hashtext payload itemId) ∈ locks
  | .cleared boughtAt itemId =>
      (r, lockKey hashtext payload itemId) ∈ locks ∧
      ∀ x ∈ trades.committed, x.2.samePurchaseDay (payload.toRow itemId boughtAt) = false
  | .executed boughtAt itemId true =>
      (r, lockKey hashtext payload itemId) ∈ locks ∧
      (r, payload.toRow itemId boughtAt) ∈ trades.pending ∧
      (payload.listingId = none →
        ∀ x ∈ trades.committed, x.2.samePurchaseDay (payload.toRow itemId boughtAt) = false)
  | .committed true => ∃ row, (r, row) ∈ trades.committed
  | .answered .success => ∃ row, (r, row) ∈ trades.committed
  | _ => True

/-- The phases of a request whose row may be committed. A failed one may have lost its answer. -/
def MayHaveRow : TradePhase → Prop
  | .committed true => True
  | .answered .success => True
  | .failed => True
  | _ => False

/-- A listing's row before a snapshot's row of the same purchase day is ruled out. -/
def Ordered (a b : SimulatedTrade) : Prop :=
  a.listingId ≠ none → b.listingId = none → a.samePurchaseDay b = false

structure Inv (hashtext : String → Int) (st : TradeBackend) : Prop where
  unique : st.trades.Unique SimulatedTrade.conflicts
  exclusive : st.locks.Exclusive
  pending_row : ∀ x ∈ st.trades.pending, ∃ payload boughtAt itemId,
    st.requests x.1 = some ⟨payload, .executed boughtAt itemId true⟩ ∧
      x.2 = payload.toRow itemId boughtAt
  committed_row : ∀ x ∈ st.trades.committed, ∃ payload phase,
    st.requests x.1 = some ⟨payload, phase⟩ ∧ MayHaveRow phase
  phases : ∀ r payload phase, st.requests r = some ⟨payload, phase⟩ →
    PhaseHolds hashtext st.trades st.locks r payload phase
  ordered : st.trades.committed.Pairwise fun a b => Ordered a.2 b.2

theorem inv_empty (hashtext : String → Int) : empty.Inv hashtext where
  unique := TxTable.unique_empty
  exclusive := Locks.exclusive_nil
  pending_row := by simp [empty, TxTable.empty]
  committed_row := by simp [empty, TxTable.empty]
  phases := by simp [empty]
  ordered := List.Pairwise.nil

/-- What a step of another request leaves true of a request. -/
theorem PhaseHolds.frame {hashtext : String → Int} {trades trades' : TxTable SimulatedTrade}
    {locks locks' : Locks Int} {r : Nat} {payload : SimulatedTradePayload} {phase : TradePhase}
    (h : PhaseHolds hashtext trades locks r payload phase)
    (hlocks : ∀ key, (r, key) ∈ locks → (r, key) ∈ locks')
    (hpending : ∀ row, (r, row) ∈ trades.pending → (r, row) ∈ trades'.pending)
    (hcommitted : ∀ row, (r, row) ∈ trades.committed → (r, row) ∈ trades'.committed)
    (hnew : ∀ itemId boughtAt, (r, lockKey hashtext payload itemId) ∈ locks →
      ∀ x ∈ trades'.committed, x ∈ trades.committed ∨
        x.2.samePurchaseDay (payload.toRow itemId boughtAt) = false) :
    PhaseHolds hashtext trades' locks' r payload phase := by
  have hclear : ∀ itemId boughtAt, (r, lockKey hashtext payload itemId) ∈ locks →
      (∀ x ∈ trades.committed, x.2.samePurchaseDay (payload.toRow itemId boughtAt) = false) →
      ∀ x ∈ trades'.committed,
        x.2.samePurchaseDay (payload.toRow itemId boughtAt) = false := by
    intro itemId boughtAt hlock hold x hx
    rcases hnew itemId boughtAt hlock x hx with hx | hx
    · exact hold x hx
    · exact hx
  cases phase with
  | locked boughtAt itemId => exact hlocks _ h
  | cleared boughtAt itemId => exact ⟨hlocks _ h.1, hclear itemId boughtAt h.1 h.2⟩
  | executed boughtAt itemId inserted =>
      cases inserted with
      | true =>
          exact ⟨hlocks _ h.1, hpending _ h.2.1, fun hnone =>
            hclear itemId boughtAt h.1 (h.2.2 hnone)⟩
      | false => trivial
  | committed inserted =>
      cases inserted with
      | true =>
          obtain ⟨row, hrow⟩ := h
          exact ⟨row, hcommitted row hrow⟩
      | false => trivial
  | answered answer =>
      cases answer with
      | success =>
          obtain ⟨row, hrow⟩ := h
          exact ⟨row, hcommitted row hrow⟩
      | alreadyRecorded => trivial
  | received => trivial
  | clocked boughtAt => trivial
  | resolved boughtAt itemId => trivial
  | failed => trivial

/-- Only a request that has inserted has a pending row. -/
theorem Inv.not_pending {hashtext : String → Int} {st : TradeBackend} (hI : st.Inv hashtext)
    {r : Nat} (hr : ∀ payload boughtAt itemId,
      st.requests r ≠ some ⟨payload, .executed boughtAt itemId true⟩) :
    ∀ x ∈ st.trades.pending, x.1 ≠ r := by
  intro x hx heq
  obtain ⟨payload, boughtAt, itemId, hreq, -⟩ := hI.pending_row x hx
  exact hr payload boughtAt itemId (heq ▸ hreq)

/-- A request has committed no row in the phases before its commit. -/
theorem Inv.not_committed {hashtext : String → Int} {st : TradeBackend} (hI : st.Inv hashtext)
    {r : Nat} {payload : SimulatedTradePayload} {phase : TradePhase}
    (hr : st.requests r = some ⟨payload, phase⟩) (hphase : ¬ MayHaveRow phase) :
    ∀ x ∈ st.trades.committed, x.1 ≠ r := by
  intro x hx heq
  obtain ⟨payload', phase', hreq, hmay⟩ := hI.committed_row x hx
  rw [heq, hr, Option.some.injEq, TradeRequest.mk.injEq] at hreq
  exact hphase (hreq.2 ▸ hmay)

/-- A request moves on without touching the tables. -/
theorem Inv.setPhase {hashtext : String → Int} {st : TradeBackend} (hI : st.Inv hashtext)
    {r : Nat} {payload : SimulatedTradePayload} {phase : TradePhase}
    (hpending : ∀ x ∈ st.trades.pending, x.1 ≠ r)
    (hcommitted : ∀ x ∈ st.trades.committed, x.1 = r → MayHaveRow phase)
    (hself : PhaseHolds hashtext st.trades st.locks r payload phase) :
    (st.setPhase r payload phase).Inv hashtext where
  unique := hI.unique
  exclusive := hI.exclusive
  pending_row := by
    intro x hx
    rw [requests_setPhase, if_neg (hpending x hx)]
    exact hI.pending_row x hx
  committed_row := by
    intro x hx
    rw [requests_setPhase]
    split
    · rename_i heq
      exact ⟨payload, phase, rfl, hcommitted x hx heq⟩
    · exact hI.committed_row x hx
  phases := by
    intro r' payload' phase' hr'
    rw [requests_setPhase] at hr'
    split at hr'
    · rename_i heq
      obtain ⟨rfl, rfl⟩ := TradeRequest.mk.inj (Option.some.inj hr')
      exact heq ▸ hself
    · exact hI.phases r' payload' phase' hr'
  ordered := hI.ordered

theorem Inv.lock {hashtext : String → Int} {st : TradeBackend} (hI : st.Inv hashtext)
    {r : Nat} {key : Int} {locks : Locks Int} (hlock : st.locks.acquire? r key = some locks) :
    { st with locks := locks }.Inv hashtext where
  unique := hI.unique
  exclusive := hI.exclusive.acquire? hlock
  pending_row := hI.pending_row
  committed_row := hI.committed_row
  phases := by
    intro r' payload phase hr'
    obtain ⟨rfl, -⟩ := Locks.acquire?_eq_some hlock
    exact (hI.phases r' payload phase hr').frame (fun _ h => List.mem_cons_of_mem _ h)
      (fun _ h => h) (fun _ h => h) (fun _ _ _ x hx => .inl hx)
  ordered := hI.ordered

theorem Inv.insert {hashtext : String → Int} {st : TradeBackend} (hI : st.Inv hashtext)
    {r : Nat} {payload : SimulatedTradePayload} {boughtAt : Moment} {itemId : Nat}
    {phase : TradePhase} {trades : TxTable SimulatedTrade} {inserted : Bool}
    (hr : st.requests r = some ⟨payload, phase⟩)
    (hphase : (phase = .locked boughtAt itemId ∧ payload.listingId ≠ none) ∨
      phase = .cleared boughtAt itemId)
    (hinsert : st.trades.insert? SimulatedTrade.conflicts r (payload.toRow itemId boughtAt)
      = some (trades, inserted)) :
    ({ st with trades := trades }.setPhase r payload
      (.executed boughtAt itemId inserted)).Inv hashtext := by
  have hnotMay : ¬ MayHaveRow phase := by
    rcases hphase with ⟨rfl, -⟩ | rfl <;> exact id
  have hpending : ∀ x ∈ st.trades.pending, x.1 ≠ r := by
    refine hI.not_pending fun payload' boughtAt' itemId' heq => ?_
    rw [hr, Option.some.injEq, TradeRequest.mk.injEq] at heq
    rcases hphase with ⟨rfl, -⟩ | rfl <;> exact absurd heq.2 (by simp)
  have hcommitted := hI.not_committed hr hnotMay
  obtain ⟨rfl, rfl, -⟩ | ⟨rfl, rfl, -⟩ := TxTable.insert?_cases hinsert
  · -- a conflicting row was there: nothing is inserted
    exact hI.setPhase hpending (fun x hx heq => absurd heq (hcommitted x hx)) trivial
  · have hphases := hI.phases r payload phase hr
    exact {
      unique := hI.unique.insert? hinsert
      exclusive := hI.exclusive
      pending_row := by
        intro x hx
        rw [requests_setPhase]
        rcases List.mem_append.mp hx with hx | hx
        · rw [if_neg (hpending x hx)]
          exact hI.pending_row x hx
        · rw [List.mem_singleton.mp hx, if_pos rfl]
          exact ⟨payload, boughtAt, itemId, rfl, rfl⟩
      committed_row := by
        intro x hx
        rw [requests_setPhase, if_neg (hcommitted x hx)]
        exact hI.committed_row x hx
      phases := by
        intro r' payload' phase' hr'
        rw [requests_setPhase] at hr'
        split at hr'
        · rename_i heq
          obtain ⟨rfl, rfl⟩ := TradeRequest.mk.inj (Option.some.inj hr')
          subst heq
          -- a listing holds its lock, a snapshot its clearance as well
          rcases hphase with ⟨rfl, hlisting⟩ | rfl
          · exact ⟨hphases, by simp [TradeBackend.setPhase], fun hnone => absurd hnone hlisting⟩
          · exact ⟨hphases.1, by simp [TradeBackend.setPhase], fun _ => hphases.2⟩
        · exact (hI.phases r' payload' phase' hr').frame (fun _ h => h)
            (fun _ h => List.mem_append_left _ h) (fun _ h => h) (fun _ _ _ x hx => .inl hx)
      ordered := hI.ordered }

/-- Requests of one purchase lock the same key. -/
theorem lockKey_eq_of_samePurchaseDay {hashtext : String → Int}
    {payload payload' : SimulatedTradePayload} {itemId itemId' : Nat}
    {boughtAt boughtAt' : Moment}
    (h : (payload.toRow itemId boughtAt).samePurchaseDay (payload'.toRow itemId' boughtAt') = true) :
    lockKey hashtext payload itemId = lockKey hashtext payload' itemId' := by
  obtain ⟨hvenue, hitem, hprice, -⟩ := SimulatedTrade.samePurchaseDay_iff.mp h
  simp only [SimulatedTradePayload.toRow] at hvenue hitem hprice
  rw [lockKey, lockKey, hvenue, hitem, hprice]

/-- The row a request is about to commit. -/
theorem Inv.row_of_pending {hashtext : String → Int} {st : TradeBackend} (hI : st.Inv hashtext)
    {r : Nat} {payload : SimulatedTradePayload} {boughtAt : Moment} {itemId : Nat}
    {inserted : Bool} (hr : st.requests r = some ⟨payload, .executed boughtAt itemId inserted⟩)
    {x : Nat × SimulatedTrade} (hx : x ∈ st.trades.pending) (hown : x.1 = r) :
    inserted = true ∧ x.2 = payload.toRow itemId boughtAt := by
  obtain ⟨payload', boughtAt', itemId', hreq, hrow⟩ := hI.pending_row x hx
  rw [hown, hr, Option.some.injEq, TradeRequest.mk.injEq, TradePhase.executed.injEq] at hreq
  obtain ⟨rfl, rfl, rfl, hinserted⟩ := hreq
  exact ⟨hinserted, hrow⟩

theorem Inv.commit {hashtext : String → Int} {st : TradeBackend} (hI : st.Inv hashtext)
    {r : Nat} {payload : SimulatedTradePayload} {boughtAt : Moment} {itemId : Nat}
    {inserted : Bool} (hr : st.requests r = some ⟨payload, .executed boughtAt itemId inserted⟩) :
    ({ st with trades := st.trades.commit r, locks := st.locks.release r }.setPhase r payload
      (.committed inserted)).Inv hashtext := by
  have hphases := hI.phases r payload _ hr
  exact {
    unique := hI.unique.commit SimulatedTrade.conflicts_comm r
    exclusive := hI.exclusive.release r
    pending_row := by
      intro x hx
      obtain ⟨hx, hother⟩ := TxTable.mem_pending_commit.mp hx
      rw [requests_setPhase, if_neg hother]
      exact hI.pending_row x hx
    committed_row := by
      intro x hx
      rw [requests_setPhase]
      rcases TxTable.mem_committed_commit.mp hx with hx | ⟨hx, hown⟩
      · rw [if_neg (hI.not_committed hr (by cases inserted <;> exact id) x hx)]
        exact hI.committed_row x hx
      · obtain ⟨rfl, -⟩ := hI.row_of_pending hr hx hown
        rw [if_pos hown]
        exact ⟨payload, .committed true, rfl, trivial⟩
    phases := by
      intro r' payload' phase' hr'
      rw [requests_setPhase] at hr'
      split at hr'
      · rename_i heq
        obtain ⟨rfl, rfl⟩ := TradeRequest.mk.inj (Option.some.inj hr')
        subst heq
        cases inserted with
        | true => exact ⟨_, TxTable.mem_committed_commit.mpr (.inr ⟨hphases.2.1, rfl⟩)⟩
        | false => trivial
      · rename_i hother
        refine (hI.phases r' payload' phase' hr').frame
          (fun key h => Locks.mem_release.mpr ⟨h, hother⟩)
          (fun row h => TxTable.mem_pending_commit.mpr ⟨h, hother⟩)
          (fun row h => TxTable.mem_committed_commit.mpr (.inl h))
          (fun itemId' boughtAt' hlock x hx => ?_)
        rcases TxTable.mem_committed_commit.mp hx with hx | ⟨hx, hown⟩
        · exact .inl hx
        · -- both hold the lock of one purchase: they are the same request
          obtain ⟨rfl, hrow⟩ := hI.row_of_pending hr hx hown
          rw [hrow, ← Bool.not_eq_true]
          refine .inr fun hsame => hother ?_
          exact hI.exclusive _ hlock _ hphases.1 (lockKey_eq_of_samePurchaseDay hsame).symm
    ordered := by
      refine List.pairwise_append.mpr ⟨hI.ordered, ?_, fun a ha b hb => ?_⟩
      · refine List.pairwise_of_forall_mem_list fun a ha b hb hlisting hnone => ?_
        obtain ⟨ha, howna⟩ := List.mem_filter.mp ha
        obtain ⟨hb, hownb⟩ := List.mem_filter.mp hb
        rw [(hI.row_of_pending hr ha (of_decide_eq_true howna)).2] at hlisting
        rw [(hI.row_of_pending hr hb (of_decide_eq_true hownb)).2] at hnone
        exact absurd hnone hlisting
      · obtain ⟨hb, hownb⟩ := List.mem_filter.mp hb
        obtain ⟨rfl, hrow⟩ := hI.row_of_pending hr hb (of_decide_eq_true hownb)
        intro _ hnone
        rw [hrow] at hnone ⊢
        exact hphases.2.2 hnone a ha }

theorem Inv.fail {hashtext : String → Int} {st : TradeBackend} (hI : st.Inv hashtext)
    (r : Nat) (payload : SimulatedTradePayload) :
    ({ st with trades := st.trades.rollback r, locks := st.locks.release r }.setPhase r payload
      .failed).Inv hashtext where
  unique := hI.unique.rollback r
  exclusive := hI.exclusive.release r
  pending_row := by
    intro x hx
    obtain ⟨hx, hother⟩ := TxTable.mem_pending_rollback.mp hx
    rw [requests_setPhase, if_neg hother]
    exact hI.pending_row x hx
  committed_row := by
    intro x hx
    rw [requests_setPhase]
    split
    · exact ⟨payload, .failed, rfl, trivial⟩
    · exact hI.committed_row x hx
  phases := by
    intro r' payload' phase' hr'
    rw [requests_setPhase] at hr'
    split at hr'
    · obtain ⟨rfl, rfl⟩ := TradeRequest.mk.inj (Option.some.inj hr')
      trivial
    · rename_i hother
      exact (hI.phases r' payload' phase' hr').frame
        (fun key h => Locks.mem_release.mpr ⟨h, hother⟩)
        (fun row h => TxTable.mem_pending_rollback.mpr ⟨h, hother⟩) (fun _ h => h)
        (fun _ _ _ x hx => .inl hx)
  ordered := hI.ordered

/-- Every statement of every request keeps the invariant. -/
theorem Inv.step {hashtext : String → Int} {st st' : TradeBackend} {e : TradeEvent}
    (hI : st.Inv hashtext) (h : st.step hashtext e = some st') : st'.Inv hashtext := by
  have hidle : ∀ {r payload phase}, st.requests r = some ⟨payload, phase⟩ →
      (∀ boughtAt itemId, phase ≠ .executed boughtAt itemId true) →
      ∀ x ∈ st.trades.pending, x.1 ≠ r := by
    intro r payload phase hr hphase
    refine hI.not_pending fun payload' boughtAt itemId heq => ?_
    rw [hr, Option.some.injEq, TradeRequest.mk.injEq] at heq
    exact hphase boughtAt itemId heq.2
  cases step_cases h with
  | receive hr =>
      refine hI.setPhase (hI.not_pending (by simp [hr])) (fun x hx heq => ?_) trivial
      obtain ⟨payload', phase', hreq, -⟩ := hI.committed_row x hx
      rw [heq, hr] at hreq
      cases hreq
  | readClock hr =>
      exact hI.setPhase (hidle hr (by simp))
        (fun x hx heq => absurd heq (hI.not_committed hr id x hx)) trivial
  | resolveItem hr =>
      exact hI.setPhase (hidle hr (by simp))
        (fun x hx heq => absurd heq (hI.not_committed hr id x hx)) trivial
  | lock hr hlock =>
      refine (hI.lock hlock).setPhase (hidle hr (by simp))
        (fun x hx heq => absurd heq (hI.not_committed hr id x hx)) ?_
      obtain ⟨rfl, -⟩ := Locks.acquire?_eq_some hlock
      exact List.mem_cons_self
  | lookRepeat hr =>
      exact hI.setPhase (hidle hr (by simp))
        (fun x hx heq => absurd heq (hI.not_committed hr id x hx)) trivial
  | @lookClear r payload boughtAt itemId hr hlisting hfound =>
      refine hI.setPhase (hidle hr (by simp))
        (fun x hx heq => absurd heq (hI.not_committed hr id x hx))
        ⟨hI.phases _ _ _ hr, fun x hx => ?_⟩
      rw [← Bool.not_eq_true]
      intro hsame
      rw [← Bool.not_eq_true, snapshotAlreadyBought_iff] at hfound
      exact hfound ⟨x.2, TxTable.mem_visible.mpr (.inl ⟨x, hx, rfl⟩), hsame⟩
  | insert hr hphase hinsert => exact hI.insert hr hphase hinsert
  | commit hr => exact hI.commit hr
  | @answerSuccess r payload hr =>
      have hmetrics : ({ st with metrics := st.metrics.count payload }).Inv hashtext :=
        ⟨hI.unique, hI.exclusive, hI.pending_row, hI.committed_row, hI.phases, hI.ordered⟩
      exact hmetrics.setPhase (hidle hr (by simp)) (fun _ _ _ => trivial)
        (hI.phases r payload (.committed true) hr)
  | answerRepeat hr =>
      exact hI.setPhase (hidle hr (by simp))
        (fun x hx heq => absurd heq (hI.not_committed hr id x hx)) trivial
  | fail hr => exact hI.fail _ _

theorem inv_of_run {hashtext : String → Int} {es : List TradeEvent} {st : TradeBackend}
    (h : runFrom (step hashtext) empty es = some st) : st.Inv hashtext :=
  runFrom_inv (Inv hashtext) (fun _ _ _ hI hstep => hI.step hstep) (inv_empty hashtext) h

/-- Only the answer of a request with a committed row counts. -/
theorem Inv.metrics_step {hashtext : String → Int} {st st' : TradeBackend} {e : TradeEvent}
    (hI : st.Inv hashtext) (h : st.step hashtext e = some st') :
    st'.metrics = st.metrics ∨ ∃ r row, e = .answer r ∧ (r, row) ∈ st.trades.committed := by
  cases step_cases h with
  | answerSuccess hr =>
      obtain ⟨row, hrow⟩ := hI.phases _ _ _ hr
      exact .inr ⟨_, row, rfl, hrow⟩
  | receive hr => exact .inl rfl
  | readClock hr => exact .inl rfl
  | resolveItem hr => exact .inl rfl
  | lock hr hlock => exact .inl rfl
  | lookRepeat hr => exact .inl rfl
  | lookClear hr hlisting hfound => exact .inl rfl
  | insert hr hphase hinsert => exact .inl rfl
  | commit hr => exact .inl rfl
  | answerRepeat hr => exact .inl rfl
  | fail hr => exact .inl rfl

/-! ## Each purchase recorded once -/

/-- What the trade ledger is for. The rows are in commit order. -/
structure PurchasesOnce (st : TradeBackend) : Prop where
  listingOnce : st.trades.committed.Pairwise fun a b =>
    a.2.listingId ≠ none → a.2.venue = b.2.venue → a.2.listingId ≠ b.2.listingId
  snapshotOnce : st.trades.committed.Pairwise fun a b =>
    a.2.listingId = none → b.2.listingId = none → a.2.samePurchaseDay b.2 = false
  noSnapshotAfterListing : st.trades.committed.Pairwise fun a b =>
    a.2.listingId ≠ none → b.2.listingId = none → a.2.samePurchaseDay b.2 = false
  repeatAnswered : ∀ r payload answer,
    st.requests r = some ⟨payload, .answered answer⟩ →
      (∀ row, (r, row) ∉ st.trades.committed) → answer = .alreadyRecorded

theorem Inv.purchasesOnce {hashtext : String → Int} {st : TradeBackend}
    (hI : st.Inv hashtext) : st.PurchasesOnce where
  listingOnce := by
    refine hI.unique.committed.imp fun hapart hlisting hvenue heq => ?_
    rw [SimulatedTrade.conflicts_of_sameListing hvenue heq hlisting] at hapart
    cases hapart
  snapshotOnce := by
    refine hI.unique.committed.imp fun hapart ha hb => ?_
    rw [← Bool.not_eq_true]
    intro hsame
    rw [SimulatedTrade.conflicts_of_sameSnapshotBuy ha hb hsame] at hapart
    cases hapart
  noSnapshotAfterListing := hI.ordered
  repeatAnswered := by
    intro r payload answer hr hnone
    cases answer with
    | alreadyRecorded => rfl
    | success =>
        obtain ⟨row, hrow⟩ := hI.phases r payload _ hr
        exact absurd hrow (hnone row)

/-- In every run each purchase is recorded once, and a request that inserts no row is answered
as a repeat and counts nothing. -/
theorem purchasesOnce_of_run {hashtext : String → Int} {es : List TradeEvent}
    {st : TradeBackend} (hrun : runFrom (step hashtext) empty es = some st) :
    st.PurchasesOnce ∧
    ∀ e st', st.step hashtext e = some st' → st'.metrics = st.metrics ∨
      ∃ r row, e = .answer r ∧ (r, row) ∈ st.trades.committed := by
  have hI := inv_of_run hrun
  exact ⟨hI.purchasesOnce, fun e st' hstep => hI.metrics_step hstep⟩

/-! ## A request with no other beside it -/

/-- The statements of a request over these rows. -/
def serveEvents (rows : List SimulatedTrade) (r : Nat) (payload : SimulatedTradePayload)
    (now : Moment) (itemId : Nat) : List TradeEvent :=
  [.receive r payload, .readClock r now, .resolveItem r itemId, .lock r] ++
    (if payload.listingId.isSome then [.insert r]
      else if snapshotAlreadyBought rows payload itemId now then [.look r]
      else [.look r, .insert r]) ++ [.commit r, .answer r]

/-- No request is open. -/
def Idle (st : TradeBackend) : Prop := st.trades.pending = [] ∧ st.locks = []

def answerOf (inserted : Bool) : TradeAnswer := if inserted then .success else .alreadyRecorded

/-- The only open request commits and answers. -/
theorem runFrom_finish {hashtext : String → Int} {st : TradeBackend} {r : Nat}
    {payload : SimulatedTradePayload} {now : Moment} {itemId : Nat} {inserted : Bool}
    (hr : st.requests r = some ⟨payload, .executed now itemId inserted⟩)
    (hpending : ∀ x ∈ st.trades.pending, x.1 = r) (hlocks : ∀ l ∈ st.locks, l.1 = r) :
    ∃ st', runFrom (step hashtext) st [.commit r, .answer r] = some st' ∧ st'.Idle ∧
      st'.trades.committed = st.trades.committed ++ st.trades.pending ∧
      st'.requests r = some ⟨payload, .answered (answerOf inserted)⟩ := by
  let committed := { st with trades := st.trades.commit r, locks := st.locks.release r }.setPhase
    r payload (.committed inserted)
  have hcommit : st.step hashtext (.commit r) = some committed := by simp only [step, hr]; rfl
  have hrequest : committed.requests r = some ⟨payload, .committed inserted⟩ := by
    simp [committed, requests_setPhase]
  have hidle : committed.Idle := by
    constructor
    · exact List.filter_eq_nil_iff.mpr fun x hx => by simp [hpending x hx]
    · exact List.filter_eq_nil_iff.mpr fun l hl => by simp [hlocks l hl]
  have hrows : committed.trades.committed = st.trades.committed ++ st.trades.pending := by
    have hown : st.trades.pending.filter (fun x => x.1 = r) = st.trades.pending :=
      List.filter_eq_self.mpr fun x hx => by simp [hpending x hx]
    simp only [committed, TradeBackend.setPhase, TxTable.commit, hown]
  rw [runFrom, hcommit, Option.bind_some, runFrom]
  cases inserted with
  | true =>
      have hanswer : committed.step hashtext (.answer r)
          = some ({ committed with metrics := committed.metrics.count payload }.setPhase r payload
            (.answered .success)) := by simp only [step, hrequest]
      rw [hanswer]
      exact ⟨_, rfl, hidle, hrows, by rw [requests_setPhase, if_pos rfl]; rfl⟩
  | false =>
      have hanswer : committed.step hashtext (.answer r)
          = some (committed.setPhase r payload (.answered .alreadyRecorded)) := by
        simp only [step, hrequest]
      rw [hanswer]
      exact ⟨_, rfl, hidle, hrows, by rw [requests_setPhase, if_pos rfl]; rfl⟩

/-- The only open request inserts, commits and answers. -/
theorem runFrom_insert {hashtext : String → Int} {st : TradeBackend} {r : Nat}
    {payload : SimulatedTradePayload} {now : Moment} {itemId : Nat} {phase : TradePhase}
    (hr : st.requests r = some ⟨payload, phase⟩)
    (hphase : (phase = .locked now itemId ∧ payload.listingId.isSome = true) ∨
      phase = .cleared now itemId)
    (hpending : st.trades.pending = []) (hlocks : ∀ l ∈ st.locks, l.1 = r) :
    let out := insertTrade (st.trades.committed.map Prod.snd) (payload.toRow itemId now)
    ∃ st', runFrom (step hashtext) st [.insert r, .commit r, .answer r] = some st' ∧ st'.Idle ∧
      st'.trades.committed.map Prod.snd = out.1 ∧
      st'.requests r = some ⟨payload, .answered out.2⟩ := by
  intro out
  have hvisible : st.trades.visible r = st.trades.committed.map Prod.snd := by
    simp [TxTable.visible, hpending]
  -- the state after the insert, and what commit and answer make of it
  have hfinish : ∀ (pending : List (Nat × SimulatedTrade)) (inserted : Bool),
      st.trades.insert? SimulatedTrade.conflicts r (payload.toRow itemId now)
        = some ({ st.trades with pending := pending }, inserted) →
      (∀ x ∈ pending, x.1 = r) →
      out = ((st.trades.committed ++ pending).map Prod.snd, answerOf inserted) →
      ∃ st', runFrom (step hashtext) st [.insert r, .commit r, .answer r] = some st' ∧
        st'.Idle ∧ st'.trades.committed.map Prod.snd = out.1 ∧
        st'.requests r = some ⟨payload, .answered out.2⟩ := by
    intro pending inserted hinsert hown hout
    let executed := { st with trades := { st.trades with pending := pending } }.setPhase r payload
      (.executed now itemId inserted)
    have hrequest : executed.requests r = some ⟨payload, .executed now itemId inserted⟩ := by
      simp [executed, requests_setPhase]
    have hstep : st.step hashtext (.insert r) = some executed := by
      rcases hphase with ⟨rfl, hlisting⟩ | rfl
      · simp only [step, hr, hlisting, if_true, insertRow, hinsert, Option.map_some, executed]
      · simp only [step, hr, insertRow, hinsert, Option.map_some, executed]
    obtain ⟨st', hrun, hidle, hrows, hanswer⟩ :=
      @runFrom_finish hashtext executed r payload now itemId inserted hrequest hown hlocks
    refine ⟨st', ?_, hidle, ?_, ?_⟩
    · rw [runFrom, hstep, Option.bind_some]
      exact hrun
    · rw [hrows, hout]
      rfl
    · rw [hanswer, hout]
  cases hconflict : (st.trades.committed.map Prod.snd).any
      fun row => row.conflicts (payload.toRow itemId now) with
  | true =>
      refine hfinish [] false ?_ (by simp) (by simp [out, insertTrade, hconflict, answerOf])
      rw [TxTable.insert?, hvisible, hpending, hconflict]
      simp [← hpending]
  | false =>
      refine hfinish [(r, payload.toRow itemId now)] true ?_ (by simp)
        (by simp [out, insertTrade, hconflict, answerOf])
      rw [TxTable.insert?, hvisible, hpending, hconflict]
      simp

/-- A request that runs alone is `ingestSimulatedTrade`. -/
theorem runFrom_serveEvents {hashtext : String → Int} {st : TradeBackend} {r : Nat}
    {payload : SimulatedTradePayload} {now : Moment} {itemId : Nat} (hidle : st.Idle)
    (hr : st.requests r = none) :
    let out := ingestSimulatedTrade (st.trades.committed.map Prod.snd) payload itemId now
    ∃ st', runFrom (step hashtext) st
        (serveEvents (st.trades.committed.map Prod.snd) r payload now itemId) = some st' ∧
      st'.Idle ∧ st'.trades.committed.map Prod.snd = out.1 ∧
      st'.requests r = some ⟨payload, .answered out.2⟩ := by
  obtain ⟨hpending, hlocks⟩ := hidle
  let locked := { st with locks := [(r, lockKey hashtext payload itemId)] }.setPhase r payload
    (.locked now itemId)
  have hlocked : runFrom (step hashtext) st
      [.receive r payload, .readClock r now, .resolveItem r itemId, .lock r] = some locked := by
    simp [runFrom, step, hr, hlocks, Locks.acquire?, locked, TradeBackend.setPhase]
  have hrequest : locked.requests r = some ⟨payload, .locked now itemId⟩ := by
    simp [locked, requests_setPhase]
  have hvisible : locked.trades.visible r = st.trades.committed.map Prod.snd := by
    simp [locked, TradeBackend.setPhase, TxTable.visible, hpending]
  have hown : ∀ l ∈ locked.locks, l.1 = r := by simp [locked, TradeBackend.setPhase]
  unfold serveEvents ingestSimulatedTrade
  rw [List.append_assoc, runFrom_append, hlocked, Option.bind_some]
  cases hlisting : payload.listingId with
  | some listingId =>
      exact runFrom_insert hrequest (.inl ⟨rfl, by simp [hlisting]⟩) hpending hown
  | none =>
      cases hfound : snapshotAlreadyBought (st.trades.committed.map Prod.snd) payload itemId now with
      | true =>
          have hlook : locked.step hashtext (.look r)
              = some (locked.setPhase r payload (.executed now itemId false)) := by
            simp [step, hrequest, hlisting, hvisible, hfound]
          obtain ⟨st', hrun, hidle, hrows, hanswer⟩ := @runFrom_finish hashtext
            (locked.setPhase r payload (.executed now itemId false)) r payload now itemId false
            (requests_setPhase _ _ _ _ _ ▸ if_pos rfl)
            (by simp [locked, TradeBackend.setPhase, hpending]) hown
          refine ⟨st', ?_, hidle, ?_, hanswer⟩
          · simp only [Option.isSome_none, Bool.false_eq_true, if_false, if_true,
              List.cons_append, List.nil_append]
            rw [runFrom, hlook, Option.bind_some]
            exact hrun
          · rw [hrows]
            simp [locked, TradeBackend.setPhase, hpending]
      | false =>
          have hlook : locked.step hashtext (.look r)
              = some (locked.setPhase r payload (.cleared now itemId)) := by
            simp [step, hrequest, hlisting, hvisible, hfound]
          simp only [Option.isSome_none, Bool.false_eq_true, if_false, List.cons_append,
            List.nil_append, Option.isNone_none, Bool.and_false]
          rw [runFrom, hlook, Option.bind_some]
          exact runFrom_insert (requests_setPhase _ _ _ _ _ ▸ if_pos rfl) (.inr rfl) hpending hown

/-! ### A listing and the snapshot that shows it -/

def dopplerListing : SimulatedTradePayload :=
  ⟨"Flip Knife | Doppler (Factory New)", "waxpeer", 21000, some 900, some "net_of_seller_fee",
    -31 / 10, some "80000001", some (3 / 100)⟩

def dopplerSnapshot : SimulatedTradePayload :=
  { dopplerListing with listingId := none, floatValue := none }

/-- The snapshot waits for the listing's lock, and a re-sent listing for the index. -/
def listingThenSnapshotRun : List TradeEvent :=
  [.receive 0 dopplerListing, .receive 1 dopplerSnapshot,
    .readClock 1 (.ofEpochSeconds 4), .readClock 0 (.ofEpochSeconds 5),
    .resolveItem 0 7, .resolveItem 1 7, .lock 0, .insert 0, .commit 0, .lock 1, .look 1,
    .commit 1, .answer 1, .answer 0]

theorem purchasesOnce_of_run_listingThenSnapshot :
    ∃ st, runFrom (step fun text => text.length) empty listingThenSnapshotRun = some st ∧
      st.PurchasesOnce ∧
      ∀ e st', st.step (fun text => text.length) e = some st' → st'.metrics = st.metrics ∨
        ∃ r row, e = .answer r ∧ (r, row) ∈ st.trades.committed := by
  have hrun : ∃ st, runFrom (step fun text => text.length) empty listingThenSnapshotRun
      = some st := Option.isSome_iff_exists.mp (by decide +kernel)
  obtain ⟨st, hst⟩ := hrun
  exact ⟨st, hst, purchasesOnce_of_run hst⟩

end TradeBackend

end BrandSniper
