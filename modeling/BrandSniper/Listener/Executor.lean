import BrandSniper.Kit.OrderedDict
import BrandSniper.Kit.Runs
import BrandSniper.Shared.Purchases

/-!
# The execution service

`apps/listener/executor.py`. A call of `execute` runs without a break up to
the `await` of `place_order`: it checks the memory of bought keys, and skips
a repeat or asks for the order. When the order is taken the call goes on to
remember its keys, again without a break; when `place_order` raises, nothing
is remembered. Between the two halves of a call other workers run.

The check and the remembering are therefore not one step. The service buys
each purchase once exactly when no call comes back with its key already
bought (`boughtOnce_iff`), which is so as long as conflicting calls do not
overlap (`returnsUnbought_of_noOverlap`).
-/

namespace BrandSniper

open Kit

/-! ## The memory of bought keys -/

/-- `BOUGHT_MEMORY_SIZE` -/
def boughtMemorySize : Nat := 10000

def rememberPurchase (size : Nat) (bought : OrderedDict String Unit) (key : String) :
    OrderedDict String Unit :=
  (bought.set key ()).trim size

/-- What a call does once its order was taken. -/
def rememberBuy (size : Nat) (bought : OrderedDict String Unit) (b : Buy) :
    OrderedDict String Unit :=
  let (key, snapshotKey) := b.keys
  let bought := rememberPurchase size bought key
  -- a listing also stands for its item at that price, which the next REST poll shows
  if key ≠ snapshotKey then rememberPurchase size bought snapshotKey else bought

theorem contains_rememberPurchase {size : Nat} {bought : OrderedDict String Unit} {key : String}
    {allKeys : List String} (hsize : allKeys.dedup.length ≤ size)
    (hbought : ∀ k ∈ bought.keys, k ∈ allKeys) (hkey : key ∈ allKeys) (k : String) :
    (rememberPurchase size bought key).contains k = (decide (key = k) || bought.contains k) := by
  have hsub : ∀ k ∈ (bought.set key ()).keys, k ∈ allKeys := by
    intro k hk
    rw [OrderedDict.keys_set] at hk
    split at hk
    · exact hbought k hk
    · rcases List.mem_append.mp hk with hk | hk
      · exact hbought k hk
      · rw [List.mem_singleton.mp hk]; exact hkey
  rw [rememberPurchase, OrderedDict.trim_of_le
    (le_trans (OrderedDict.len_le_of_subset hsub) hsize), OrderedDict.contains_set]

/-- As long as the keys fit, a taken order adds its keys and forgets none. -/
theorem contains_rememberBuy {size : Nat} {bought : OrderedDict String Unit} {b : Buy}
    {allKeys : List String} (hsize : allKeys.dedup.length ≤ size)
    (hbought : ∀ k ∈ bought.keys, k ∈ allKeys) (hb : ∀ k ∈ b.keyTexts, k ∈ allKeys)
    (k : String) :
    (rememberBuy size bought b).contains k = true ↔ bought.contains k = true ∨ k ∈ b.keyTexts := by
  have hkey : b.keys.1 ∈ allKeys := hb _ (by simp [Buy.keyTexts])
  have hsnapshot : b.keys.2 ∈ allKeys := hb _ (by simp [Buy.keyTexts])
  have hfirst := contains_rememberPurchase hsize hbought hkey
  have hbought' : ∀ k ∈ (rememberPurchase size bought b.keys.1).keys, k ∈ allKeys := by
    intro k hk
    rw [← OrderedDict.contains_iff_mem, hfirst k] at hk
    rcases Bool.or_eq_true_iff.mp hk with heq | hk
    · rw [← of_decide_eq_true heq]; exact hkey
    · exact hbought k (OrderedDict.contains_iff_mem.mp hk)
  have hsecond := contains_rememberPurchase hsize hbought' hsnapshot
  unfold rememberBuy
  simp only [Buy.keyTexts, List.mem_cons, List.not_mem_nil, or_false]
  by_cases heq : b.keys.1 = b.keys.2
  · rw [if_neg (not_not.mpr heq), hfirst, Bool.or_eq_true, decide_eq_true_eq, ← heq, or_self,
      eq_comm, or_comm]
  · rw [if_pos heq, hsecond, hfirst, Bool.or_eq_true, Bool.or_eq_true, decide_eq_true_eq,
      decide_eq_true_eq, eq_comm, @eq_comm _ b.keys.1 k]
    tauto

/-! ## Calls by concurrent workers -/

structure Executor where
  bought : OrderedDict String Unit
  /-- The calls that wait for their order, by worker. -/
  placing : List (Nat × Buy)
  /-- The orders taken, oldest first. -/
  taken : List Buy

def Executor.empty : Executor := ⟨.empty, [], []⟩

/-- What a worker does next at an `await`. -/
inductive ExecutorEvent where
  /-- It calls `execute`, which runs up to its order or skips. -/
  | call (worker : Nat) (buy : Buy)
  /-- `place_order` returns. -/
  | taken (worker : Nat)
  /-- `place_order` raises. -/
  | raised (worker : Nat)
  deriving DecidableEq

/-- The call a worker waits in. -/
def Executor.waiting (st : Executor) (worker : Nat) : Option Buy := st.placing.lookup worker

/-- The membership check lets the buy through. -/
def Executor.lets (st : Executor) (b : Buy) : Bool := !st.bought.contains b.keys.1

def Executor.step (size : Nat) (st : Executor) : ExecutorEvent → Option Executor
  | .call worker b =>
      if (st.waiting worker).isSome then none
      else if st.lets b then some { st with placing := (worker, b) :: st.placing }
      else some st
  | .taken worker =>
      (st.waiting worker).map fun b =>
        { bought := rememberBuy size st.bought b
          placing := st.placing.filter fun call => call.1 ≠ worker
          taken := st.taken ++ [b] }
  | .raised worker =>
      (st.waiting worker).map fun _ =>
        { st with placing := st.placing.filter fun call => call.1 ≠ worker }

/-- A whole call whose order is taken, with no other call beside it, and whether it placed an
order. -/
def execute (size : Nat) (bought : OrderedDict String Unit) (b : Buy) :
    OrderedDict String Unit × Bool :=
  if bought.contains b.keys.1 then (bought, false) else (rememberBuy size bought b, true)

/-- A worker that runs alone. -/
theorem runFrom_execute {size : Nat} {st : Executor} {worker : Nat} {b : Buy}
    (hplacing : st.placing = []) :
    runFrom (Executor.step size) st
        (if st.lets b then [.call worker b, .taken worker] else [.call worker b])
      = some { bought := (execute size st.bought b).1, placing := [],
               taken := st.taken ++ if (execute size st.bought b).2 then [b] else [] } := by
  obtain ⟨bought, placing, taken⟩ := st
  cases hplacing
  cases hlets : bought.contains b.keys.1 with
  | true => simp [runFrom, Executor.step, Executor.waiting, Executor.lets, execute, hlets]
  | false => simp [runFrom, Executor.step, Executor.waiting, Executor.lets, execute, hlets]

/-- The buy a worker asks for. -/
def ExecutorEvent.buy? : ExecutorEvent → Option Buy
  | .call _ b => some b
  | .taken _ => none
  | .raised _ => none

theorem Executor.mem_placing_of_waiting {st : Executor} {worker : Nat} {b : Buy}
    (h : st.waiting worker = some b) : ∃ call ∈ st.placing, call.2 = b := by
  obtain ⟨before, after, hplacing, -⟩ := List.lookup_eq_some_iff.mp h
  exact ⟨(worker, b), by simp [hplacing], rfl⟩

/-- What one event can do. -/
theorem Executor.step_cases {size : Nat} {st st' : Executor} {e : ExecutorEvent}
    (h : st.step size e = some st') :
    (∃ worker b, e = .call worker b ∧ st.lets b = true ∧
      st' = { st with placing := (worker, b) :: st.placing }) ∨
    (∃ worker b, e = .call worker b ∧ st.lets b = false ∧ st' = st) ∨
    (∃ worker b, e = .taken worker ∧ st.waiting worker = some b ∧
      st' = { bought := rememberBuy size st.bought b,
              placing := st.placing.filter fun call => call.1 ≠ worker,
              taken := st.taken ++ [b] }) ∨
    (∃ worker, e = .raised worker ∧
      st' = { st with placing := st.placing.filter fun call => call.1 ≠ worker }) := by
  cases e with
  | call worker b =>
      simp only [Executor.step] at h
      split at h
      · cases h
      · split at h
        · rename_i hlets
          exact .inl ⟨worker, b, rfl, hlets, (Option.some.inj h).symm⟩
        · rename_i hlets
          exact .inr (.inl ⟨worker, b, rfl, Bool.not_eq_true _ ▸ hlets, (Option.some.inj h).symm⟩)
  | taken worker =>
      obtain ⟨b, hb, hst⟩ := Option.map_eq_some_iff.mp h
      exact .inr (.inr (.inl ⟨worker, b, rfl, hb, hst.symm⟩))
  | raised worker =>
      obtain ⟨b, hb, hst⟩ := Option.map_eq_some_iff.mp h
      exact .inr (.inr (.inr ⟨worker, rfl, hst.symm⟩))

/-! ## What is remembered -/

/-- The memory holds the keys of the orders taken, all of them among `calls`. -/
structure Executor.Remembers (calls : List Buy) (st : Executor) : Prop where
  contains_iff : ∀ k, st.bought.contains k = true ↔ ∃ t ∈ st.taken, k ∈ t.keyTexts
  placing_mem : ∀ call ∈ st.placing, call.2 ∈ calls
  taken_mem : ∀ t ∈ st.taken, t ∈ calls

theorem Executor.remembers_empty (calls : List Buy) : Executor.empty.Remembers calls where
  contains_iff := by simp [Executor.empty]
  placing_mem := by simp [Executor.empty]
  taken_mem := by simp [Executor.empty]

theorem Executor.Remembers.step {calls : List Buy} {size : Nat} {st st' : Executor}
    {e : ExecutorEvent} (hI : st.Remembers calls)
    (hsize : (calls.flatMap Buy.keyTexts).dedup.length ≤ size)
    (hcall : ∀ b, e.buy? = some b → b ∈ calls) (h : st.step size e = some st') :
    st'.Remembers calls := by
  obtain ⟨worker, b, rfl, -, rfl⟩ | ⟨worker, b, rfl, -, rfl⟩ | ⟨worker, b, rfl, hb, rfl⟩ |
    ⟨worker, rfl, rfl⟩ := Executor.step_cases h
  · refine ⟨hI.contains_iff, fun call hmem => ?_, hI.taken_mem⟩
    rcases List.mem_cons.mp hmem with rfl | hmem
    · exact hcall b rfl
    · exact hI.placing_mem call hmem
  · exact hI
  · obtain ⟨call, hplacing, hcallb⟩ := mem_placing_of_waiting hb
    have hmem : b ∈ calls := hcallb ▸ hI.placing_mem call hplacing
    have hkeys : ∀ t ∈ calls, ∀ k ∈ t.keyTexts, k ∈ calls.flatMap Buy.keyTexts :=
      fun t ht k hk => List.mem_flatMap.mpr ⟨t, ht, hk⟩
    have hbought : ∀ k ∈ st.bought.keys, k ∈ calls.flatMap Buy.keyTexts := by
      intro k hk
      obtain ⟨t, ht, hkt⟩ := (hI.contains_iff k).mp (OrderedDict.contains_iff_mem.mpr hk)
      exact hkeys t (hI.taken_mem t ht) k hkt
    refine ⟨fun k => ?_, fun call hc => ?_, fun t ht => ?_⟩
    · rw [contains_rememberBuy hsize hbought (hkeys b hmem), hI.contains_iff]
      simp only [List.mem_append, List.mem_singleton, or_and_right, exists_or, exists_eq_left]
    · exact hI.placing_mem call (List.mem_filter.mp hc).1
    · rcases List.mem_append.mp ht with ht | ht
      · exact hI.taken_mem t ht
      · rw [List.mem_singleton.mp ht]; exact hmem
  · exact ⟨hI.contains_iff, fun call hc => hI.placing_mem call (List.mem_filter.mp hc).1,
      hI.taken_mem⟩

/-- The buys asked for in a run. -/
def calledBuys (es : List ExecutorEvent) : List Buy := es.filterMap ExecutorEvent.buy?

/-- The buys of a run's events are those asked for. -/
theorem allSteps_calledBuys {size : Nat} {es p : List ExecutorEvent} (hp : p <+: es) :
    AllSteps (Executor.step size) (fun _ e => ∀ b, e.buy? = some b → b ∈ calledBuys es)
      .empty p := by
  intro before e _ hbefore _ b hb
  have hmem : e ∈ es := (hbefore.trans hp).subset (by simp)
  exact List.mem_filterMap.mpr ⟨e, hmem, hb⟩

/-- Every state of a run remembers its orders. -/
theorem Executor.remembers_of_run {size : Nat} {es p : List ExecutorEvent} {mid : Executor}
    (hsize : ((calledBuys es).flatMap Buy.keyTexts).dedup.length ≤ size) (hp : p <+: es)
    (h : runFrom (Executor.step size) .empty p = some mid) : mid.Remembers (calledBuys es) :=
  runFrom_inv_of_allSteps (fun st => st.Remembers (calledBuys es))
    (fun _ e => ∀ b, e.buy? = some b → b ∈ calledBuys es)
    (fun _ _ _ hI hcall hstep => hI.step hsize hcall hstep) (allSteps_calledBuys hp)
    (Executor.remembers_empty _) h

/-! ## Each purchase once -/

/-- One order a purchase key, and no snapshot order after a listing order of the same venue,
item, price and day. -/
structure PurchasesApart (taken : List Buy) : Prop where
  onePerKey : taken.Pairwise fun a b => a.keys.1 ≠ b.keys.1
  noSnapshotAfterListing : taken.Pairwise fun a b =>
    a.listingId ≠ none → b.listingId = none → b.snapshotId ≠ a.snapshotId

/-- What the service is for. A call is skipped only for an order that was taken, so one that
raised blocks nothing. -/
structure Executor.BoughtOnce (st : Executor) : Prop where
  apart : PurchasesApart st.taken
  skipsOnlyBought : ∀ b, st.lets b = false → ∃ t ∈ st.taken, b.keys.1 ∈ t.keyTexts

/-- An order that comes back finds its key not bought by another in the meantime. -/
def ReturnsUnbought (st : Executor) : ExecutorEvent → Prop
  | .taken worker => ∀ b, st.waiting worker = some b → st.lets b = true
  | _ => True

/-- A key bought before is that of the same purchase, or that of a listing's snapshot. -/
theorem key_mem_keyTexts {t b : Buy} (ht : ':' ∉ t.venue.toList) (hb : ':' ∉ b.venue.toList)
    (h : b.keys.1 ∈ t.keyTexts) :
    t.keys.1 = b.keys.1 ∨
      (t.listingId ≠ none ∧ b.listingId = none ∧ b.snapshotId = t.snapshotId) := by
  rcases List.mem_pair.mp ((key_mem_keyTexts_iff ht hb).mp h) with hid | hid
  · exact .inl (by rw [Buy.keys_eq, Buy.keys_eq, hid])
  · cases htl : t.listingId with
    | none =>
        -- then its own key is its snapshot key
        have hself : t.id = t.snapshotId := by simp only [Buy.id, htl]
        exact .inl (by rw [Buy.keys_eq, Buy.keys_eq, hself, hid])
    | some listingId =>
        cases hbl : b.listingId with
        | none =>
            have hself : b.id = b.snapshotId := by simp only [Buy.id, hbl]
            exact .inr ⟨by simp, rfl, hself ▸ hid⟩
        | some listingId' =>
            -- a listing's key is no snapshot key
            simp only [Buy.id, hbl, Buy.snapshotId] at hid
            cases hid

theorem Executor.Remembers.lets_iff {calls : List Buy} {st : Executor} (hI : st.Remembers calls)
    (b : Buy) : st.lets b = true ↔ ∀ t ∈ st.taken, b.keys.1 ∉ t.keyTexts := by
  rw [Executor.lets, Bool.not_eq_true', ← Bool.not_eq_true, hI.contains_iff]
  push Not
  rfl

/-- An order that returns unbought keeps the purchases apart. -/
theorem PurchasesApart.append {taken : List Buy} {b : Buy} (h : PurchasesApart taken)
    (hb : ∀ t ∈ taken, b.keys.1 ∉ t.keyTexts) : PurchasesApart (taken ++ [b]) where
  onePerKey := by
    refine List.pairwise_append.mpr
      ⟨h.onePerKey, List.pairwise_singleton _ _, fun t ht c hc heq => ?_⟩
    rw [List.mem_singleton.mp hc] at heq
    exact hb t ht (by simp [Buy.keyTexts, heq])
  noSnapshotAfterListing := by
    refine List.pairwise_append.mpr
      ⟨h.noSnapshotAfterListing, List.pairwise_singleton _ _, fun t ht c hc _ hnone heq => ?_⟩
    rw [List.mem_singleton.mp hc] at hnone heq
    have hself : b.id = b.snapshotId := by simp only [Buy.id, hnone]
    exact hb t ht (by simp [Buy.keyTexts, Buy.keys_eq, hself, heq])

/-- A second order of a purchase shows among the orders taken. -/
theorem PurchasesApart.not_mem_keyTexts {taken : List Buy} {b : Buy}
    (h : PurchasesApart (taken ++ [b])) (htaken : ∀ t ∈ taken, ':' ∉ t.venue.toList)
    (hb : ':' ∉ b.venue.toList) : ∀ t ∈ taken, b.keys.1 ∉ t.keyTexts := by
  intro t ht hkey
  have hlast : b ∈ [b] := List.mem_singleton_self b
  rcases key_mem_keyTexts (htaken t ht) hb hkey with heq | ⟨hlisting, hnone, heq⟩
  · exact (List.pairwise_append.mp h.onePerKey).2.2 t ht b hlast heq
  · exact (List.pairwise_append.mp h.noSnapshotAfterListing).2.2 t ht b hlast hlisting hnone heq

theorem PurchasesApart.step {calls : List Buy} {size : Nat} {st st' : Executor}
    {e : ExecutorEvent} (h : PurchasesApart st.taken) (hI : st.Remembers calls)
    (hok : ReturnsUnbought st e) (hstep : st.step size e = some st') :
    PurchasesApart st'.taken := by
  obtain ⟨worker, b, rfl, -, rfl⟩ | ⟨worker, b, rfl, -, rfl⟩ | ⟨worker, b, rfl, hb, rfl⟩ |
    ⟨worker, rfl, rfl⟩ := Executor.step_cases hstep
  · exact h
  · exact h
  · exact h.append ((hI.lets_iff b).mp (hok b hb))
  · exact h

/-- The service buys each purchase once in a run exactly when every order that returns finds
its key not bought in the meantime. -/
theorem boughtOnce_iff {size : Nat} {es : List ExecutorEvent} {last : Executor}
    (hrun : runFrom (Executor.step size) .empty es = some last)
    (hsize : ((calledBuys es).flatMap Buy.keyTexts).dedup.length ≤ size)
    (hvenue : ∀ b ∈ calledBuys es, ':' ∉ b.venue.toList) :
    (∀ p mid, p <+: es → runFrom (Executor.step size) .empty p = some mid → mid.BoughtOnce) ↔
      AllSteps (Executor.step size) ReturnsUnbought .empty es := by
  constructor
  · intro hall before e mid hbefore hmid
    cases e with
    | call worker b => trivial
    | raised worker => trivial
    | taken worker =>
        intro b hb
        have hmem : mid.Remembers (calledBuys es) :=
          Executor.remembers_of_run hsize ((List.prefix_append _ _).trans hbefore) hmid
        obtain ⟨call, hplacing, hcallb⟩ := Executor.mem_placing_of_waiting hb
        -- the state after this order is one of the run, so its purchases are apart
        obtain ⟨next, hnext⟩ := runFrom_of_prefix hrun hbefore
        have honce := hall _ _ hbefore hnext
        rw [runFrom_concat, hmid, Option.bind_some] at hnext
        simp only [Executor.step, hb, Option.map_some, Option.some.injEq] at hnext
        subst hnext
        rw [hmem.lets_iff]
        exact honce.apart.not_mem_keyTexts (fun t ht => hvenue t (hmem.taken_mem t ht))
          (hvenue b (hcallb ▸ hmem.placing_mem call hplacing))
  · intro hok p mid hp hmid
    -- the memory goes along: it says what the check saw
    have hI : mid.Remembers (calledBuys es) ∧ PurchasesApart mid.taken := by
      refine runFrom_inv_of_allSteps
        (fun st => st.Remembers (calledBuys es) ∧ PurchasesApart st.taken)
        (fun st e => (∀ b, e.buy? = some b → b ∈ calledBuys es) ∧ ReturnsUnbought st e)
        (fun st e st' hI hok hstep => ?_) (fun before e mid hb hmid => ?_)
        ⟨Executor.remembers_empty _, List.Pairwise.nil, List.Pairwise.nil⟩ hmid
      · exact ⟨hI.1.step hsize hok.1 hstep, hI.2.step hI.1 hok.2 hstep⟩
      · exact ⟨allSteps_calledBuys hp before e mid hb hmid, hok before e mid (hb.trans hp) hmid⟩
    exact ⟨hI.2, fun b hb => (hI.1.contains_iff _).mp (by simpa [Executor.lets] using hb)⟩

/-! ## Calls that do not overlap -/

/-- No call that is let through conflicts with one that waits for its order. -/
def NoOverlap (st : Executor) : ExecutorEvent → Prop
  | .call _ b => st.lets b = true → ∀ call ∈ st.placing,
      call.2.keys.1 ∉ b.keyTexts ∧ b.keys.1 ∉ call.2.keyTexts
  | _ => True

/-- The calls in flight are of different purchases, none of them bought. -/
structure Executor.WaitsApart (st : Executor) : Prop where
  unbought : ∀ call ∈ st.placing, st.lets call.2 = true
  apart : ∀ call ∈ st.placing, ∀ other ∈ st.placing, call.1 ≠ other.1 →
    call.2.keys.1 ∉ other.2.keyTexts

theorem Executor.WaitsApart.step {calls : List Buy} {size : Nat} {st st' : Executor}
    {e : ExecutorEvent} (h : st.WaitsApart) (hI : st.Remembers calls)
    (hI' : st'.Remembers calls) (hok : NoOverlap st e) (hstep : st.step size e = some st') :
    st'.WaitsApart := by
  obtain ⟨worker, b, rfl, hlets, rfl⟩ | ⟨worker, b, rfl, -, rfl⟩ | ⟨worker, b, rfl, hb, rfl⟩ |
    ⟨worker, rfl, rfl⟩ := Executor.step_cases hstep
  · refine ⟨fun call hcall => ?_, fun call hcall other hother hne => ?_⟩
    · rcases List.mem_cons.mp hcall with rfl | hcall
      · exact hlets
      · exact h.unbought call hcall
    · rcases List.mem_cons.mp hcall with rfl | hcall <;>
        rcases List.mem_cons.mp hother with rfl | hother
      · exact absurd rfl hne
      · exact (hok hlets other hother).2
      · exact (hok hlets call hcall).1
      · exact h.apart call hcall other hother hne
  · exact h
  · obtain ⟨before, after, hplacing, -⟩ := List.lookup_eq_some_iff.mp hb
    have hself : (worker, b) ∈ st.placing := by simp [hplacing]
    refine ⟨fun call hcall => ?_, fun call hcall other hother hne =>
      h.apart call (List.mem_filter.mp hcall).1 other (List.mem_filter.mp hother).1 hne⟩
    obtain ⟨hcall, hne⟩ := List.mem_filter.mp hcall
    rw [hI'.lets_iff]
    intro t ht
    rcases List.mem_append.mp ht with ht | ht
    · exact (hI.lets_iff call.2).mp (h.unbought call hcall) t ht
    · rw [List.mem_singleton.mp ht]
      exact h.apart call hcall (worker, b) hself (by simpa using hne)
  · exact ⟨fun call hcall => h.unbought call (List.mem_filter.mp hcall).1,
      fun call hcall other hother =>
        h.apart call (List.mem_filter.mp hcall).1 other (List.mem_filter.mp hother).1⟩

/-- Orders of calls that do not overlap with a call of the same purchase return unbought. -/
theorem returnsUnbought_of_noOverlap {size : Nat} {es : List ExecutorEvent}
    (hsize : ((calledBuys es).flatMap Buy.keyTexts).dedup.length ≤ size)
    (hok : AllSteps (Executor.step size) NoOverlap .empty es) :
    AllSteps (Executor.step size) ReturnsUnbought .empty es := by
  intro before e mid hbefore hmid
  have hp : before <+: es := (List.prefix_append _ _).trans hbefore
  have hI : mid.Remembers (calledBuys es) ∧ mid.WaitsApart := by
    refine runFrom_inv_of_allSteps
      (fun st => st.Remembers (calledBuys es) ∧ st.WaitsApart)
      (fun st e => (∀ b, e.buy? = some b → b ∈ calledBuys es) ∧ NoOverlap st e)
      (fun st e st' hI hok hstep => ?_) (fun p e st hb hst => ?_)
      ⟨Executor.remembers_empty _, by simp [Executor.empty], by simp [Executor.empty]⟩ hmid
    · have hafter := hI.1.step hsize hok.1 hstep
      exact ⟨hafter, hI.2.step hI.1 hafter hok.2 hstep⟩
    · exact ⟨allSteps_calledBuys hp p e st hb hst, hok p e st (hb.trans hp) hst⟩
  cases e with
  | call worker b => trivial
  | raised worker => trivial
  | taken worker =>
      intro b hb
      obtain ⟨call, hcall, rfl⟩ := Executor.mem_placing_of_waiting hb
      exact hI.2.unbought call hcall

/-! ### One worker, and two -/

def redlineListing (listingId : String) : Buy :=
  ⟨"skinport", "AK-47 | Redline (Field-Tested)", 1250, some listingId, Moment.epochDate 0⟩

def redlineSnapshot : Buy :=
  ⟨"skinport", "AK-47 | Redline (Field-Tested)", 1250, none, Moment.epochDate 0⟩

/-- A worker whose order raises, is placed again and is taken, and then is shown the listing as
the lowest ask. -/
def oneWorkerRun : List ExecutorEvent :=
  [.call 0 (redlineListing "81"), .raised 0, .call 0 (redlineListing "81"), .taken 0,
    .call 0 redlineSnapshot]

/-- Two workers place the order of one re-sent listing. -/
def twoWorkersRun : List ExecutorEvent :=
  [.call 0 (redlineListing "81"), .call 1 (redlineListing "81"), .taken 0, .taken 1]

theorem boughtOnce_iff_oneWorkerRun :
    (∀ p mid, p <+: oneWorkerRun →
      runFrom (Executor.step boughtMemorySize) .empty p = some mid → mid.BoughtOnce) ↔
      AllSteps (Executor.step boughtMemorySize) ReturnsUnbought .empty oneWorkerRun := by
  have hrun : ∃ last, runFrom (Executor.step boughtMemorySize) .empty oneWorkerRun = some last :=
    Option.isSome_iff_exists.mp (by decide +kernel)
  obtain ⟨last, hlast⟩ := hrun
  exact boughtOnce_iff hlast (by decide +kernel) (by decide +kernel)

/-- Both workers passed the check before either remembered the purchase. -/
theorem not_boughtOnce_twoWorkersRun :
    ¬ ∀ es last, ((calledBuys es).flatMap Buy.keyTexts).dedup.length < boughtMemorySize →
      runFrom (Executor.step boughtMemorySize) .empty es = some last → last.BoughtOnce := by
  intro hall
  have hrun : (runFrom (Executor.step boughtMemorySize) .empty twoWorkersRun).map
      Executor.taken = some [redlineListing "81", redlineListing "81"] := by decide +kernel
  obtain ⟨last, hlast, htaken⟩ := Option.map_eq_some_iff.mp hrun
  have honce := (hall _ last (by decide +kernel) hlast).apart.onePerKey
  rw [htaken] at honce
  exact List.rel_of_pairwise_cons honce (by simp) rfl

end BrandSniper
