import Mathlib.Data.List.Infix
import Mathlib.Data.List.Pairwise
import Mathlib.Logic.Function.Basic

/-!
# Keyed streams

A store of append-only streams under text keys, with the commands of Redis
on them. An entry has an ID that the store assigns and fields that the
client gives. An ID `ms-seq` is one number, `ms * 2^64 + seq`, so IDs are
compared as the store compares them. A new ID comes from the clock, and is
always past the last one the stream has given out.

`StreamStore.fieldsAt` forgets the IDs: it is what a stream says, in order.
Its lemmas, one for each command, are what proofs about clients use.
-/

namespace Kit

variable {φ : Type}

/-- An entry: its ID and its fields. -/
abbrev StreamEntry (φ : Type) := Nat × φ

/-- The entries by ascending ID, and the last ID given out. Deleting an entry does not give
its ID back. -/
structure Stream (φ : Type) where
  entries : List (StreamEntry φ)
  lastId : Nat
  sorted : entries.Pairwise fun a b => a.1 < b.1
  le_lastId : ∀ e ∈ entries, e.1 ≤ lastId

namespace Stream

def fields (s : Stream φ) : List φ := s.entries.map Prod.snd

def empty : Stream φ where
  entries := []
  lastId := 0
  sorted := List.Pairwise.nil
  le_lastId := List.forall_mem_nil _

/-- The ID of the next entry: the clock's, or the one after the last when the clock is behind. -/
def nextId (s : Stream φ) (now : Nat) : Nat := max now (s.lastId + 1)

theorem sorted_concat (s : Stream φ) (now : Nat) (f : φ) :
    (s.entries ++ [(s.nextId now, f)]).Pairwise fun a b => a.1 < b.1 := by
  rw [List.pairwise_append]
  refine ⟨s.sorted, List.pairwise_singleton _ _, fun a ha b hb => ?_⟩
  rw [List.mem_singleton] at hb
  have hle := s.le_lastId a ha
  rw [hb, nextId]
  omega

theorem le_nextId (s : Stream φ) (now : Nat) (f : φ) :
    ∀ e ∈ s.entries ++ [(s.nextId now, f)], e.1 ≤ s.nextId now := by
  intro e he
  rcases List.mem_append.mp he with hold | hnew
  · have hle := s.le_lastId e hold
    rw [nextId]
    omega
  · rw [List.mem_singleton] at hnew
    exact hnew ▸ le_rfl

/-- `XADD key * fields` on an existing stream. -/
def add (s : Stream φ) (now : Nat) (f : φ) : Stream φ where
  entries := s.entries ++ [(s.nextId now, f)]
  lastId := s.nextId now
  sorted := s.sorted_concat now f
  le_lastId := s.le_nextId now f

theorem sorted_filter (s : Stream φ) (id : Nat) :
    (s.entries.filter fun e => e.1 != id).Pairwise fun a b => a.1 < b.1 :=
  s.sorted.filter _

theorem filter_le_lastId (s : Stream φ) (id : Nat) :
    ∀ e ∈ s.entries.filter fun e => e.1 != id, e.1 ≤ s.lastId :=
  fun e he => s.le_lastId e (List.mem_of_mem_filter he)

/-- `XDEL key id` on an existing stream. -/
def delete (s : Stream φ) (id : Nat) : Stream φ where
  entries := s.entries.filter fun e => e.1 != id
  lastId := s.lastId
  sorted := s.sorted_filter id
  le_lastId := s.filter_le_lastId id

@[simp] theorem fields_empty : (empty : Stream φ).fields = [] := rfl

@[simp] theorem fields_add (s : Stream φ) (now : Nat) (f : φ) :
    (s.add now f).fields = s.fields ++ [f] := by
  simp [fields, add]

/-- Deleting the first entry leaves the others: none of them has its ID. -/
theorem entries_delete_head {s : Stream φ} {e : StreamEntry φ} {rest : List (StreamEntry φ)}
    (h : s.entries = e :: rest) : (s.delete e.1).entries = rest := by
  have hsorted := s.sorted
  rw [h, List.pairwise_cons] at hsorted
  have hrest : rest.filter (fun x => x.1 != e.1) = rest := by
    rw [List.filter_eq_self]
    intro x hx
    have := hsorted.1 x hx
    simpa using this.ne'
  simp [delete, h, hrest]

end Stream

/-- The streams by their keys. A key without a stream is free. -/
abbrev StreamStore (φ : Type) := String → Option (Stream φ)

namespace StreamStore

/-- `XLEN` -/
def xlen (r : StreamStore φ) (key : String) : Nat := ((r key).map (·.entries.length)).getD 0

/-- `XRANGE key - + COUNT count` -/
def xrange (r : StreamStore φ) (key : String) (count : Nat) : List (StreamEntry φ) :=
  (((r key).map Stream.entries).getD []).take count

/-- The entries under a key, by ascending ID. -/
def entriesAt (r : StreamStore φ) (key : String) : List (StreamEntry φ) :=
  ((r key).map Stream.entries).getD []

/-- The last ID given out under a key. -/
def lastIdAt (r : StreamStore φ) (key : String) : Nat := ((r key).map Stream.lastId).getD 0

/-- Past an ID, or any ID where there is none. -/
def past (last : Option Nat) (e : StreamEntry φ) : Bool := last.all fun id => id < e.1

/-- `XRANGE key (last + COUNT count`, from the start where there is no last ID. -/
def xrangePast (r : StreamStore φ) (key : String) (last : Option Nat) (count : Nat) :
    List (StreamEntry φ) :=
  ((r.entriesAt key).filter (past last)).take count

/-- `XADD key * fields`: a free key gets a new stream. -/
def xadd (r : StreamStore φ) (now : Nat) (key : String) (f : φ) : StreamStore φ :=
  Function.update r key (some (((r key).getD Stream.empty).add now f))

/-- `XDEL`: the stream stays, also when it is empty afterwards. -/
def xdel (r : StreamStore φ) (key : String) (id : Nat) : StreamStore φ :=
  Function.update r key ((r key).map (·.delete id))

/-- `DEL` -/
def del (r : StreamStore φ) (key : String) : StreamStore φ :=
  Function.update r key none

/-- `RENAMENX key newkey`: whether the stream was renamed, which it is when `newkey` is free.
`none` is the error of a key without a stream. -/
def renamenx (r : StreamStore φ) (key newkey : String) : Option (StreamStore φ × Bool) :=
  match r key, r newkey with
  | none, _ => none
  | some _, some _ => some (r, false)
  | some s, none => some (Function.update (Function.update r key none) newkey (some s), true)

/-- The fields of the entries under a key, in order. -/
def fieldsAt (r : StreamStore φ) (key : String) : List φ :=
  ((r key).map Stream.fields).getD []

variable {r : StreamStore φ} {key other : String}

theorem fieldsAt_of_some {s : Stream φ} (h : r key = some s) : r.fieldsAt key = s.fields := by
  rw [fieldsAt, h]
  rfl

theorem fieldsAt_of_none (h : r key = none) : r.fieldsAt key = [] := by
  rw [fieldsAt, h]
  rfl

theorem xadd_self (now : Nat) (f : φ) :
    r.xadd now key f key = some (((r key).getD Stream.empty).add now f) :=
  Function.update_self _ _ _

theorem del_self : r.del key key = none := Function.update_self _ _ _

theorem fieldsAt_xadd (now : Nat) (f : φ) :
    (r.xadd now key f).fieldsAt key = r.fieldsAt key ++ [f] := by
  rw [fieldsAt_of_some (xadd_self now f), Stream.fields_add]
  cases h : r key with
  | none => rw [fieldsAt_of_none h]; rfl
  | some s => rw [fieldsAt_of_some h]; rfl

theorem xadd_of_ne (now : Nat) (f : φ) (h : other ≠ key) : r.xadd now key f other = r other :=
  Function.update_of_ne h _ _

theorem xdel_of_ne (id : Nat) (h : other ≠ key) : r.xdel key id other = r other :=
  Function.update_of_ne h _ _

theorem del_of_ne (h : other ≠ key) : r.del key other = r other :=
  Function.update_of_ne h _ _

/-- What is under a key depends on nothing else of the store. -/
theorem fieldsAt_congr {r' : StreamStore φ} (h : r' key = r key) :
    r'.fieldsAt key = r.fieldsAt key := by
  rw [fieldsAt, h, fieldsAt]

theorem xdel_head {s : Stream φ} {e : StreamEntry φ} {rest : List (StreamEntry φ)}
    (hkey : r key = some s) (h : s.entries = e :: rest) :
    ∃ s', r.xdel key e.1 key = some s' ∧ s'.entries = rest := by
  refine ⟨s.delete e.1, ?_, Stream.entries_delete_head h⟩
  rw [xdel, Function.update_self, hkey]
  rfl

/-! ### Entries -/

theorem sorted_entriesAt (r : StreamStore φ) (key : String) :
    (r.entriesAt key).Pairwise fun a b => a.1 < b.1 := by
  rw [entriesAt]
  cases r key with
  | none => exact List.Pairwise.nil
  | some s => exact s.sorted

theorem le_lastIdAt (r : StreamStore φ) (key : String) :
    ∀ e ∈ r.entriesAt key, e.1 ≤ r.lastIdAt key := by
  rw [entriesAt, lastIdAt]
  cases r key with
  | none => exact List.forall_mem_nil _
  | some s => exact s.le_lastId

/-- The ID of the next entry under a key. -/
def nextIdAt (r : StreamStore φ) (key : String) (now : Nat) : Nat :=
  ((r key).getD Stream.empty).nextId now

theorem lastIdAt_lt_nextIdAt (r : StreamStore φ) (key : String) (now : Nat) :
    r.lastIdAt key < r.nextIdAt key now := by
  have hlast : r.lastIdAt key = ((r key).getD Stream.empty).lastId := by
    rw [lastIdAt]
    cases r key <;> rfl
  rw [hlast, nextIdAt, Stream.nextId]
  omega

theorem entriesAt_xadd (now : Nat) (f : φ) :
    (r.xadd now key f).entriesAt key = r.entriesAt key ++ [(r.nextIdAt key now, f)] := by
  rw [entriesAt, xadd_self, entriesAt, nextIdAt]
  cases r key <;> rfl

theorem lastIdAt_xadd (now : Nat) (f : φ) :
    (r.xadd now key f).lastIdAt key = r.nextIdAt key now := by
  rw [lastIdAt, xadd_self]
  rfl

theorem entriesAt_xdel (id : Nat) :
    (r.xdel key id).entriesAt key = (r.entriesAt key).filter fun e => e.1 != id := by
  rw [entriesAt, xdel, Function.update_self, entriesAt]
  cases r key <;> rfl

theorem lastIdAt_xdel (id : Nat) : (r.xdel key id).lastIdAt key = r.lastIdAt key := by
  rw [lastIdAt, xdel, Function.update_self, lastIdAt]
  cases r key <;> rfl

theorem entriesAt_congr {r' : StreamStore φ} (h : r' key = r key) :
    r'.entriesAt key = r.entriesAt key := by
  rw [entriesAt, h, entriesAt]

theorem lastIdAt_congr {r' : StreamStore φ} (h : r' key = r key) :
    r'.lastIdAt key = r.lastIdAt key := by
  rw [lastIdAt, h, lastIdAt]

/-- `XADD` takes no entry away. -/
theorem mem_entriesAt_xadd {e : StreamEntry φ} (now : Nat) (f : φ) (he : e ∈ r.entriesAt other) :
    e ∈ (r.xadd now key f).entriesAt other := by
  by_cases heq : other = key
  · subst heq
    rw [entriesAt_xadd]
    exact List.mem_append_left _ he
  · rwa [entriesAt_congr (xadd_of_ne now f heq)]

theorem mem_of_mem_xadd {e : StreamEntry φ} {now : Nat} {f : φ}
    (he : e ∈ (r.xadd now key f).entriesAt other) :
    e ∈ r.entriesAt other ∨ other = key ∧ e = (r.nextIdAt key now, f) := by
  by_cases heq : other = key
  · subst heq
    rw [entriesAt_xadd, List.mem_append, List.mem_singleton] at he
    exact he.imp_right fun h => ⟨rfl, h⟩
  · rw [entriesAt_congr (xadd_of_ne now f heq)] at he
    exact Or.inl he

theorem mem_of_mem_xdel {e : StreamEntry φ} {id : Nat}
    (he : e ∈ (r.xdel key id).entriesAt other) : e ∈ r.entriesAt other := by
  by_cases heq : other = key
  · subst heq
    rw [entriesAt_xdel] at he
    exact List.mem_of_mem_filter he
  · rwa [entriesAt_congr (xdel_of_ne id heq)] at he

/-- `XDEL` takes only the entry with its ID away. -/
theorem mem_entriesAt_xdel {e : StreamEntry φ} {id : Nat} (he : e ∈ r.entriesAt other) :
    e ∈ (r.xdel key id).entriesAt other ∨ other = key ∧ e.1 = id := by
  by_cases heq : other = key
  · subst heq
    by_cases hid : e.1 = id
    · exact Or.inr ⟨rfl, hid⟩
    · rw [entriesAt_xdel]
      exact Or.inl (List.mem_filter.mpr ⟨he, bne_iff_ne.mpr hid⟩)
  · rw [entriesAt_congr (xdel_of_ne id heq)]
    exact Or.inl he

/-- A later state of the store: no ID is given out twice, so an entry under an old ID is an old
one. -/
structure Extends (r r' : StreamStore φ) : Prop where
  lastIdAt_le : ∀ key, r.lastIdAt key ≤ r'.lastIdAt key
  old : ∀ key, ∀ e ∈ r'.entriesAt key, e.1 ≤ r.lastIdAt key → e ∈ r.entriesAt key

theorem Extends.refl (r : StreamStore φ) : Extends r r := ⟨fun _ => le_rfl, fun _ _ he _ => he⟩

theorem Extends.trans {r' r'' : StreamStore φ} (h : Extends r r') (h' : Extends r' r'') :
    Extends r r'' where
  lastIdAt_le := fun key => (h.lastIdAt_le key).trans (h'.lastIdAt_le key)
  old := fun key e he hle =>
    h.old key e (h'.old key e he (hle.trans (h.lastIdAt_le key))) hle

theorem extends_xadd (r : StreamStore φ) (now : Nat) (key : String) (f : φ) :
    Extends r (r.xadd now key f) where
  lastIdAt_le := by
    intro other
    by_cases heq : other = key
    · subst heq
      rw [lastIdAt_xadd]
      exact (lastIdAt_lt_nextIdAt r other now).le
    · rw [lastIdAt_congr (xadd_of_ne now f heq)]
  old := by
    intro other e he hle
    rcases mem_of_mem_xadd he with hold | ⟨rfl, rfl⟩
    · exact hold
    · exact absurd hle (Nat.not_le.mpr (lastIdAt_lt_nextIdAt r other now))

theorem extends_xdel (r : StreamStore φ) (key : String) (id : Nat) :
    Extends r (r.xdel key id) where
  lastIdAt_le := by
    intro other
    by_cases heq : other = key
    · rw [heq, lastIdAt_xdel]
    · rw [lastIdAt_congr (xdel_of_ne id heq)]
  old := fun _ _ he _ => mem_of_mem_xdel he

/-- What `RENAMENX` can answer. -/
theorem renamenx_cases {s : Stream φ} (newkey : String) (h : r key = some s) :
    ((∃ s', r newkey = some s') ∧ r.renamenx key newkey = some (r, false)) ∨
      (r newkey = none ∧ r.renamenx key newkey =
        some (Function.update (Function.update r key none) newkey (some s), true)) := by
  cases hnew : r newkey with
  | none =>
      right
      refine ⟨rfl, ?_⟩
      rw [renamenx, h, hnew]
  | some s' =>
      left
      refine ⟨⟨s', rfl⟩, ?_⟩
      rw [renamenx, h, hnew]

end StreamStore

end Kit
