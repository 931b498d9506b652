import Mathlib.Data.List.Dedup
import Mathlib.Data.List.Perm.Subperm

/-!
# Insertion-ordered dictionaries

The dictionary every cache of the program is built on: keys in insertion
order, each key once. `set` overwrites in place and appends a new key,
`moveToEnd` makes a key the most recent one, and `trim` pops the oldest
entries of a dictionary over its capacity, so `set`, `moveToEnd`, `trim` in
a row are one step of an LRU cache.

Reads go through `get?`. `get?_set` and `get?_moveToEnd` are all a proof
needs as long as nothing is popped (`trim_of_le`).
-/

namespace Kit

/-- Keys in insertion order, each with its value. -/
structure OrderedDict (κ α : Type) where
  items : List (κ × α)
  nodupKeys : (items.map Prod.fst).Nodup

namespace OrderedDict

variable {κ α : Type}

@[ext] theorem ext {d e : OrderedDict κ α} (h : d.items = e.items) : d = e := by
  cases d; cases e; cases h; rfl

/-- `len(d)` -/
def len (d : OrderedDict κ α) : Nat := d.items.length

def keys (d : OrderedDict κ α) : List κ := d.items.map Prod.fst

theorem len_eq_length_keys (d : OrderedDict κ α) : d.len = d.keys.length := by
  simp [len, keys]

/-- `while len(d) > capacity: d.popitem(last=False)` -/
def trim (capacity : Nat) (d : OrderedDict κ α) : OrderedDict κ α :=
  ⟨d.items.drop (d.len - capacity),
    d.nodupKeys.sublist ((List.drop_sublist _ _).map Prod.fst)⟩

/-- Within its capacity a dictionary loses nothing. -/
theorem trim_of_le {capacity : Nat} {d : OrderedDict κ α} (h : d.len ≤ capacity) :
    d.trim capacity = d := by
  apply ext
  simp [trim, Nat.sub_eq_zero_of_le h]

theorem len_trim_le (capacity : Nat) (d : OrderedDict κ α) : (d.trim capacity).len ≤ d.len := by
  rw [trim, len, List.length_drop]
  exact Nat.sub_le _ _

/-- `{k: v for k, v in d.items() if p(k, v)}` -/
def filter (p : κ × α → Bool) (d : OrderedDict κ α) : OrderedDict κ α :=
  ⟨d.items.filter p, d.nodupKeys.sublist (List.filter_sublist.map Prod.fst)⟩

/-- `{k: g(v) for k, v in d.items() if g(v) is not None}` -/
def filterMap {β : Type} (g : α → Option β) (d : OrderedDict κ α) : OrderedDict κ β :=
  ⟨d.items.filterMap fun kv => (g kv.2).map fun value => (kv.1, value), by
    obtain ⟨items, hnodup⟩ := d
    refine List.Nodup.sublist ?_ hnodup
    induction items with
    | nil => exact List.Sublist.refl _
    | cons kv rest ih =>
        have ih := ih (List.nodup_cons.mp hnodup).2
        cases hg : g kv.2 with
        | none => simpa [hg] using ih.cons kv.1
        | some value => simpa [hg] using ih.cons_cons kv.1⟩

variable [DecidableEq κ]

/-! ## The list operations -/

/-- Value of the key. -/
def getItem? : List (κ × α) → κ → Option α
  | [], _ => none
  | (k, v) :: rest, key => if k = key then some v else getItem? rest key

/-- Overwrite the key in place, or append it. -/
def setItem : List (κ × α) → κ → α → List (κ × α)
  | [], key, value => [(key, value)]
  | (k, v) :: rest, key, value =>
      if k = key then (key, value) :: rest else (k, v) :: setItem rest key value

/-- Without the key. -/
def eraseItem (items : List (κ × α)) (key : κ) : List (κ × α) :=
  items.filter fun kv => kv.1 ≠ key

theorem keys_setItem (items : List (κ × α)) (key : κ) (value : α) :
    (setItem items key value).map Prod.fst
      = if key ∈ items.map Prod.fst then items.map Prod.fst
        else items.map Prod.fst ++ [key] := by
  induction items with
  | nil => simp [setItem]
  | cons kv rest ih =>
      obtain ⟨k, v⟩ := kv
      by_cases hk : k = key
      · simp [setItem, hk]
      · by_cases hmem : key ∈ rest.map Prod.fst
        · simp [setItem, hk, ih, hmem]
        · simp [setItem, hk, ih, hmem, Ne.symm hk]

theorem getItem?_setItem (items : List (κ × α)) (key : κ) (value : α) (k : κ) :
    getItem? (setItem items key value) k
      = if key = k then some value else getItem? items k := by
  induction items with
  | nil => simp [setItem, getItem?]
  | cons kv rest ih =>
      obtain ⟨k', v'⟩ := kv
      by_cases hk' : k' = key
      · subst hk'
        by_cases hk : k' = k <;> simp [setItem, getItem?, hk]
      · simp only [setItem, if_neg hk', getItem?, ih]
        by_cases hk : key = k
        · subst hk
          simp [hk']
        · simp [hk]

theorem getItem?_eq_none {items : List (κ × α)} {key : κ} :
    getItem? items key = none ↔ key ∉ items.map Prod.fst := by
  induction items with
  | nil => simp [getItem?]
  | cons kv rest ih =>
      obtain ⟨k, v⟩ := kv
      by_cases hk : k = key
      · simp [getItem?, hk]
      · simp only [getItem?, if_neg hk, ih, List.map_cons, List.mem_cons, not_or]
        exact ⟨fun h => ⟨Ne.symm hk, h⟩, fun h => h.2⟩

theorem getItem?_eq_some {items : List (κ × α)} (h : (items.map Prod.fst).Nodup) {key : κ}
    {value : α} : getItem? items key = some value ↔ (key, value) ∈ items := by
  induction items with
  | nil => simp [getItem?]
  | cons kv rest ih =>
      obtain ⟨k, v⟩ := kv
      simp only [List.map_cons, List.nodup_cons] at h
      by_cases hk : k = key
      · subst hk
        have hnot : (k, value) ∉ rest := fun hm => h.1 (List.mem_map.mpr ⟨_, hm, rfl⟩)
        simp [getItem?, hnot, eq_comm]
      · simp [getItem?, hk, ih h.2, Ne.symm hk]

theorem eraseItem_of_not_mem {items : List (κ × α)} {key : κ} (h : key ∉ items.map Prod.fst) :
    eraseItem items key = items := by
  refine List.filter_eq_self.mpr (fun kv hkv => ?_)
  have hne : kv.1 ≠ key := fun hk => h (List.mem_map.mpr ⟨kv, hkv, hk⟩)
  simpa using hne

/-- Up to order, `set` puts the new pair in front of the others. -/
theorem setItem_perm {items : List (κ × α)} (h : (items.map Prod.fst).Nodup) (key : κ)
    (value : α) : (setItem items key value).Perm ((key, value) :: eraseItem items key) := by
  induction items with
  | nil => exact List.Perm.refl _
  | cons kv rest ih =>
      obtain ⟨k, v⟩ := kv
      simp only [List.map_cons, List.nodup_cons] at h
      by_cases hk : k = key
      · subst hk
        have hrest : eraseItem ((k, v) :: rest) k = eraseItem rest k := by simp [eraseItem]
        rw [hrest, eraseItem_of_not_mem h.1, setItem, if_pos rfl]
      · have hrest : eraseItem ((k, v) :: rest) key = (k, v) :: eraseItem rest key := by
          simp [eraseItem, hk]
        rw [hrest, setItem, if_neg hk]
        exact ((ih h.2).cons _).trans (List.Perm.swap _ _ _)

/-! ## The dictionary operations -/

def empty : OrderedDict κ α := ⟨[], by simp⟩

/-- `d.get(key)` -/
def get? (d : OrderedDict κ α) (key : κ) : Option α := getItem? d.items key

/-- `key in d` -/
def contains (d : OrderedDict κ α) (key : κ) : Bool := (d.get? key).isSome

/-- `d[key] = value` -/
def set (d : OrderedDict κ α) (key : κ) (value : α) : OrderedDict κ α :=
  ⟨setItem d.items key value, by
    rw [keys_setItem]
    split
    · exact d.nodupKeys
    · rename_i hmem
      exact d.nodupKeys.append (List.nodup_singleton key) (by simpa using hmem)⟩

/-- `del d[key]` -/
def erase (d : OrderedDict κ α) (key : κ) : OrderedDict κ α :=
  ⟨eraseItem d.items key, d.nodupKeys.sublist (List.filter_sublist.map Prod.fst)⟩

/-- `d.move_to_end(key)` -/
def moveToEnd (d : OrderedDict κ α) (key : κ) : OrderedDict κ α :=
  match d.get? key with
  | none => d
  | some value => (d.erase key).set key value

/-- `d.update(items)` -/
def setAll (d : OrderedDict κ α) (items : List (κ × α)) : OrderedDict κ α :=
  items.foldl (fun d kv => d.set kv.1 kv.2) d

@[simp] theorem get?_empty (key : κ) : (empty : OrderedDict κ α).get? key = none := rfl

@[simp] theorem contains_empty (key : κ) : (empty : OrderedDict κ α).contains key = false := rfl

theorem get?_set (d : OrderedDict κ α) (key : κ) (value : α) (k : κ) :
    (d.set key value).get? k = if key = k then some value else d.get? k :=
  getItem?_setItem d.items key value k

theorem get?_setAll {d : OrderedDict κ α} {items : List (κ × α)} {key : κ} {value : α}
    (h : (d.setAll items).get? key = some value) : (key, value) ∈ items ∨ d.get? key = some value := by
  induction items generalizing d with
  | nil => exact .inr h
  | cons kv rest ih =>
      rcases ih h with hrest | hset
      · exact .inl (List.mem_cons_of_mem _ hrest)
      · rw [get?_set] at hset
        split at hset
        · rename_i hkey
          cases hset
          exact .inl (hkey ▸ List.mem_cons_self)
        · exact .inr hset

theorem get?_setAll_of_nodup {items : List (κ × α)} (h : (items.map Prod.fst).Nodup)
    (d : OrderedDict κ α) (k : κ) :
    (d.setAll items).get? k = (getItem? items k).or (d.get? k) := by
  induction items generalizing d with
  | nil => rfl
  | cons kv rest ih =>
      obtain ⟨key, value⟩ := kv
      rw [List.map_cons, List.nodup_cons] at h
      have hcons : d.setAll ((key, value) :: rest) = (d.set key value).setAll rest := rfl
      rw [hcons, ih h.2, get?_set, getItem?]
      by_cases hk : key = k
      · subst hk
        rw [getItem?_eq_none.mpr h.1, if_pos rfl, if_pos rfl]
        rfl
      · rw [if_neg hk, if_neg hk]

/-- What `d.update(e)` holds. -/
theorem get?_setAll_items (d e : OrderedDict κ α) (k : κ) :
    (d.setAll e.items).get? k = (e.get? k).or (d.get? k) :=
  get?_setAll_of_nodup e.nodupKeys d k

theorem get?_eq_some {d : OrderedDict κ α} {key : κ} {value : α} :
    d.get? key = some value ↔ (key, value) ∈ d.items := getItem?_eq_some d.nodupKeys

/-- What is left of a dictionary over its capacity. -/
theorem get?_of_trim {capacity : Nat} {d : OrderedDict κ α} {key : κ} {value : α}
    (h : (d.trim capacity).get? key = some value) : d.get? key = some value := by
  rw [get?_eq_some] at h ⊢
  exact List.mem_of_mem_drop h

theorem contains_set (d : OrderedDict κ α) (key : κ) (value : α) (k : κ) :
    (d.set key value).contains k = (decide (key = k) || d.contains k) := by
  by_cases hk : key = k <;> simp [contains, get?_set, hk]

theorem get?_erase (d : OrderedDict κ α) (key k : κ) :
    (d.erase key).get? k = if key = k then none else d.get? k := by
  obtain ⟨items, hnodup⟩ := d
  by_cases hk : key = k
  · subst hk
    rw [if_pos rfl]
    exact getItem?_eq_none.mpr (by simp [erase, eraseItem])
  · rw [if_neg hk]
    refine Option.ext (fun value => ?_)
    rw [get?, get?, getItem?_eq_some (erase ⟨items, hnodup⟩ key).nodupKeys,
      getItem?_eq_some hnodup]
    simp [erase, eraseItem, Ne.symm hk]

@[simp] theorem get?_moveToEnd (d : OrderedDict κ α) (key k : κ) :
    (d.moveToEnd key).get? k = d.get? k := by
  unfold moveToEnd
  cases hget : d.get? key with
  | none => rfl
  | some value =>
      rw [get?_set, get?_erase]
      by_cases hk : key = k
      · simp [← hk, hget]
      · simp [hk]

theorem get?_filter (p : κ × α → Bool) (d : OrderedDict κ α) (key : κ) :
    (d.filter p).get? key = (d.get? key).filter fun value => p (key, value) := by
  obtain ⟨items, hnodup⟩ := d
  refine Option.ext fun value => ?_
  rw [Option.filter_eq_some_iff, get?, get?,
    getItem?_eq_some (OrderedDict.filter p ⟨items, hnodup⟩).nodupKeys, getItem?_eq_some hnodup]
  exact List.mem_filter

theorem get?_filterMap {β : Type} (g : α → Option β) (d : OrderedDict κ α) (key : κ) :
    (d.filterMap g).get? key = (d.get? key).bind g := by
  obtain ⟨items, hnodup⟩ := d
  refine Option.ext fun value => ?_
  rw [Option.bind_eq_some_iff, get?, get?,
    getItem?_eq_some (OrderedDict.filterMap g ⟨items, hnodup⟩).nodupKeys]
  constructor
  · intro hmem
    obtain ⟨⟨k, v⟩, hkv, hmap⟩ := List.mem_filterMap.mp hmem
    obtain ⟨value', hg, hpair⟩ := Option.map_eq_some_iff.mp hmap
    cases hpair
    exact ⟨v, (getItem?_eq_some hnodup).mpr hkv, hg⟩
  · rintro ⟨v, hget, hg⟩
    refine List.mem_filterMap.mpr ⟨(key, v), (getItem?_eq_some hnodup).mp hget, ?_⟩
    rw [hg, Option.map_some]

theorem contains_iff_mem {d : OrderedDict κ α} {key : κ} :
    d.contains key = true ↔ key ∈ d.keys := by
  have hnone : getItem? d.items key = none ↔ key ∉ d.items.map Prod.fst := getItem?_eq_none
  cases hget : d.get? key with
  | none =>
      have hmem : key ∉ d.keys := hnone.mp hget
      simp [contains, hget, hmem]
  | some value =>
      have hmem : key ∈ d.keys := by
        by_contra h
        have hn : getItem? d.items key = none := hnone.mpr h
        rw [show getItem? d.items key = some value from hget] at hn
        cases hn
      simp [contains, hget, hmem]

theorem keys_set (d : OrderedDict κ α) (key : κ) (value : α) :
    (d.set key value).keys = if key ∈ d.keys then d.keys else d.keys ++ [key] :=
  keys_setItem d.items key value

theorem len_set (d : OrderedDict κ α) (key : κ) (value : α) :
    (d.set key value).len = if d.contains key then d.len else d.len + 1 := by
  rw [len_eq_length_keys, len_eq_length_keys, keys_set]
  by_cases hmem : key ∈ d.keys
  · simp [hmem, contains_iff_mem.mpr hmem]
  · have hnot : d.contains key = false := by
      rw [← Bool.not_eq_true, contains_iff_mem]; exact hmem
    simp [hmem, hnot]

theorem keys_moveToEnd (d : OrderedDict κ α) {key : κ} (h : key ∈ d.keys) :
    (d.moveToEnd key).keys = (d.keys.filter fun k => k ≠ key) ++ [key] := by
  have herase : (d.erase key).keys = d.keys.filter fun k => k ≠ key := by
    show (eraseItem d.items key).map Prod.fst = (d.items.map Prod.fst).filter fun k => k ≠ key
    rw [eraseItem, List.filter_map]
    rfl
  unfold moveToEnd
  cases hget : d.get? key with
  | none => exact absurd h (getItem?_eq_none.mp hget)
  | some value =>
      show ((d.erase key).set key value).keys = _
      rw [keys_set, herase, if_neg]
      intro hmem
      simpa using (List.mem_filter.mp hmem).2

omit [DecidableEq κ] in
theorem keys_trim (capacity : Nat) (d : OrderedDict κ α) :
    (d.trim capacity).keys = d.keys.drop (d.keys.length - capacity) := by
  rw [← len_eq_length_keys]
  exact List.map_drop

theorem len_moveToEnd (d : OrderedDict κ α) (key : κ) : (d.moveToEnd key).len = d.len := by
  unfold moveToEnd
  cases hget : d.get? key with
  | none => rfl
  | some value =>
      -- overwriting the key in place and moving it hold the same pairs
      have hmoved := (setItem_perm (d.erase key).nodupKeys key value).length_eq
      have hinPlace := (setItem_perm d.nodupKeys key value).length_eq
      have herase : eraseItem (d.erase key).items key = eraseItem d.items key := by
        simp [erase, eraseItem]
      have hlen := len_set d key value
      rw [contains, hget] at hlen
      rw [herase, ← hinPlace] at hmoved
      exact hmoved.trans hlen

/-- The keys of a dictionary that all come from one list are no more than
the distinct elements of that list. -/
theorem len_le_of_subset {d : OrderedDict κ α} {l : List κ} (h : ∀ k ∈ d.keys, k ∈ l) :
    d.len ≤ l.dedup.length := by
  rw [len_eq_length_keys]
  exact (List.subperm_of_subset d.nodupKeys
    (fun k hk => List.mem_dedup.mpr (h k hk))).length_le

end OrderedDict

end Kit
