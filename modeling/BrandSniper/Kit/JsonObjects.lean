import BrandSniper.Kit.Json

/-!
# JSON objects as dictionaries

Reading a field of an object, the dictionaries `json.loads` makes of objects,
and the order `sort_keys=True` puts them in. An object whose keys are all
different is read back as it is (`loads_dumps`), and sorting its keys does not
change what its fields hold (`getField_sortFields`).
-/

namespace Kit.Json

variable {F : Type}

/-! ## Fields -/

/-- `document.get(key)` -/
def getField : List (String × Json F) → String → Option (Json F)
  | [], _ => none
  | (k, j) :: rest, key => if k = key then some j else getField rest key

def keys (fields : List (String × Json F)) : List String := fields.map Prod.fst

@[simp] theorem getField_nil (key : String) : getField ([] : List (String × Json F)) key = none :=
  rfl

theorem getField_cons (k : String) (j : Json F) (rest : List (String × Json F)) (key : String) :
    getField ((k, j) :: rest) key = if k = key then some j else getField rest key := rfl

theorem getField_eq_none_iff {fields : List (String × Json F)} {key : String} :
    getField fields key = none ↔ key ∉ keys fields := by
  induction fields with
  | nil => simp [keys]
  | cons field rest ih =>
      obtain ⟨k, j⟩ := field
      by_cases hk : k = key
      · simp [getField, keys, hk]
      · have hne : ¬ key = k := fun h => hk h.symm
        simpa [getField, keys, hk, hne] using ih

/-! ## Dictionaries -/

/-- A field in front of a dictionary. If the dictionary has its key, that later value wins. -/
def putFirst (key : String) (j : Json F) (fields : List (String × Json F)) :
    List (String × Json F) :=
  match getField fields key with
  | some later => (key, later) :: fields.filter fun field => field.1 ≠ key
  | none => (key, j) :: fields

mutual

/-- Every object as a dictionary. -/
def toDicts : Json F → Json F
  | .null => .null
  | .bool b => .bool b
  | .int z => .int z
  | .float x => .float x
  | .str s => .str s
  | .arr items => .arr (toDictsItems items)
  | .obj fields => .obj (toDictsFields fields)
termination_by structural j => j

def toDictsItems : List (Json F) → List (Json F)
  | [] => []
  | j :: rest => toDicts j :: toDictsItems rest
termination_by structural items => items

def toDictsFields : List (String × Json F) → List (String × Json F)
  | [] => []
  | field :: rest => putFirst (toDictsField field).1 (toDictsField field).2 (toDictsFields rest)
termination_by structural fields => fields

def toDictsField : String × Json F → String × Json F
  | (key, j) => (key, toDicts j)
termination_by structural field => field

end

/-- `json.loads(text)` -/
def loads [PyFloat F] (text : String) : Option (Json F) := (parse text.toList).map toDicts

mutual

/-- No object of the value repeats a key. -/
def UniqueKeys : Json F → Prop
  | .null => True
  | .bool _ => True
  | .int _ => True
  | .float _ => True
  | .str _ => True
  | .arr items => UniqueKeysItems items
  | .obj fields => (keys fields).Nodup ∧ UniqueKeysFields fields
termination_by structural j => j

def UniqueKeysItems : List (Json F) → Prop
  | [] => True
  | j :: rest => UniqueKeys j ∧ UniqueKeysItems rest
termination_by structural items => items

def UniqueKeysFields : List (String × Json F) → Prop
  | [] => True
  | field :: rest => UniqueKeysField field ∧ UniqueKeysFields rest
termination_by structural fields => fields

def UniqueKeysField : String × Json F → Prop
  | (_, j) => UniqueKeys j
termination_by structural field => field

end

theorem keys_putFirst {key : String} {j : Json F} {fields : List (String × Json F)}
    (h : (keys fields).Nodup) : (keys (putFirst key j fields)).Nodup := by
  unfold putFirst
  cases hget : getField fields key with
  | none => exact List.nodup_cons.mpr ⟨getField_eq_none_iff.mp hget, h⟩
  | some later =>
      refine List.nodup_cons.mpr ⟨?_, h.sublist (List.filter_sublist.map Prod.fst)⟩
      intro hmem
      obtain ⟨field, hfield, hkey⟩ := List.mem_map.mp hmem
      simpa [hkey] using (List.mem_filter.mp hfield).2

theorem uniqueKeysFields_iff {fields : List (String × Json F)} :
    UniqueKeysFields fields ↔ ∀ field ∈ fields, UniqueKeys field.2 := by
  induction fields with
  | nil => simp [UniqueKeysFields]
  | cons field rest ih =>
      obtain ⟨key, j⟩ := field
      rw [UniqueKeysFields, UniqueKeysField, ih, List.forall_mem_cons]

theorem uniqueKeysItems_iff {items : List (Json F)} :
    UniqueKeysItems items ↔ ∀ j ∈ items, UniqueKeys j := by
  induction items with
  | nil => simp [UniqueKeysItems]
  | cons j rest ih => rw [UniqueKeysItems, ih, List.forall_mem_cons]

theorem getField_mem {fields : List (String × Json F)} {key : String} {j : Json F}
    (h : getField fields key = some j) : (key, j) ∈ fields := by
  induction fields with
  | nil => cases h
  | cons field rest ih =>
      obtain ⟨k, v⟩ := field
      rw [getField] at h
      split at h
      · rename_i hk
        rw [hk, Option.some.inj h]
        exact List.mem_cons_self
      · exact List.mem_cons_of_mem _ (ih h)

theorem uniqueKeysFields_putFirst {key : String} {j : Json F} {fields : List (String × Json F)}
    (hj : UniqueKeys j) (h : UniqueKeysFields fields) : UniqueKeysFields (putFirst key j fields) := by
  rw [uniqueKeysFields_iff] at h ⊢
  unfold putFirst
  intro field hfield
  cases hget : getField fields key with
  | none =>
      rw [hget] at hfield
      rcases List.mem_cons.mp hfield with rfl | hfield
      · exact hj
      · exact h field hfield
  | some later =>
      rw [hget] at hfield
      rcases List.mem_cons.mp hfield with rfl | hfield
      · exact h _ (getField_mem hget)
      · exact h field (List.mem_filter.mp hfield).1

mutual

/-- Dictionaries repeat no key. -/
theorem uniqueKeys_toDicts : ∀ j : Json F, UniqueKeys (toDicts j)
  | .null => by rw [toDicts]; trivial
  | .bool _ => by rw [toDicts]; trivial
  | .int _ => by rw [toDicts]; trivial
  | .float _ => by rw [toDicts]; trivial
  | .str _ => by rw [toDicts]; trivial
  | .arr items => by rw [toDicts]; exact uniqueKeysItems_toDicts items
  | .obj fields => by rw [toDicts]; exact uniqueKeysFields_toDicts fields

theorem uniqueKeysItems_toDicts : ∀ items : List (Json F), UniqueKeysItems (toDictsItems items)
  | [] => by rw [toDictsItems]; trivial
  | j :: rest => by
      rw [toDictsItems]
      exact ⟨uniqueKeys_toDicts j, uniqueKeysItems_toDicts rest⟩

theorem uniqueKeysFields_toDicts : ∀ fields : List (String × Json F),
    (keys (toDictsFields fields)).Nodup ∧ UniqueKeysFields (toDictsFields fields)
  | [] => by rw [toDictsFields]; exact ⟨List.nodup_nil, trivial⟩
  | (key, j) :: rest => by
      obtain ⟨hnodup, hvalues⟩ := uniqueKeysFields_toDicts rest
      rw [toDictsFields, toDictsField]
      exact ⟨keys_putFirst hnodup, uniqueKeysFields_putFirst (uniqueKeys_toDicts j) hvalues⟩

end

mutual

theorem toDicts_of_uniqueKeys : ∀ j : Json F, UniqueKeys j → toDicts j = j
  | .null, _ => by rw [toDicts]
  | .bool _, _ => by rw [toDicts]
  | .int _, _ => by rw [toDicts]
  | .float _, _ => by rw [toDicts]
  | .str _, _ => by rw [toDicts]
  | .arr items, h => by rw [toDicts, toDictsItems_of_uniqueKeys items h]
  | .obj fields, h => by rw [toDicts, toDictsFields_of_uniqueKeys fields h.1 h.2]

theorem toDictsItems_of_uniqueKeys : ∀ items : List (Json F), UniqueKeysItems items →
    toDictsItems items = items
  | [], _ => by rw [toDictsItems]
  | j :: rest, h => by
      rw [toDictsItems, toDicts_of_uniqueKeys j h.1, toDictsItems_of_uniqueKeys rest h.2]

theorem toDictsFields_of_uniqueKeys : ∀ fields : List (String × Json F), (keys fields).Nodup →
    UniqueKeysFields fields → toDictsFields fields = fields
  | [], _, _ => by rw [toDictsFields]
  | (key, j) :: rest, hnodup, h => by
      have hnew : key ∉ keys rest := (List.nodup_cons.mp hnodup).1
      rw [toDictsFields, toDictsField, toDicts_of_uniqueKeys j h.1,
        toDictsFields_of_uniqueKeys rest (List.nodup_cons.mp hnodup).2 h.2, putFirst,
        getField_eq_none_iff.mpr hnew]

end

/-- A value without repeated keys is read back from its text. -/
theorem loads_dumps [PyFloat F] [LawfulPyFloat F] {j : Json F} (h : UniqueKeys j) :
    loads (String.ofList (dumps j)) = some j := by
  rw [loads, String.toList_ofList, parse_dumps, Option.map_some, toDicts_of_uniqueKeys j h]

/-! ## Sorted keys -/

/-- Insert a field before the first larger key. -/
def insertSorted (key : String) (j : Json F) : List (String × Json F) → List (String × Json F)
  | [] => [(key, j)]
  | (k, v) :: rest =>
      if key < k then (key, j) :: (k, v) :: rest else (k, v) :: insertSorted key j rest

mutual

/-- The value with the fields of every object in the order of their keys. -/
def sortKeys : Json F → Json F
  | .null => .null
  | .bool b => .bool b
  | .int z => .int z
  | .float x => .float x
  | .str s => .str s
  | .arr items => .arr (sortItems items)
  | .obj fields => .obj (sortFields fields)
termination_by structural j => j

def sortItems : List (Json F) → List (Json F)
  | [] => []
  | j :: rest => sortKeys j :: sortItems rest
termination_by structural items => items

def sortFields : List (String × Json F) → List (String × Json F)
  | [] => []
  | field :: rest => insertSorted (sortField field).1 (sortField field).2 (sortFields rest)
termination_by structural fields => fields

def sortField : String × Json F → String × Json F
  | (key, j) => (key, sortKeys j)
termination_by structural field => field

end

theorem sortItems_eq_map (items : List (Json F)) : sortItems items = items.map sortKeys := by
  induction items with
  | nil => rw [sortItems, List.map_nil]
  | cons j rest ih => rw [sortItems, ih, List.map_cons]

theorem keys_insertSorted (key : String) (j : Json F) (fields : List (String × Json F)) :
    ∀ k, k ∈ keys (insertSorted key j fields) ↔ k = key ∨ k ∈ keys fields := by
  intro k
  induction fields with
  | nil => simp [insertSorted, keys]
  | cons field rest ih =>
      obtain ⟨k', v⟩ := field
      rw [insertSorted]
      split
      · simp [keys]
      · simp only [keys, List.map_cons, List.mem_cons] at ih ⊢
        rw [ih]
        tauto

theorem getField_insertSorted {key : String} {j : Json F} {fields : List (String × Json F)}
    (h : key ∉ keys fields) (k : String) :
    getField (insertSorted key j fields) k = if key = k then some j else getField fields k := by
  induction fields with
  | nil => rfl
  | cons field rest ih =>
      obtain ⟨k', v⟩ := field
      simp only [keys, List.map_cons, List.mem_cons, not_or] at h
      rw [insertSorted]
      split
      · rfl
      · rw [getField, ih h.2, getField]
        by_cases hk : key = k
        · subst hk
          simp [Ne.symm h.1]
        · simp [hk]

theorem keys_sortFields (fields : List (String × Json F)) (k : String) :
    k ∈ keys (sortFields fields) ↔ k ∈ keys fields := by
  induction fields with
  | nil => rw [sortFields]
  | cons field rest ih =>
      obtain ⟨key, j⟩ := field
      rw [sortFields, sortField, keys_insertSorted, ih]
      simp [keys]

/-- Sorting the keys keeps the fields. -/
theorem getField_sortFields {fields : List (String × Json F)} (h : (keys fields).Nodup)
    (k : String) : getField (sortFields fields) k = (getField fields k).map sortKeys := by
  induction fields with
  | nil => rw [sortFields]; rfl
  | cons field rest ih =>
      obtain ⟨key, j⟩ := field
      obtain ⟨hnew, hrest⟩ := List.nodup_cons.mp h
      have hnew' : key ∉ keys (sortFields rest) := fun hk => hnew ((keys_sortFields rest key).mp hk)
      rw [sortFields, sortField, getField_insertSorted hnew', ih hrest, getField]
      split <;> rfl

theorem perm_insertSorted (key : String) (j : Json F) (fields : List (String × Json F)) :
    (insertSorted key j fields).Perm ((key, j) :: fields) := by
  induction fields with
  | nil => exact .refl _
  | cons field rest ih =>
      obtain ⟨k, v⟩ := field
      rw [insertSorted]
      split
      · exact .refl _
      · exact (ih.cons (k, v)).trans (.swap _ _ _)

theorem perm_sortFields (fields : List (String × Json F)) :
    (sortFields fields).Perm (fields.map sortField) := by
  induction fields with
  | nil => rw [sortFields, List.map_nil]
  | cons field rest ih =>
      rw [sortFields, List.map_cons]
      exact (perm_insertSorted _ _ _).trans (ih.cons _)

theorem keys_map_sortField (fields : List (String × Json F)) :
    keys (fields.map sortField) = keys fields := by
  rw [keys, keys, List.map_map]
  apply List.map_congr_left
  intro field _
  obtain ⟨key, j⟩ := field
  rw [Function.comp_apply, sortField]

mutual

/-- Sorting the keys repeats none. -/
theorem uniqueKeys_sortKeys : ∀ j : Json F, UniqueKeys j → UniqueKeys (sortKeys j)
  | .null, h | .bool _, h | .int _, h | .float _, h | .str _, h => by
      rw [sortKeys]
      exact h
  | .arr items, h => by
      rw [UniqueKeys] at h
      rw [sortKeys, UniqueKeys]
      exact uniqueKeysItems_sortItems items h
  | .obj fields, h => by
      rw [UniqueKeys] at h
      rw [sortKeys, UniqueKeys]
      have hperm := perm_sortFields fields
      constructor
      · have hkeys : (keys (sortFields fields)).Perm (keys fields) := by
          rw [← keys_map_sortField fields]
          exact hperm.map Prod.fst
        exact hkeys.nodup_iff.mpr h.1
      · rw [uniqueKeysFields_iff]
        intro field hfield
        exact uniqueKeysFields_iff.mp (uniqueKeysFields_sortField fields h.2) field
          (hperm.mem_iff.mp hfield)

theorem uniqueKeysItems_sortItems : ∀ items : List (Json F), UniqueKeysItems items →
    UniqueKeysItems (sortItems items)
  | [], h => by
      rw [sortItems]
      exact h
  | j :: rest, h => by
      rw [UniqueKeysItems] at h
      rw [sortItems, UniqueKeysItems]
      exact ⟨uniqueKeys_sortKeys j h.1, uniqueKeysItems_sortItems rest h.2⟩

theorem uniqueKeysFields_sortField : ∀ fields : List (String × Json F), UniqueKeysFields fields →
    UniqueKeysFields (fields.map sortField)
  | [], h => h
  | (key, j) :: rest, h => by
      rw [UniqueKeysFields, UniqueKeysField] at h
      rw [List.map_cons, UniqueKeysFields, sortField, UniqueKeysField]
      exact ⟨uniqueKeys_sortKeys j h.1, uniqueKeysFields_sortField rest h.2⟩

end

end Kit.Json
