import Mathlib.Logic.Function.Basic
import BrandSniper.Kit.OrderedDict

/-!
# Keyed hashes

A store of hashes under text keys, with the commands of Redis on them. A hash
maps fields to values. A key without a hash reads as a hash without fields.

`run_of_not_touched` is the frame rule: a command leaves every key alone that
it does not name.
-/

namespace Kit

variable {β : Type}

/-- The fields of a hash. -/
abbrev Fields (β : Type) := String → Option β

/-- The hashes by their keys. -/
abbrev HashStore (β : Type) := String → Option (Fields β)

inductive HashCommand (β : Type)
  | del (key : String)
  | hset (key : String) (mapping : OrderedDict String β)
  | rename (key newkey : String)

namespace HashStore

/-- `HGETALL` -/
def hgetall (r : HashStore β) (key : String) : Fields β := (r key).getD fun _ => none

/-- The fields of the mapping, over those the hash had. -/
def merge (mapping : OrderedDict String β) (old : Fields β) : Fields β :=
  fun field => (mapping.get? field).or (old field)

/-- One command. `none` is the error of a `RENAME` of a key without a hash. -/
def run (r : HashStore β) : HashCommand β → Option (HashStore β)
  | .del key => some (Function.update r key none)
  | .hset key mapping => some (Function.update r key (some (merge mapping (r.hgetall key))))
  | .rename key newkey =>
      (r key).map fun hash => Function.update (Function.update r key none) newkey (some hash)

end HashStore

/-- The keys that a command may change. -/
def HashCommand.touches : HashCommand β → List String
  | .del key => [key]
  | .hset key _ => [key]
  | .rename key newkey => [key, newkey]

@[simp] theorem HashCommand.mem_touches_del {key k : String} :
    k ∈ (HashCommand.del key : HashCommand β).touches ↔ k = key := List.mem_singleton

@[simp] theorem HashCommand.mem_touches_hset {key k : String} {mapping : OrderedDict String β} :
    k ∈ (HashCommand.hset key mapping).touches ↔ k = key := List.mem_singleton

@[simp] theorem HashCommand.mem_touches_rename {key newkey k : String} :
    k ∈ (HashCommand.rename key newkey : HashCommand β).touches ↔ k = key ∨ k = newkey := by
  simp [touches]

namespace HashStore

variable {r r' : HashStore β} {key : String}

theorem hgetall_of_none (h : r key = none) : r.hgetall key = fun _ => none := by
  rw [hgetall, h]
  rfl

theorem hgetall_of_some {hash : Fields β} (h : r key = some hash) : r.hgetall key = hash := by
  rw [hgetall, h]
  rfl

theorem hgetall_congr (h : r' key = r key) : r'.hgetall key = r.hgetall key := by
  rw [hgetall, h, hgetall]

theorem run_of_not_touched {command : HashCommand β} (h : r.run command = some r')
    (hkey : key ∉ command.touches) : r' key = r key := by
  cases command with
  | del k =>
      obtain rfl := Option.some_inj.mp h
      rw [HashCommand.mem_touches_del] at hkey
      exact Function.update_of_ne hkey _ _
  | hset k mapping =>
      obtain rfl := Option.some_inj.mp h
      rw [HashCommand.mem_touches_hset] at hkey
      exact Function.update_of_ne hkey _ _
  | rename k newkey =>
      obtain ⟨hash, -, rfl⟩ := Option.map_eq_some_iff.mp h
      rw [HashCommand.mem_touches_rename, not_or] at hkey
      rw [Function.update_of_ne hkey.2, Function.update_of_ne hkey.1]

theorem del_self (h : r.run (.del key) = some r') : r' key = none := by
  obtain rfl := Option.some_inj.mp h
  exact Function.update_self _ _ _

theorem hset_self {mapping : OrderedDict String β} (h : r.run (.hset key mapping) = some r') :
    r' key = some (merge mapping (r.hgetall key)) := by
  obtain rfl := Option.some_inj.mp h
  exact Function.update_self _ _ _

/-- Filling a free key makes the hash of the mapping. -/
theorem hset_of_none {mapping : OrderedDict String β} (h : r.run (.hset key mapping) = some r')
    (hfree : r key = none) : r' key = some mapping.get? := by
  rw [hset_self h, hgetall_of_none hfree]
  congr 1
  funext field
  exact Option.or_none

/-- A field of the mapping is what the hash holds afterwards. -/
theorem hgetall_hset {mapping : OrderedDict String β} (h : r.run (.hset key mapping) = some r')
    {field : String} {value : β} (hfield : mapping.get? field = some value) :
    r'.hgetall key field = some value := by
  rw [hgetall_of_some (hset_self h), merge, hfield, Option.some_or]

theorem rename_self {newkey : String} {hash : Fields β} (h : r.run (.rename key newkey) = some r')
    (hkey : r key = some hash) : r' newkey = some hash := by
  rw [run, hkey, Option.map_some, Option.some_inj] at h
  rw [← h]
  exact Function.update_self _ _ _

end HashStore

end Kit
