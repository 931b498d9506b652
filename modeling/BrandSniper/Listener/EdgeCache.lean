import Mathlib.Data.String.Basic
import BrandSniper.Kit.SortedSet
import BrandSniper.Listener.ZScore

/-!
# The edge cache

What the decision path asks of the edge Redis: one sorted set per price
window, and two hashes per resale venue, the baselines and the sticker
prices. Live this is Redis (`EdgeRedis`), in a replay the in-memory store of
`BrandSniper.Backtest.Store`, so the functions of the decision path are
written over the class `EdgeCache`.

`LawfulEdgeCache` says what the two have in common: the sorted set behind
every window, and that no window command touches another window or a hash.
-/

namespace BrandSniper

open Kit

/-! ## Hash values -/

/-- A field of a JSON object: absent, `null`, or a value. -/
inductive BaselineField (α : Type) where
  | missing
  | null
  | value (a : α)
  deriving DecidableEq

namespace BaselineField

variable {α : Type}

/-- `baseline.get(field)` -/
def get : BaselineField α → Option α
  | value a => some a
  | _ => none

/-- `baseline.get(field, default)`: a `null` stays `None`. -/
def getD (field : BaselineField α) (default : α) : Option α :=
  match field with
  | missing => some default
  | null => none
  | value a => some a

end BaselineField

/-- The `seller_fee_bps` of a baseline, as `isinstance` tells its values apart. -/
inductive FeeValue where
  | int (n : Int)
  | bool (b : Bool)
  | other
  deriving DecidableEq

/-- One item's baseline, as `json.loads` reads it from the hash. -/
structure Baseline where
  supportFloorCents : BaselineField Int
  latestPriceCents : BaselineField Int
  rolling30dAvgCents : BaselineField Int
  volatilityCents : BaselineField Int
  coefficientOfVariation : BaselineField ℚ
  sellerFeeBps : BaselineField FeeValue
  deriving DecidableEq

/-- The empty dict. -/
def Baseline.empty : Baseline := ⟨.missing, .missing, .missing, .missing, .missing, .missing⟩

def edgeBaselinesKey (venue : String) : String := "baselines:" ++ venue

def edgeStickerPricesKey (venue : String) : String := "sticker_prices:" ++ venue

/-! ## The commands -/

class EdgeCache (C : Type) where
  zadd : C → String → String → Int → C
  zcard : C → String → Nat
  zrange : C → String → Int → Int → List String
  zremrangebyrank : C → String → Int → Int → C
  /-- `hget` on a baseline hash. -/
  hgetBaseline : C → String → String → Option Baseline
  /-- `hget` on a sticker price hash: the price `int` reads, or `some none` for a text it refuses. -/
  hgetSticker : C → String → String → Option (Option Int)

/-- The hashes of two caches answer alike. -/
def SameHashes {C D : Type} [EdgeCache C] [EdgeCache D] (c : C) (d : D) : Prop :=
  (∀ key name, EdgeCache.hgetBaseline c key name = EdgeCache.hgetBaseline d key name) ∧
    ∀ key name, EdgeCache.hgetSticker c key name = EdgeCache.hgetSticker d key name

class LawfulEdgeCache (C : Type) [EdgeCache C] where
  /-- The sorted set behind a window key. -/
  window : C → String → SortedSet Int String
  zcard_eq : ∀ (c : C) key, EdgeCache.zcard c key = (window c key).zcard
  zrange_eq : ∀ (c : C) key start stop,
    EdgeCache.zrange c key start stop = (window c key).zrange start stop
  window_zadd : ∀ (c : C) key member score key',
    window (EdgeCache.zadd c key member score) key'
      = if key = key' then (window c key).zadd member score else window c key'
  window_zremrangebyrank : ∀ (c : C) key start stop key',
    window (EdgeCache.zremrangebyrank c key start stop) key'
      = if key = key' then (window c key).zremrangebyrank start stop else window c key'
  hashes_zadd : ∀ (c : C) key member score, SameHashes (EdgeCache.zadd c key member score) c
  hashes_zremrangebyrank : ∀ (c : C) key start stop,
    SameHashes (EdgeCache.zremrangebyrank c key start stop) c

theorem SameHashes.refl {C : Type} [EdgeCache C] (c : C) : SameHashes c c :=
  ⟨fun _ _ => rfl, fun _ _ => rfl⟩

theorem SameHashes.symm {C D : Type} [EdgeCache C] [EdgeCache D] {c : C} {d : D}
    (h : SameHashes c d) : SameHashes d c :=
  ⟨fun key name => (h.1 key name).symm, fun key name => (h.2 key name).symm⟩

theorem SameHashes.trans {C D E : Type} [EdgeCache C] [EdgeCache D] [EdgeCache E] {c : C} {d : D}
    {e : E} (h : SameHashes c d) (h' : SameHashes d e) : SameHashes c e :=
  ⟨fun key name => (h.1 key name).trans (h'.1 key name),
    fun key name => (h.2 key name).trans (h'.2 key name)⟩

/-! ## Hashes -/

/-- The hashes of a cache: per key, a dictionary from field to value. -/
structure EdgeHashes where
  baselines : OrderedDict String (OrderedDict String Baseline)
  stickers : OrderedDict String (OrderedDict String (Option Int))

def EdgeHashes.empty : EdgeHashes := ⟨.empty, .empty⟩

def EdgeHashes.hgetBaseline (h : EdgeHashes) (key name : String) : Option Baseline :=
  (h.baselines.get? key).bind fun fields => fields.get? name

def EdgeHashes.hgetSticker (h : EdgeHashes) (key name : String) : Option (Option Int) :=
  (h.stickers.get? key).bind fun fields => fields.get? name

/-! ## Redis -/

/-- The edge Redis: a key exists while its sorted set has a member. -/
structure EdgeRedis where
  sortedSets : OrderedDict String (SortedSet Int String)
  hashes : EdgeHashes

namespace EdgeRedis

def empty : EdgeRedis := ⟨.empty, .empty⟩

def sortedSet (r : EdgeRedis) (key : String) : SortedSet Int String :=
  (r.sortedSets.get? key).getD .empty

/-- Store the set, or delete the key of an empty one. -/
def store (r : EdgeRedis) (key : String) (s : SortedSet Int String) : EdgeRedis :=
  { r with sortedSets := if s.zcard = 0 then r.sortedSets.erase key else r.sortedSets.set key s }

instance : EdgeCache EdgeRedis where
  zadd r key member score := r.store key ((r.sortedSet key).zadd member score)
  zcard r key := (r.sortedSet key).zcard
  zrange r key start stop := (r.sortedSet key).zrange start stop
  zremrangebyrank r key start stop := r.store key ((r.sortedSet key).zremrangebyrank start stop)
  hgetBaseline r := r.hashes.hgetBaseline
  hgetSticker r := r.hashes.hgetSticker

theorem sortedSet_store (r : EdgeRedis) (key : String) (s : SortedSet Int String)
    (key' : String) :
    (r.store key s).sortedSet key' = if key = key' then s else r.sortedSet key' := by
  by_cases hs : s.zcard = 0
  · have hempty : s = .empty := by
      apply SortedSet.ext
      exact List.length_eq_zero_iff.mp hs
    by_cases hk : key = key' <;>
      simp [store, sortedSet, OrderedDict.get?_erase, hk, hempty]
  · by_cases hk : key = key' <;> simp [store, sortedSet, hs, OrderedDict.get?_set, hk]

instance : LawfulEdgeCache EdgeRedis where
  window := sortedSet
  zcard_eq _ _ := rfl
  zrange_eq _ _ _ _ := rfl
  window_zadd r key _ _ key' := sortedSet_store r key _ key'
  window_zremrangebyrank r key _ _ key' := sortedSet_store r key _ key'
  hashes_zadd _ _ _ _ := ⟨fun _ _ => rfl, fun _ _ => rfl⟩
  hashes_zremrangebyrank _ _ _ _ := ⟨fun _ _ => rfl, fun _ _ => rfl⟩

end EdgeRedis

end BrandSniper
