import BrandSniper.Listener.EdgeCache

/-!
# The in-memory stand-in for the edge Redis

`apps/listener/backtest/store.py`. A sorted set is a plain dictionary from
member to score, ranked at every read; `Kit.Table.ranking` is the sorted set
it stands for, which makes the store a lawful edge cache.
-/

namespace BrandSniper

open Kit

structure InMemoryEdgeStore where
  sortedSets : OrderedDict String (Table Int String)
  hashes : EdgeHashes

namespace InMemoryEdgeStore

def empty : InMemoryEdgeStore := ⟨.empty, .empty⟩

/-- Replace the venue's baselines and sticker prices. -/
def loadBaselines (s : InMemoryEdgeStore) (baselines : OrderedDict String Baseline)
    (stickerPrices : OrderedDict String (Option Int)) (venue : String) : InMemoryEdgeStore :=
  { s with
    hashes :=
      { baselines := s.hashes.baselines.set (edgeBaselinesKey venue) baselines
        stickers := s.hashes.stickers.set (edgeStickerPricesKey venue) stickerPrices } }

/-- `self._sorted_sets.get(key, {})` -/
def sortedSet (s : InMemoryEdgeStore) (key : String) : Table Int String :=
  (s.sortedSets.get? key).getD .empty

def zadd (s : InMemoryEdgeStore) (key member : String) (score : Int) : InMemoryEdgeStore :=
  { s with sortedSets := s.sortedSets.set key ((s.sortedSet key).zadd member score) }

/-- Delete the members of the ranks, and the key with its last member. -/
def zremrangebyrank (s : InMemoryEdgeStore) (key : String) (start stop : Int) :
    InMemoryEdgeStore :=
  let members := (s.sortedSet key).zremrangebyrank start stop
  { s with
    sortedSets :=
      if members.zcard = 0 then s.sortedSets.erase key else s.sortedSets.set key members }

instance : EdgeCache InMemoryEdgeStore where
  zadd := zadd
  zcard s key := (s.sortedSet key).zcard
  zrange s key start stop := (s.sortedSet key).zrange start stop
  zremrangebyrank := zremrangebyrank
  hgetBaseline s := s.hashes.hgetBaseline
  hgetSticker s := s.hashes.hgetSticker

theorem sortedSet_zadd (s : InMemoryEdgeStore) (key member : String) (score : Int)
    (key' : String) : (s.zadd key member score).sortedSet key'
      = if key = key' then (s.sortedSet key).zadd member score else s.sortedSet key' := by
  by_cases hk : key = key' <;> simp [zadd, sortedSet, OrderedDict.get?_set, hk]

theorem sortedSet_zremrangebyrank (s : InMemoryEdgeStore) (key : String) (start stop : Int)
    (key' : String) : (s.zremrangebyrank key start stop).sortedSet key'
      = if key = key' then (s.sortedSet key).zremrangebyrank start stop
        else s.sortedSet key' := by
  by_cases hzero : ((s.sortedSet key).zremrangebyrank start stop).zcard = 0
  · have hsets : (s.zremrangebyrank key start stop).sortedSets = s.sortedSets.erase key := by
      simp only [zremrangebyrank, if_pos hzero]
    have hmembers : (s.sortedSet key).zremrangebyrank start stop = .empty :=
      OrderedDict.ext (List.length_eq_zero_iff.mp hzero)
    rw [hmembers, sortedSet, hsets, OrderedDict.get?_erase]
    by_cases hk : key = key' <;> simp [sortedSet, hk]
  · have hsets : (s.zremrangebyrank key start stop).sortedSets
        = s.sortedSets.set key ((s.sortedSet key).zremrangebyrank start stop) := by
      simp only [zremrangebyrank, if_neg hzero]
    rw [sortedSet, hsets, OrderedDict.get?_set]
    by_cases hk : key = key' <;> simp [sortedSet, hk]

theorem ranking_empty : Table.ranking (OrderedDict.empty : Table Int String) = .empty := rfl

instance : LawfulEdgeCache InMemoryEdgeStore where
  window s key := (s.sortedSet key).ranking
  zcard_eq s key := (Table.zcard_ranking _).symm
  zrange_eq s key start stop := (Table.zrange_ranking _ start stop).symm
  window_zadd s key member score key' := by
    rw [show EdgeCache.zadd s key member score = s.zadd key member score from rfl,
      sortedSet_zadd]
    split
    · exact Table.ranking_zadd _ _ _
    · rfl
  window_zremrangebyrank s key start stop key' := by
    rw [show EdgeCache.zremrangebyrank s key start stop = s.zremrangebyrank key start stop
      from rfl, sortedSet_zremrangebyrank]
    split
    · exact Table.ranking_zremrangebyrank _ _ _
    · rfl
  hashes_zadd _ _ _ _ := ⟨fun _ _ => rfl, fun _ _ => rfl⟩
  hashes_zremrangebyrank _ _ _ _ := ⟨fun _ _ => rfl, fun _ _ => rfl⟩

end InMemoryEdgeStore

end BrandSniper
