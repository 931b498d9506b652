import BrandSniper.Listener.PriceWindow

/-!
# The tick consumer

`tick_consumer` of `apps/listener/main.py`, one item of the queue at a time:
how an item is routed, and what that does to the dedup cache and the edge
cache. An exception while an item is handled is caught, so the state is the
one the raising call left behind.

The section on snapshots answers what `snapshot_price_cents` is worth. Every
branch keeps it current but one: a REST snapshot dropped as a duplicate
within the dedup window leaves the entry alone, which is right only when the
entry already holds its price (`snapshotLaws_iff`).
-/

namespace BrandSniper

open Kit

/-! ## One item -/

/-- The consumer's caches. -/
structure Consumer (C : Type) where
  dedup : DedupCache
  cache : C

/-- What the consumer did with an item. -/
inductive Route where
  /-- A raw feed event, recorded. -/
  | feedEvent
  /-- A tick that is no live offer, recorded. -/
  | outcome
  | duplicate
  /-- An unchanged snapshot, and whether it entered the window. -/
  | unchanged (windowed : Except PyError Bool)
  /-- Handed to `update_window_and_detect`. -/
  | detected (result : Except PyError (Option AnomalyJob))
  /-- A tick whose `price_cents` raises. -/
  | unpriced

def Route.isDetected : Route → Bool
  | detected _ => true
  | _ => false

def Route.isDuplicate : Route → Bool
  | duplicate => true
  | _ => false

section

variable {C : Type} [EdgeCache C]

/-- A tick that is an offer and no duplicate. -/
def consumeOffer (F : FloatArith) (S : DetectionSettings) (faults : Faults) (st : Consumer C)
    (tick : PricedTick) : Consumer C × Route :=
  if isUnchangedSnapshot tick st.dedup then
    match unchangedSnapshotEntersPriceWindow S faults tick st.dedup st.cache with
    | .error e => (st, .unchanged (.error e))
    | .ok entersWindow =>
        let dedup := updateDedupCache S tick st.dedup entersWindow
        if entersWindow then
          let pushed := pushToWindow S faults tick st.cache
          (⟨dedup, pushed.1⟩, .unchanged (pushed.2.map fun _ => true))
        else (⟨dedup, st.cache⟩, .unchanged (.ok false))
  else
    let detected := updateWindowAndDetect F S faults tick st.cache
    (⟨updateDedupCache S tick st.dedup true, detected.1⟩, .detected detected.2)

/-- One turn of the consumer loop. -/
def consumeItem (F : FloatArith) (S : DetectionSettings) (faults : Faults) (st : Consumer C)
    (item : StreamItem) : Consumer C × Route :=
  match item with
  | .feedEvent _ => (st, .feedEvent)
  | .tick tick =>
      if ¬ tick.feedsPriceWindow then (st, .outcome)
      else if isDuplicate tick st.dedup then (st, .duplicate)
      else consumeOffer F S faults st tick
  -- its record and its dedup entry are made of the price, before anything changes
  | .unpriced _ => (st, .unpriced)

/-- The consumer after a run of items, each with the Redis commands that raise on it. -/
def consume (F : FloatArith) (S : DetectionSettings) (st : Consumer C)
    (run : List (Faults × StreamItem)) : Consumer C :=
  run.foldl (fun st step => (consumeItem F S step.1 st step.2).1) st

/-- The consumer at its start, over what the edge cache holds then. -/
def Consumer.start (cache : C) : Consumer C := ⟨.empty, cache⟩

theorem consume_concat (F : FloatArith) (S : DetectionSettings) (st : Consumer C)
    (run : List (Faults × StreamItem)) (faults : Faults) (item : StreamItem) :
    consume F S st (run ++ [(faults, item)])
      = (consumeItem F S faults (consume F S st run) item).1 := by
  simp [consume]

end

/-! ## The dedup entry of an item -/

/-- What the cache remembers about an item. -/
def DedupCache.entry (d : DedupCache) (venue marketHashName : String) : Option DedupEntry :=
  (d.entries venue).get? marketHashName

theorem DedupCache.get_eq_entry (d : DedupCache) (tick : PricedTick) :
    d.get tick = d.entry tick.venue tick.marketHashName := rfl

/-- Storing the tick's item leaves its venue's cache within its size, so nothing is evicted. -/
def fits (S : DetectionSettings) (d : DedupCache) (tick : PricedTick) : Bool :=
  let entries := d.entries tick.venue
  let size := if entries.contains tick.marketHashName then entries.len else entries.len + 1
  decide (size ≤ S.dedupCacheMaxSize)

/-- The tick is one of the item. -/
def MarketTick.isOf (tick : MarketTick) (venue marketHashName : String) : Bool :=
  tick.venue == venue && tick.marketHashName == marketHashName

theorem MarketTick.isOf_iff {tick : MarketTick} {venue marketHashName : String} :
    tick.isOf venue marketHashName = true
      ↔ tick.venue = venue ∧ tick.marketHashName = marketHashName := by
  simp [isOf]

/-- With room, storing an entry is a plain update. -/
theorem DedupCache.entry_put {S : DetectionSettings} {d : DedupCache} {tick : PricedTick}
    (hfits : fits S d tick = true) (entry : DedupEntry) (venue marketHashName : String) :
    (d.put S tick entry).entry venue marketHashName
      = if tick.isOf venue marketHashName then some entry else d.entry venue marketHashName := by
  have hlen : (((d.entries tick.venue).set tick.marketHashName entry).moveToEnd
      tick.marketHashName).len ≤ S.dedupCacheMaxSize := by
    rw [OrderedDict.len_moveToEnd, OrderedDict.len_set]
    simpa [fits] using hfits
  by_cases hvenue : tick.venue = venue
  · subst hvenue
    have hentries : (d.put S tick entry).entries tick.venue
        = ((d.entries tick.venue).set tick.marketHashName entry).moveToEnd
          tick.marketHashName := by
      rw [put, entries]
      simp only [OrderedDict.get?_set, if_true, Option.getD_some]
      exact OrderedDict.trim_of_le hlen
    rw [DedupCache.entry, hentries, OrderedDict.get?_moveToEnd, OrderedDict.get?_set]
    by_cases hname : tick.marketHashName = marketHashName <;>
      simp [MarketTick.isOf, hname, DedupCache.entry]
  · have hentries : (d.put S tick entry).entries venue = d.entries venue := by
      rw [put, entries]
      simp [OrderedDict.get?_set, hvenue, entries]
    rw [DedupCache.entry, hentries]
    simp [MarketTick.isOf, hvenue, DedupCache.entry]

theorem entry_updateDedupCache {S : DetectionSettings} {d : DedupCache} {tick : PricedTick}
    (hfits : fits S d tick = true) (entersWindow : Bool) (venue marketHashName : String) :
    (updateDedupCache S tick d entersWindow).entry venue marketHashName
      = if tick.isOf venue marketHashName then some (nextEntry tick (d.get tick) entersWindow)
        else d.entry venue marketHashName := by
  have hlisting : ∀ d : DedupCache, (d.putListingPrice S tick).entry venue marketHashName
      = d.entry venue marketHashName := by
    intro d
    unfold DedupCache.putListingPrice
    split <;> rfl
  rw [updateDedupCache, hlisting, DedupCache.entry_put hfits]

/-! ## What `snapshot_price_cents` is worth -/

/-- `price_cents` of a tick that is a REST snapshot of the item. -/
def snapshotPrice? (venue marketHashName : String) (item : StreamItem) : Option (Option Nat) :=
  item.marketTick?.bind fun tick =>
    if tick.isRestSnapshot && tick.isOf venue marketHashName then some tick.priceCents? else none

/-- `price_cents` of the item's most recent REST snapshot. -/
def lastSnapshotPrice (venue marketHashName : String) (run : List (Faults × StreamItem)) :
    Option (Option Nat) :=
  (run.filterMap fun step => snapshotPrice? venue marketHashName step.2).getLast?

theorem lastSnapshotPrice_concat (venue marketHashName : String)
    (run : List (Faults × StreamItem)) (faults : Faults) (item : StreamItem) :
    lastSnapshotPrice venue marketHashName (run ++ [(faults, item)])
      = (snapshotPrice? venue marketHashName item).or
          (lastSnapshotPrice venue marketHashName run) := by
  unfold lastSnapshotPrice
  cases h : snapshotPrice? venue marketHashName item <;> simp [h]

/-- What the cache holds as the price of the item's last REST snapshot. -/
def DedupCache.snapshotPrice (d : DedupCache) (venue marketHashName : String) : Option Nat :=
  (d.entry venue marketHashName).bind (·.snapshotPriceCents)

/-- Every entry holds the price of its item's most recent REST snapshot. A snapshot whose
`price_cents` raises has none to hold. -/
def SnapshotPricesCurrent (d : DedupCache) (run : List (Faults × StreamItem)) : Prop :=
  ∀ venue marketHashName,
    (d.snapshotPrice venue marketHashName).map some = lastSnapshotPrice venue marketHashName run

theorem snapshotPrice?_tick (venue marketHashName : String) (tick : PricedTick) :
    snapshotPrice? venue marketHashName (.tick tick)
      = if tick.isRestSnapshot && tick.isOf venue marketHashName then
          some (some tick.priceCents)
        else none := by
  rw [← tick.priced]
  rfl

/-- A tick that is stored makes its item's snapshot price current. -/
theorem snapshotPrice_update {S : DetectionSettings} {d : DedupCache} {tick : PricedTick}
    (hfits : fits S d tick = true) (entersWindow : Bool) (venue marketHashName : String) :
    ((updateDedupCache S tick d entersWindow).snapshotPrice venue marketHashName).map some
      = (snapshotPrice? venue marketHashName (.tick tick)).or
          ((d.snapshotPrice venue marketHashName).map some) := by
  rw [DedupCache.snapshotPrice, entry_updateDedupCache hfits, snapshotPrice?_tick]
  by_cases hof : tick.isOf venue marketHashName = true
  · obtain ⟨rfl, rfl⟩ := MarketTick.isOf_iff.mp hof
    by_cases hrest : tick.isRestSnapshot = true <;>
      simp [nextEntry, hrest, DedupCache.snapshotPrice, DedupCache.get_eq_entry, MarketTick.isOf]
  · simp [hof, DedupCache.snapshotPrice]

section

variable {C : Type} [EdgeCache C]

/-- What an offer does to the dedup cache: the tick is stored, unless it is an unchanged
snapshot whose window size could not be read. -/
theorem consumeOffer_dedup (F : FloatArith) (S : DetectionSettings) (faults : Faults)
    (st : Consumer C) (tick : PricedTick) :
    (∃ entersWindow, (consumeOffer F S faults st tick).1.dedup
        = updateDedupCache S tick st.dedup entersWindow) ∨
      (isUnchangedSnapshot tick st.dedup = true ∧
        (consumeOffer F S faults st tick).1.dedup = st.dedup) := by
  unfold consumeOffer
  by_cases hunchanged : isUnchangedSnapshot tick st.dedup = true
  · simp only [if_pos hunchanged]
    cases unchangedSnapshotEntersPriceWindow S faults tick st.dedup st.cache with
    | error e => exact .inr ⟨hunchanged, rfl⟩
    | ok entersWindow =>
        refine .inl ⟨entersWindow, ?_⟩
        cases entersWindow <;> rfl
  · simp only [if_neg hunchanged]
    exact .inl ⟨true, rfl⟩

/-- An unchanged snapshot is one at the price the cache holds. -/
theorem isUnchangedSnapshot_iff (tick : PricedTick) (d : DedupCache) :
    isUnchangedSnapshot tick d = true ↔ tick.isRestSnapshot = true ∧
      d.snapshotPrice tick.venue tick.marketHashName = some tick.priceCents := by
  rw [isUnchangedSnapshot, DedupCache.snapshotPrice, DedupCache.get_eq_entry]
  cases d.entry tick.venue tick.marketHashName with
  | none => simp
  | some entry =>
      simp only [Option.bind_some, Bool.and_eq_true, beq_iff_eq]
      exact and_congr_right' eq_comm

/-- An offer that is no duplicate is scored unless it is an unchanged snapshot. -/
theorem consumeOffer_isDetected (F : FloatArith) (S : DetectionSettings) (faults : Faults)
    (st : Consumer C) (tick : PricedTick) :
    (consumeOffer F S faults st tick).2.isDetected = !isUnchangedSnapshot tick st.dedup := by
  unfold consumeOffer
  by_cases hunchanged : isUnchangedSnapshot tick st.dedup = true
  · simp only [if_pos hunchanged]
    cases unchangedSnapshotEntersPriceWindow S faults tick st.dedup st.cache with
    | error e => simp [Route.isDetected, hunchanged]
    | ok entersWindow => cases entersWindow <;> simp [Route.isDetected, hunchanged]
  · simp [Route.isDetected, hunchanged]

/-- An item keeps the snapshot prices current, unless it is a REST snapshot dropped as a
duplicate at another price than the entry holds, or one whose `price_cents` raises. -/
theorem snapshotPricesCurrent_step {F : FloatArith} {S : DetectionSettings} {faults : Faults}
    {st : Consumer C} {run : List (Faults × StreamItem)} {item : StreamItem}
    (h : SnapshotPricesCurrent st.dedup run)
    (hfits : ∀ tick, item = .tick tick → tick.feedsPriceWindow = true →
      fits S st.dedup tick = true)
    (hdrop : ∀ tick, item = .tick tick → tick.isRestSnapshot = true →
      isDuplicate tick st.dedup = true →
      st.dedup.snapshotPrice tick.venue tick.marketHashName = some tick.priceCents)
    (hpriced : ∀ tick, item = .unpriced tick → tick.isRestSnapshot = false) :
    SnapshotPricesCurrent (consumeItem F S faults st item).1.dedup (run ++ [(faults, item)]) := by
  -- where the cache stays, the item must not be news
  have hstay : ∀ d : DedupCache, d = st.dedup →
      (∀ tick, item = .tick tick → tick.isRestSnapshot = true →
        st.dedup.snapshotPrice tick.venue tick.marketHashName = some tick.priceCents) →
      SnapshotPricesCurrent d (run ++ [(faults, item)]) := by
    rintro d rfl hknown venue marketHashName
    rw [lastSnapshotPrice_concat, ← h venue marketHashName]
    cases item with
    | feedEvent event => rfl
    | unpriced tick =>
        have hnone : snapshotPrice? venue marketHashName (.unpriced tick) = none := by
          simp [snapshotPrice?, StreamItem.marketTick?, hpriced tick rfl]
        rw [hnone]
        rfl
    | tick tick =>
        rw [snapshotPrice?_tick]
        split
        · rename_i hsnap
          rw [Bool.and_eq_true] at hsnap
          obtain ⟨rfl, rfl⟩ := MarketTick.isOf_iff.mp hsnap.2
          rw [hknown tick rfl hsnap.1]
          rfl
        · rfl
  cases item with
  | feedEvent event => exact hstay _ rfl (fun tick htick => by cases htick)
  | unpriced tick => exact hstay _ rfl (fun tick htick => by cases htick)
  | tick tick =>
      by_cases hfeeds : tick.feedsPriceWindow = true
      · by_cases hdup : isDuplicate tick st.dedup = true
        · refine hstay _ (by simp [consumeItem, hfeeds, hdup]) ?_
          rintro _ ⟨⟩ hrest
          exact hdrop tick rfl hrest hdup
        · have hitem : consumeItem F S faults st (.tick tick)
              = consumeOffer F S faults st tick := by
            simp [consumeItem, hfeeds, hdup]
          rw [hitem]
          rcases consumeOffer_dedup F S faults st tick with ⟨entersWindow, hdedup⟩ | ⟨hun, hdedup⟩
          · intro venue marketHashName
            rw [hdedup, snapshotPrice_update (hfits tick rfl hfeeds), lastSnapshotPrice_concat,
              h venue marketHashName]
          · refine hstay _ hdedup ?_
            rintro _ ⟨⟩ -
            exact ((isUnchangedSnapshot_iff tick _).mp hun).2
      · refine hstay _ (by simp [consumeItem, hfeeds]) ?_
        rintro _ ⟨⟩ hrest
        have hkind : tick.kind = .restSnapshot := by simpa [MarketTick.isRestSnapshot] using hrest
        exact absurd (by simp [MarketTick.feedsPriceWindow, hkind]) hfeeds

/-- No offer of the run evicts an item from its venue's cache. -/
def NoEviction (F : FloatArith) (S : DetectionSettings) (st : Consumer C)
    (run : List (Faults × StreamItem)) : Prop :=
  ∀ before faults tick, before ++ [(faults, .tick tick)] <+: run →
    tick.feedsPriceWindow = true → fits S (consume F S st before).dedup tick = true

/-- A REST snapshot that the duplicate rule does not drop is scored exactly when its price differs
from the item's previous REST snapshot, or there is none. -/
def SnapshotsScoredOnChange (F : FloatArith) (S : DetectionSettings) (st : Consumer C)
    (run : List (Faults × StreamItem)) : Prop :=
  ∀ before faults item tick, before ++ [(faults, item)] <+: run →
    item.marketTick? = some tick → tick.isRestSnapshot = true →
    (consumeItem F S faults (consume F S st before) item).2.isDuplicate = false →
    ((consumeItem F S faults (consume F S st before) item).2.isDetected = true
      ↔ lastSnapshotPrice tick.venue tick.marketHashName before ≠ some tick.priceCents?)

/-- No REST snapshot has a price that `price_cents` raises for. -/
def PricedSnapshots (run : List (Faults × StreamItem)) : Prop :=
  ∀ step ∈ run, ∀ tick, step.2 = .unpriced tick → tick.isRestSnapshot = false

/-- Every REST snapshot the duplicate rule drops has the price its item's entry holds as the
last snapshot's. -/
def DropsOnlyKnownSnapshots (F : FloatArith) (S : DetectionSettings) (st : Consumer C)
    (run : List (Faults × StreamItem)) : Prop :=
  ∀ before faults tick, before ++ [(faults, .tick tick)] <+: run →
    tick.isRestSnapshot = true → isDuplicate tick (consume F S st before).dedup = true →
    (consume F S st before).dedup.snapshotPrice tick.venue tick.marketHashName
      = some tick.priceCents

theorem snapshotPricesCurrent_consume {F : FloatArith} {S : DetectionSettings} {cache : C}
    {run : List (Faults × StreamItem)} (hfit : NoEviction F S (.start cache) run)
    (hdrop : DropsOnlyKnownSnapshots F S (.start cache) run) (hpriced : PricedSnapshots run) :
    SnapshotPricesCurrent (consume F S (.start cache) run).dedup run := by
  induction run using List.reverseRecOn with
  | nil => exact fun _ _ => rfl
  | append_singleton before step ih =>
      obtain ⟨faults, item⟩ := step
      have hprefix := List.prefix_append before [(faults, item)]
      rw [consume_concat]
      refine snapshotPricesCurrent_step (ih ?_ ?_ ?_) ?_ ?_ ?_
      · exact fun b f t hb => hfit b f t (hb.trans hprefix)
      · exact fun b f t hb => hdrop b f t (hb.trans hprefix)
      · exact fun step hstep => hpriced step (List.mem_append_left _ hstep)
      · rintro tick rfl
        exact hfit before faults tick (List.prefix_refl _)
      · rintro tick rfl
        exact hdrop before faults tick (List.prefix_refl _)
      · rintro tick rfl
        exact hpriced _ (List.mem_append_right _ List.mem_cons_self) tick rfl

/-- Snapshots that are no duplicates are scored on a change, as far as the cache is current. -/
theorem isDetected_iff {F : FloatArith} {S : DetectionSettings} {faults : Faults}
    {st : Consumer C} {run : List (Faults × StreamItem)} {tick : PricedTick}
    (h : SnapshotPricesCurrent st.dedup run) (hrest : tick.isRestSnapshot = true)
    (hdup : (consumeItem F S faults st (.tick tick)).2.isDuplicate = false) :
    (consumeItem F S faults st (.tick tick)).2.isDetected = true
      ↔ lastSnapshotPrice tick.venue tick.marketHashName run ≠ some tick.priceCents? := by
  have hfeeds : tick.feedsPriceWindow = true := by
    have hkind : tick.kind = .restSnapshot := by simpa [MarketTick.isRestSnapshot] using hrest
    simp [MarketTick.feedsPriceWindow, hkind]
  have hdup : isDuplicate tick st.dedup = false := by
    cases hresult : isDuplicate tick st.dedup with
    | false => rfl
    | true => simp [consumeItem, hfeeds, hresult, Route.isDuplicate] at hdup
  have hitem : consumeItem F S faults st (.tick tick) = consumeOffer F S faults st tick := by
    simp [consumeItem, hfeeds, hdup]
  rw [hitem, consumeOffer_isDetected, ← h, Bool.not_eq_true', ← Bool.not_eq_true,
    isUnchangedSnapshot_iff, tick.priced]
  simp [hrest]

/-- In a run without eviction the entries hold the price of the most recent REST snapshots
after every item, and snapshots are scored on a change, exactly when the duplicate rule drops
only snapshots at the price their entry holds, and every snapshot has a price in cents. -/
theorem snapshotLaws_iff (F : FloatArith) (S : DetectionSettings) (cache : C)
    (run : List (Faults × StreamItem)) (hfit : NoEviction F S (.start cache) run) :
    ((∀ before, before <+: run →
        SnapshotPricesCurrent (consume F S (.start cache) before).dedup before) ∧
      SnapshotsScoredOnChange F S (.start cache) run)
      ↔ DropsOnlyKnownSnapshots F S (.start cache) run ∧ PricedSnapshots run := by
  constructor
  · rintro ⟨hcurrent, -⟩
    constructor
    · intro before faults tick hprefix hrest hdup
      have hafter := hcurrent _ hprefix tick.venue tick.marketHashName
      have hstay : (consume F S (.start cache) (before ++ [(faults, .tick tick)])).dedup
          = (consume F S (.start cache) before).dedup := by
        by_cases hfeeds : tick.feedsPriceWindow = true <;>
          simp [consume_concat, consumeItem, hfeeds, hdup]
      rw [hstay, lastSnapshotPrice_concat, snapshotPrice?_tick] at hafter
      simpa [hrest, MarketTick.isOf] using hafter
    · rintro ⟨faults, item⟩ hstep tick rfl
      obtain ⟨before, after, rfl⟩ := List.append_of_mem hstep
      cases hrest : tick.isRestSnapshot with
      | false => rfl
      | true =>
          have hprefix : before ++ [(faults, .unpriced tick)]
              <+: before ++ (faults, .unpriced tick) :: after := ⟨after, by simp⟩
          have hafter := hcurrent _ hprefix tick.venue tick.marketHashName
          rw [lastSnapshotPrice_concat] at hafter
          -- no entry holds a price that does not exist
          simp [snapshotPrice?, StreamItem.marketTick?, hrest, MarketTick.isOf,
            tick.unpriced] at hafter
  · rintro ⟨hdrop, hpriced⟩
    have hcurrent : ∀ before, before <+: run →
        SnapshotPricesCurrent (consume F S (.start cache) before).dedup before := by
      intro before hwithin
      refine snapshotPricesCurrent_consume ?_ ?_ ?_
      · exact fun b f t hb => hfit b f t (hb.trans hwithin)
      · exact fun b f t hb => hdrop b f t (hb.trans hwithin)
      · exact fun step hstep => hpriced step (hwithin.subset hstep)
    refine ⟨hcurrent, fun before faults item tick hwithin htick hrest hdup => ?_⟩
    have hbefore := hcurrent before ((List.prefix_append _ _).trans hwithin)
    cases item with
    | feedEvent event => cases htick
    | tick t =>
        cases htick
        exact isDetected_iff hbefore hrest hdup
    | unpriced t =>
        cases htick
        have hnot := hpriced _ (hwithin.subset (List.mem_append_right _ List.mem_cons_self)) t rfl
        rw [hrest] at hnot
        cases hnot

end

/-! ### A listing between two snapshots -/

/-- A snapshot at 10 dollars, a listing at 9, and a snapshot at 9 within the dedup window. -/
def listingBetweenSnapshots : List (Faults × StreamItem) :=
  [(.none, .tick (.snapshot "skinport" "AK-47" 1000 0 isVenueName_skinport)),
    (.none, .tick (.listing "skinport" "AK-47" 900 10 "a" isVenueName_skinport)),
    (.none, .tick (.snapshot "skinport" "AK-47" 900 100 isVenueName_skinport))]

theorem noEviction_listingBetweenSnapshots :
    NoEviction .exact .default (.start EdgeRedis.empty) listingBetweenSnapshots := by
  rintro before faults tick ⟨rest, hrest⟩ -
  rcases before with _ | ⟨x, _ | ⟨y, _ | ⟨z, before⟩⟩⟩
  all_goals
    simp only [listingBetweenSnapshots, List.nil_append, List.cons_append, List.cons.injEq,
      Prod.mk.injEq, StreamItem.tick.injEq] at hrest
  · obtain ⟨⟨-, rfl⟩, -⟩ := hrest
    decide
  · obtain ⟨rfl, ⟨-, rfl⟩, -⟩ := hrest
    decide
  · obtain ⟨rfl, rfl, ⟨-, rfl⟩, -⟩ := hrest
    decide
  · simp at hrest

theorem snapshotLaws_iff_listingBetweenSnapshots :
    ((∀ before, before <+: listingBetweenSnapshots →
        SnapshotPricesCurrent (consume .exact .default (.start EdgeRedis.empty) before).dedup
          before) ∧
      SnapshotsScoredOnChange .exact .default (.start EdgeRedis.empty) listingBetweenSnapshots)
      ↔ DropsOnlyKnownSnapshots .exact .default (.start EdgeRedis.empty) listingBetweenSnapshots ∧
        PricedSnapshots listingBetweenSnapshots :=
  snapshotLaws_iff .exact .default EdgeRedis.empty listingBetweenSnapshots
    noEviction_listingBetweenSnapshots

/-- Nothing is evicted, the last snapshot is dropped, and its entry still says 10 dollars. -/
theorem not_snapshotPricesCurrent_listingBetweenSnapshots :
    NoEviction .exact .default (.start EdgeRedis.empty) listingBetweenSnapshots ∧
      ¬ SnapshotPricesCurrent
        (consume .exact .default (.start EdgeRedis.empty) listingBetweenSnapshots).dedup
        listingBetweenSnapshots := by
  refine ⟨noEviction_listingBetweenSnapshots, fun h => ?_⟩
  exact absurd (h "skinport" "AK-47") (by decide)

end BrandSniper
