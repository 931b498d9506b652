import BrandSniper.Listener.Consumer

/-!
# Listings seen again

The listing side of the tick consumer's dedup rules. The cache of listing prices
holds, for every venue and listing, the price of its last live sighting: the
branches that keep the cache drop a sighting at the price it holds, and no REST
snapshot names a listing. So a live listing is scored exactly on its first
sighting and on a change of its price, as long as every sighting has a price in
cents (`listingsScoredOnChange_iff`): one whose `price_cents` raises is neither
scored nor remembered.
-/

namespace BrandSniper

open Kit

/-! ## Sightings -/

/-- The tick is a live sighting of the listing. -/
def MarketTick.isSightingOf (tick : MarketTick) (venue listingId : String) : Bool :=
  tick.kind == .listed && tick.venue == venue && tick.listingId == some listingId

theorem MarketTick.isSightingOf_iff {tick : MarketTick} {venue listingId : String} :
    tick.isSightingOf venue listingId = true
      ↔ tick.kind = .listed ∧ tick.venue = venue ∧ tick.listingId = some listingId := by
  simp [isSightingOf, and_assoc]

/-- `price_cents` of an item that is a live sighting of the listing. -/
def sightingPrice? (venue listingId : String) (item : StreamItem) : Option (Option Nat) :=
  item.marketTick?.bind fun tick =>
    if tick.isSightingOf venue listingId then some tick.priceCents? else none

/-- `price_cents` of the listing's last live sighting. -/
def lastSightingPrice (venue listingId : String) (run : List (Faults × StreamItem)) :
    Option (Option Nat) :=
  (run.filterMap fun step => sightingPrice? venue listingId step.2).getLast?

theorem sightingPrice?_tick (venue listingId : String) (tick : PricedTick) :
    sightingPrice? venue listingId (.tick tick)
      = if tick.isSightingOf venue listingId then some (some tick.priceCents) else none := by
  rw [← tick.priced]
  rfl

theorem lastSightingPrice_concat (venue listingId : String) (run : List (Faults × StreamItem))
    (faults : Faults) (item : StreamItem) :
    lastSightingPrice venue listingId (run ++ [(faults, item)])
      = (sightingPrice? venue listingId item).or (lastSightingPrice venue listingId run) := by
  unfold lastSightingPrice
  cases h : sightingPrice? venue listingId item <;> simp [h]

/-! ## The cache of listing prices -/

/-- Storing the tick's listing leaves its venue's cache within its size, so nothing is evicted. -/
def listingFits (S : DetectionSettings) (d : DedupCache) (tick : PricedTick) : Bool :=
  tick.listingId.all fun listingId =>
    let prices := d.prices tick.venue
    let size := if prices.contains listingId then prices.len else prices.len + 1
    decide (size ≤ S.dedupCacheMaxSize)

/-- With room, storing a listing's price is a plain update. -/
theorem DedupCache.prices_putListingPrice {S : DetectionSettings} {d : DedupCache}
    {tick : PricedTick} (hfits : listingFits S d tick = true) (venue listingId : String) :
    ((d.putListingPrice S tick).prices venue).get? listingId
      = if tick.venue = venue ∧ tick.listingId = some listingId then some tick.priceCents
        else (d.prices venue).get? listingId := by
  unfold DedupCache.putListingPrice
  cases hid : tick.listingId with
  | none => simp
  | some seen =>
      have hlen : (((d.prices tick.venue).set seen tick.priceCents).moveToEnd seen).len
          ≤ S.dedupCacheMaxSize := by
        rw [OrderedDict.len_moveToEnd, OrderedDict.len_set]
        simpa [listingFits, hid] using hfits
      by_cases hvenue : tick.venue = venue
      · subst hvenue
        simp only [prices, OrderedDict.get?_set, if_true, Option.getD_some]
        rw [OrderedDict.trim_of_le (by simpa [prices] using hlen), OrderedDict.get?_moveToEnd,
          OrderedDict.get?_set]
        simp
      · simp [prices, OrderedDict.get?_set, hvenue]

theorem prices_updateDedupCache {S : DetectionSettings} {d : DedupCache} {tick : PricedTick}
    (hfits : listingFits S d tick = true) (entersWindow : Bool) (venue listingId : String) :
    ((updateDedupCache S tick d entersWindow).prices venue).get? listingId
      = if tick.venue = venue ∧ tick.listingId = some listingId then some tick.priceCents
        else (d.prices venue).get? listingId :=
  DedupCache.prices_putListingPrice (d := d.put S tick _) hfits venue listingId

/-- The cache holds the price of every listing's last live sighting. -/
def ListingPricesCurrent (d : DedupCache) (run : List (Faults × StreamItem)) : Prop :=
  ∀ venue listingId,
    ((d.prices venue).get? listingId).map some = lastSightingPrice venue listingId run

/-- A sighting is a duplicate exactly at the price the cache holds. -/
theorem isDuplicate_iff_of_listingId {tick : PricedTick} {d : DedupCache} {listingId : String}
    (hid : tick.listingId = some listingId) :
    isDuplicate tick d = true ↔ (d.prices tick.venue).get? listingId = some tick.priceCents := by
  simp [isDuplicate, hid, DedupCache.listingPrice]

/-- A REST snapshot is of no listing. -/
def SnapshotsNameNoListing (run : List (Faults × StreamItem)) : Prop :=
  ∀ faults tick, (faults, StreamItem.tick tick) ∈ run → tick.isRestSnapshot = true →
    tick.listingId = none

/-- Every live listing has a price in cents. -/
def PricedListings (run : List (Faults × StreamItem)) : Prop :=
  ∀ faults tick, (faults, StreamItem.unpriced tick) ∈ run → tick.kind = .listed →
    tick.listingId = none

section
variable {C : Type} [EdgeCache C]

/-- One item keeps the listing prices current. -/
theorem listingPricesCurrent_step {F : FloatArith} {S : DetectionSettings} {faults : Faults}
    {st : Consumer C} {run : List (Faults × StreamItem)} {item : StreamItem}
    (h : ListingPricesCurrent st.dedup run)
    (hfits : ∀ tick, item = .tick tick → tick.feedsPriceWindow = true →
      listingFits S st.dedup tick = true)
    (hrest : ∀ tick, item = .tick tick → tick.isRestSnapshot = true → tick.listingId = none)
    (hpriced : ∀ tick, item = .unpriced tick → tick.kind = .listed → tick.listingId = none) :
    ListingPricesCurrent (consumeItem F S faults st item).1.dedup (run ++ [(faults, item)]) := by
  intro venue listingId
  rw [lastSightingPrice_concat, ← h venue listingId]
  cases item with
  | feedEvent event => rfl
  | unpriced tick =>
      have hnone : sightingPrice? venue listingId (.unpriced tick) = none := by
        refine if_neg fun hof => ?_
        obtain ⟨hlisted, -, hid⟩ := MarketTick.isSightingOf_iff.mp hof
        rw [hpriced tick rfl hlisted] at hid
        cases hid
      rw [hnone]
      rfl
  | tick tick =>
      have hkinds : tick.feedsPriceWindow = true
          ↔ tick.isRestSnapshot = true ∨ tick.kind = .listed := by
        simp [MarketTick.feedsPriceWindow, MarketTick.isRestSnapshot]
      by_cases hfeeds : tick.feedsPriceWindow = true
      · -- an offer with a listing is live
        have hsighting : sightingPrice? venue listingId (.tick tick)
            = if tick.venue = venue ∧ tick.listingId = some listingId then
                some (some tick.priceCents)
              else none := by
          rw [sightingPrice?_tick]
          rcases hkinds.mp hfeeds with hsnapshot | hlisted
          · simp [MarketTick.isSightingOf, hrest tick rfl hsnapshot]
          · simp [MarketTick.isSightingOf, hlisted]
        rw [hsighting]
        by_cases hdup : isDuplicate tick st.dedup = true
        · have hstay : (consumeItem F S faults st (.tick tick)).1 = st := by
            simp [consumeItem, hfeeds, hdup]
          rw [hstay]
          split
          · rename_i hof
            obtain ⟨rfl, hid⟩ := hof
            rw [(isDuplicate_iff_of_listingId hid).mp hdup]
            rfl
          · rfl
        · have hitem : consumeItem F S faults st (.tick tick)
              = consumeOffer F S faults st tick := by
            simp [consumeItem, hfeeds, hdup]
          rw [hitem]
          rcases consumeOffer_dedup F S faults st tick with ⟨entersWindow, hdedup⟩ | ⟨hun, hdedup⟩
          · rw [hdedup, prices_updateDedupCache (hfits tick rfl hfeeds)]
            split <;> rfl
          · have hnone := hrest tick rfl ((isUnchangedSnapshot_iff tick _).mp hun).1
            rw [hdedup, if_neg (by simp [hnone])]
            rfl
      · have hstay : (consumeItem F S faults st (.tick tick)).1 = st := by
          simp [consumeItem, hfeeds]
        have hnone : sightingPrice? venue listingId (.tick tick) = none := by
          rw [sightingPrice?_tick]
          refine if_neg fun hof => hfeeds (hkinds.mpr (.inr ?_))
          exact (MarketTick.isSightingOf_iff.mp hof).1
        rw [hstay, hnone]
        rfl

/-- No offer of the run evicts a listing from its venue's cache. -/
def NoListingEviction (F : FloatArith) (S : DetectionSettings) (st : Consumer C)
    (run : List (Faults × StreamItem)) : Prop :=
  ∀ before faults tick, before ++ [(faults, .tick tick)] <+: run →
    tick.feedsPriceWindow = true → listingFits S (consume F S st before).dedup tick = true

theorem listingPricesCurrent_consume {F : FloatArith} {S : DetectionSettings} {cache : C}
    {run : List (Faults × StreamItem)} (hfit : NoListingEviction F S (.start cache) run)
    (hrest : SnapshotsNameNoListing run) (hpriced : PricedListings run) :
    ListingPricesCurrent (consume F S (.start cache) run).dedup run := by
  induction run using List.reverseRecOn with
  | nil => exact fun _ _ => rfl
  | append_singleton before step ih =>
      obtain ⟨faults, item⟩ := step
      have hpre := List.prefix_append before [(faults, item)]
      rw [consume_concat]
      refine listingPricesCurrent_step (ih ?_ ?_ ?_) ?_ ?_ ?_
      · exact fun b f t hb => hfit b f t (hb.trans hpre)
      · exact fun f t hmem => hrest f t (hpre.subset hmem)
      · exact fun f t hmem => hpriced f t (hpre.subset hmem)
      · rintro tick rfl
        exact hfit before faults tick (List.prefix_refl _)
      · rintro tick rfl
        exact hrest faults tick (List.mem_append_right _ (List.mem_singleton_self _))
      · rintro tick rfl
        exact hpriced faults tick (List.mem_append_right _ (List.mem_singleton_self _))

/-- A live listing is scored exactly on its first sighting, or when its price is not that of the
previous one. -/
def ListingsScoredOnChange (F : FloatArith) (S : DetectionSettings) (st : Consumer C)
    (run : List (Faults × StreamItem)) : Prop :=
  ∀ before faults item tick listingId, before ++ [(faults, item)] <+: run →
    item.marketTick? = some tick → tick.kind = .listed → tick.listingId = some listingId →
    ((consumeItem F S faults (consume F S st before) item).2.isDetected = true
      ↔ lastSightingPrice tick.venue listingId before ≠ some tick.priceCents?)

/-- Where the cache is current, a listing with a price is scored on a change. -/
theorem isDetected_listing_iff {F : FloatArith} {S : DetectionSettings} {faults : Faults}
    {st : Consumer C} {run : List (Faults × StreamItem)} {tick : PricedTick} {listingId : String}
    (h : ListingPricesCurrent st.dedup run) (hlisted : tick.kind = .listed)
    (hid : tick.listingId = some listingId) :
    (consumeItem F S faults st (.tick tick)).2.isDetected = true
      ↔ lastSightingPrice tick.venue listingId run ≠ some (some tick.priceCents) := by
  have hfeeds : tick.feedsPriceWindow = true := by
    simp [MarketTick.feedsPriceWindow, hlisted]
  have hnotRest : tick.isRestSnapshot = false := by
    simp [MarketTick.isRestSnapshot, hlisted]
  have hsame : lastSightingPrice tick.venue listingId run = some (some tick.priceCents)
      ↔ isDuplicate tick st.dedup = true := by
    rw [← h, isDuplicate_iff_of_listingId hid]
    simp
  rw [ne_eq, hsame]
  by_cases hdup : isDuplicate tick st.dedup = true
  · simp [consumeItem, hfeeds, hdup, Route.isDetected]
  · have hitem : consumeItem F S faults st (.tick tick) = consumeOffer F S faults st tick := by
      simp [consumeItem, hfeeds, hdup]
    have hchanged : isUnchangedSnapshot tick st.dedup = false := by
      rw [← Bool.not_eq_true, isUnchangedSnapshot_iff]
      simp [hnotRest]
    rw [hitem, consumeOffer_isDetected, hchanged]
    simp [hdup]

/-- The first sighting without a price in cents is not scored, whatever the price before it. -/
theorem not_listingsScoredOnChange {F : FloatArith} {S : DetectionSettings} {cache : C}
    {before after : List (Faults × StreamItem)} {faults : Faults} {tick : UnpricedTick}
    {listingId : String} (hbefore : PricedListings before) (hlisted : tick.kind = .listed)
    (hid : tick.listingId = some listingId) :
    ¬ ListingsScoredOnChange F S (.start cache) (before ++ (faults, .unpriced tick) :: after) := by
  intro h
  have hscored := h before faults (.unpriced tick) tick.toMarketTick listingId ⟨after, by simp⟩ rfl
    hlisted hid
  refine absurd (hscored.mpr fun hlast => ?_) Bool.false_ne_true
  rw [tick.unpriced] at hlast
  -- the last sighting before it has a price
  obtain ⟨step, hstep, hprice⟩ := List.mem_filterMap.mp (List.mem_of_getLast? hlast)
  obtain ⟨faults', item⟩ := step
  cases item with
  | feedEvent event => cases hprice
  | tick t =>
      rw [sightingPrice?_tick] at hprice
      split at hprice <;> cases hprice
  | unpriced t =>
      have hof : t.isSightingOf tick.venue listingId = true := by
        by_contra hnot
        simp [sightingPrice?, StreamItem.marketTick?, hnot] at hprice
      obtain ⟨hlisted', -, hid'⟩ := MarketTick.isSightingOf_iff.mp hof
      rw [hbefore faults' t hstep hlisted'] at hid'
      cases hid'

/-- A run in which no listing is evicted keeps the law exactly when every live listing has a
price in cents. -/
theorem listingsScoredOnChange_iff (F : FloatArith) (S : DetectionSettings) (cache : C)
    (run : List (Faults × StreamItem)) (hfit : NoListingEviction F S (.start cache) run)
    (hrest : SnapshotsNameNoListing run) :
    ListingsScoredOnChange F S (.start cache) run ↔ PricedListings run := by
  constructor
  · intro h
    clear hfit hrest
    induction run using List.reverseRecOn with
    | nil => exact fun _ _ hmem => absurd hmem List.not_mem_nil
    | append_singleton before step ih =>
        have hbefore : PricedListings before := ih fun b f item tick listingId hpre =>
          h b f item tick listingId (hpre.trans (List.prefix_append _ _))
        intro faults tick hmem hlisted
        rcases List.mem_append.mp hmem with hin | hlast
        · exact hbefore faults tick hin hlisted
        · obtain rfl := List.mem_singleton.mp hlast
          cases hid : tick.listingId with
          | none => rfl
          | some listingId => exact absurd h (not_listingsScoredOnChange hbefore hlisted hid)
  · intro hpriced before faults item tick listingId hpre htick hlisted hid
    have hbefore : before <+: run := (List.prefix_append _ _).trans hpre
    have hcurrent : ListingPricesCurrent (consume F S (.start cache) before).dedup before :=
      listingPricesCurrent_consume (fun b f t hb => hfit b f t (hb.trans hbefore))
        (fun f t hmem => hrest f t (hbefore.subset hmem))
        fun f t hmem => hpriced f t (hbefore.subset hmem)
    cases item with
    | feedEvent event => cases htick
    | tick t =>
        cases htick
        rw [t.priced]
        exact isDetected_listing_iff hcurrent hlisted hid
    | unpriced t =>
        cases htick
        have hnone := hpriced faults t
          (hpre.subset (List.mem_append_right _ (List.mem_singleton_self _))) hlisted
        rw [hid] at hnone
        cases hnone

/-! ### A short run evicts nothing -/

theorem DedupCache.len_prices_putListingPrice (S : DetectionSettings) (d : DedupCache)
    (tick : PricedTick) (venue : String) :
    ((d.putListingPrice S tick).prices venue).len ≤ (d.prices venue).len + 1 := by
  unfold DedupCache.putListingPrice
  cases tick.listingId with
  | none => exact Nat.le_succ _
  | some listingId =>
      by_cases hvenue : tick.venue = venue
      · subst hvenue
        simp only [prices, OrderedDict.get?_set, if_true, Option.getD_some]
        refine (OrderedDict.len_trim_le _ _).trans ?_
        rw [OrderedDict.len_moveToEnd, OrderedDict.len_set]
        split
        · exact Nat.le_succ _
        · exact Nat.le_refl _
      · simp [prices, OrderedDict.get?_set, hvenue]

theorem len_prices_consumeItem (F : FloatArith) (S : DetectionSettings) (faults : Faults)
    (st : Consumer C) (item : StreamItem) (venue : String) :
    ((consumeItem F S faults st item).1.dedup.prices venue).len
      ≤ (st.dedup.prices venue).len + 1 := by
  cases item with
  | feedEvent event => exact Nat.le_succ _
  | unpriced tick => exact Nat.le_succ _
  | tick tick =>
      rw [consumeItem]
      split
      · exact Nat.le_succ _
      · split
        · exact Nat.le_succ _
        · rcases consumeOffer_dedup F S faults st tick with ⟨entersWindow, hdedup⟩ | ⟨-, hdedup⟩
          · rw [hdedup]
            exact DedupCache.len_prices_putListingPrice S (st.dedup.put S tick _) tick venue
          · rw [hdedup]
            exact Nat.le_succ _

theorem len_prices_consume (F : FloatArith) (S : DetectionSettings) (cache : C)
    (run : List (Faults × StreamItem)) (venue : String) :
    ((consume F S (.start cache) run).dedup.prices venue).len ≤ run.length := by
  induction run using List.reverseRecOn with
  | nil => exact Nat.le_refl _
  | append_singleton before step ih =>
      rw [consume_concat, List.length_append]
      exact (len_prices_consumeItem F S step.1 _ step.2 venue).trans (Nat.add_le_add_right ih 1)

/-- A run no longer than the cache is large evicts no listing. -/
theorem noListingEviction_of_length_le {F : FloatArith} {S : DetectionSettings} {cache : C}
    {run : List (Faults × StreamItem)} (h : run.length ≤ S.dedupCacheMaxSize) :
    NoListingEviction F S (.start cache) run := by
  intro before faults tick hpre _
  have hlen := hpre.length_le
  rw [List.length_append, List.length_singleton] at hlen
  have hprices := len_prices_consume F S cache before tick.venue
  cases hid : tick.listingId with
  | none => simp [listingFits, hid]
  | some listingId =>
      simp only [listingFits, hid, Option.all_some, decide_eq_true_eq]
      split <;> omega

end

/-! ### Two listings and a snapshot -/

theorem sold_expected : TickKind.sold = TickKind.expected (some soldEventType) := by decide

/-- Two listings at one price, a snapshot at it, a sale, and the first listing again: at its
price, and below it. -/
def twoListings : List (Faults × StreamItem) :=
  let sale : PricedTick :=
    { PricedTick.listing "skinport" "AK-47" 900 13 "a" isVenueName_skinport with
      kind := .sold
      eventType := some soldEventType
      kindMatchesEventType := sold_expected }
  [(.none, .tick (.listing "skinport" "AK-47" 900 10 "a" isVenueName_skinport)),
    (.none, .tick (.listing "skinport" "AK-47" 900 11 "b" isVenueName_skinport)),
    (.none, .tick (.snapshot "skinport" "AK-47" 900 12 isVenueName_skinport)),
    (.none, .tick sale),
    (.none, .tick (.listing "skinport" "AK-47" 900 20 "a" isVenueName_skinport)),
    (.none, .tick (.listing "skinport" "AK-47" 800 30 "a" isVenueName_skinport))]

theorem listingsScoredOnChange_iff_twoListings :
    ListingsScoredOnChange .exact .default (.start EdgeRedis.empty) twoListings
      ↔ PricedListings twoListings := by
  refine listingsScoredOnChange_iff _ _ _ _ (noListingEviction_of_length_le (by decide)) ?_
  intro faults tick hmem hrest
  simp only [twoListings, List.mem_cons, Prod.mk.injEq, StreamItem.tick.injEq, List.not_mem_nil,
    or_false] at hmem
  rcases hmem with ⟨-, rfl⟩ | ⟨-, rfl⟩ | ⟨-, rfl⟩ | ⟨-, rfl⟩ | ⟨-, rfl⟩ | ⟨-, rfl⟩
  all_goals first | rfl | cases hrest

/-- A first sighting at an infinite price, which is not scored. -/
def endlessListing : List (Faults × StreamItem) :=
  [(.none, .unpriced ⟨.listing "skinport" "AK-47" none 10 "a" isVenueName_skinport, rfl⟩)]

theorem not_listingsScoredOnChange_endlessListing :
    NoListingEviction .exact .default (.start EdgeRedis.empty) endlessListing ∧
      SnapshotsNameNoListing endlessListing ∧
      ¬ ListingsScoredOnChange .exact .default (.start EdgeRedis.empty) endlessListing := by
  refine ⟨noListingEviction_of_length_le (by decide), ?_, fun h => ?_⟩
  · intro faults tick hmem
    simp [endlessListing] at hmem
  · have hscored := h [] .none _ _ "a" (List.prefix_refl _) rfl rfl rfl
    exact absurd (hscored.mpr (by decide)) (by decide)

end BrandSniper
