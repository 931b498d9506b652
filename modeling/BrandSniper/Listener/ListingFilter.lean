import Mathlib.Data.Rat.Floor
import BrandSniper.Kit.Conversions
import BrandSniper.Listener.Detection

/-!
# The recording filter's verdict

`apps/listener/scrapers/listing_filter.py`: a listing is worth recording when
it costs less than its item's resale price, or when its stickers could make
up for what it costs above it. The prices are those the edge Redis held when
they were last read.
-/

namespace BrandSniper

open Kit

/-- What a recording filter did with a feed event. -/
inductive FilterOutcome where
  | recorded
  /-- The resale venue has no baseline for the item. -/
  | noBaseline
  /-- Not below the item's resale price. -/
  | aboveResalePrice
  | malformed
  /-- A followed listing whose price rose or stayed the same. -/
  | notAPriceCut
  /-- Removal of a listing that was never recorded. -/
  | untrackedRemoval
  deriving DecidableEq, Repr

structure ResalePrices where
  venue : String
  buildId : Option String
  latestPriceCents : OrderedDict String Int
  stickerPricesCents : OrderedDict String Int

namespace ResalePrices

def new (venue : String) : ResalePrices := ⟨venue, none, .empty, .empty⟩

/-- The price of a baseline document, when it is a whole number above 0. -/
def latestPrice (baseline : Baseline) : Option Int :=
  baseline.latestPriceCents.get.filter fun price => 0 < price

/-- Load the build the edge Redis holds, unless it is the one held. -/
def refresh (buildId : Option String) (hashes : EdgeHashes) (prices : ResalePrices) :
    Bool × ResalePrices :=
  if buildId = none ∨ buildId = prices.buildId then (false, prices)
  else
    let baselines := (hashes.baselines.get? (edgeBaselinesKey prices.venue)).getD .empty
    let stickerPrices := (hashes.stickers.get? (edgeStickerPricesKey prices.venue)).getD .empty
    (true,
      { prices with
        latestPriceCents := baselines.filterMap latestPrice
        stickerPricesCents := stickerPrices.filterMap id
        buildId := buildId })

/-- An unknown sticker counts 0. -/
def stickerPrice (prices : ResalePrices) (sticker : Sticker) : Int :=
  (prices.stickerPricesCents.get? (sticker.name.getD "")).getD 0

def stickerValue (prices : ResalePrices) (tick : PricedTick) : Int :=
  tick.stickers.foldl (fun total sticker => total + prices.stickerPrice sticker) 0

def judge (prices : ResalePrices) (tick : PricedTick) : FilterOutcome :=
  match prices.latestPriceCents.get? tick.marketHashName with
  | none => .noBaseline
  | some resalePriceCents =>
      if (tick.priceCents : Int) < resalePriceCents then .recorded
      else
        let stickerValueCents := prices.stickerValue tick
        let premiumCents := (tick.priceCents : Int) - resalePriceCents
        if stickerValueCents > stickerValueMinCents
            ∧ (premiumCents : ℚ) * 100 ≤ stickerPremiumMaxPercent * stickerValueCents then
          .recorded
        else .aboveResalePrice

/-- `judge` of any tick: a price is read only to be compared with that of the item. -/
def judgeTick (prices : ResalePrices) (tick : MarketTick) : Except ConversionError FilterOutcome :=
  match tick.priced? with
  | some tick => .ok (prices.judge tick)
  | none =>
      if prices.latestPriceCents.contains tick.marketHashName then .error .overflowError
      else .ok .noBaseline

theorem judge_ne_malformed {prices : ResalePrices} {tick : PricedTick} :
    prices.judge tick ≠ .malformed := by
  unfold judge
  split
  · exact FilterOutcome.noConfusion
  · dsimp only
    split
    · exact FilterOutcome.noConfusion
    · split <;> exact FilterOutcome.noConfusion

/-- Only a listing whose item has a price is recorded. -/
theorem contains_of_judge {prices : ResalePrices} {tick : PricedTick}
    (h : prices.judge tick = .recorded) :
    prices.latestPriceCents.contains tick.marketHashName = true := by
  unfold judge at h
  split at h
  · cases h
  · rename_i hprice
    rw [OrderedDict.contains, hprice, Option.isSome_some]

theorem judgeTick_ne_malformed {prices : ResalePrices} {tick : MarketTick} :
    prices.judgeTick tick ≠ .ok .malformed := by
  unfold judgeTick
  split
  · exact fun h => judge_ne_malformed (Except.ok.inj h)
  · split <;> exact fun h => by cases h

/-- A listing is recorded by its price in cents. -/
theorem exists_of_judgeTick {prices : ResalePrices} {tick : MarketTick}
    (h : prices.judgeTick tick = .ok .recorded) :
    ∃ priced : PricedTick, priced.toMarketTick = tick ∧ prices.judge priced = .recorded := by
  unfold judgeTick at h
  split at h
  · rename_i priced hpriced
    exact ⟨priced, MarketTick.priced?_eq_some_iff.mp hpriced, Except.ok.inj h⟩
  · split at h <;> cases h

/-- It raises where the price of an item with a resale price is infinite in cents. -/
theorem succeeds_judgeTick_iff {prices : ResalePrices} {tick : MarketTick} :
    Succeeds (prices.judgeTick tick) ↔
      (prices.latestPriceCents.contains tick.marketHashName = true →
        tick.priceCents?.isSome = true) := by
  rw [← MarketTick.priced?_isSome, judgeTick]
  cases tick.priced? with
  | some priced => exact iff_of_true (succeeds_ok _) fun _ => rfl
  | none =>
      dsimp only
      split
      · rename_i hknown
        exact iff_of_false (not_succeeds_error _) fun h => Bool.noConfusion (h hknown)
      · rename_i hknown
        exact iff_of_true (succeeds_ok _) fun h => absurd h hknown

/-! ## The tables a build gives -/

theorem latestPrice_refresh {prices : ResalePrices} {buildId : Option String} {hashes : EdgeHashes}
    (h : (prices.refresh buildId hashes).1 = true) (name : String) :
    (prices.refresh buildId hashes).2.latestPriceCents.get? name
      = (hashes.hgetBaseline (edgeBaselinesKey prices.venue) name).bind latestPrice := by
  unfold refresh at h ⊢
  split at h
  · cases h
  · rename_i hload
    rw [if_neg hload]
    show (OrderedDict.filterMap _ _).get? name = _
    rw [OrderedDict.get?_filterMap, EdgeHashes.hgetBaseline]
    cases hashes.baselines.get? (edgeBaselinesKey prices.venue) <;> rfl

theorem stickerPrices_refresh {prices : ResalePrices} {buildId : Option String}
    {hashes : EdgeHashes} (h : (prices.refresh buildId hashes).1 = true) (name : String) :
    (prices.refresh buildId hashes).2.stickerPricesCents.get? name
      = (hashes.hgetSticker (edgeStickerPricesKey prices.venue) name).join := by
  unfold refresh at h ⊢
  split at h
  · cases h
  · rename_i hload
    rw [if_neg hload]
    show (OrderedDict.filterMap _ _).get? name = _
    rw [OrderedDict.get?_filterMap, EdgeHashes.hgetSticker]
    cases hashes.stickers.get? (edgeStickerPricesKey prices.venue) with
    | none => rfl
    | some fields => rfl

end ResalePrices

/-! ## What the decision engine buys is recorded -/

section
variable {r : EdgeRedis} {held : ResalePrices} {buildId : Option String} {tick : PricedTick}

/-- The engine's sticker value counts no sticker the filter does not count. -/
theorem stickerValueCents_le (hvenue : held.venue = resaleVenueFor tick.venue)
    (hload : (held.refresh buildId r.hashes).1 = true)
    (hstickers : ∀ name price, r.hashes.hgetSticker
      (edgeStickerPricesKey (resaleVenueFor tick.venue)) name = some (some price) → 0 ≤ price) :
    stickerValueCents tick r ≤ (held.refresh buildId r.hashes).2.stickerValue tick := by
  have hnonneg : ∀ name, 0 ≤ (r.hashes.hgetSticker
      (edgeStickerPricesKey (resaleVenueFor tick.venue)) name).join.getD 0 := by
    intro name
    cases hget : r.hashes.hgetSticker (edgeStickerPricesKey (resaleVenueFor tick.venue)) name with
    | none => exact Int.le_refl 0
    | some price? =>
        cases price? with
        | none => exact Int.le_refl 0
        | some price => exact hstickers name price hget
  rw [stickerValueCents, ResalePrices.stickerValue, ← List.foldl_map, ← List.sum_eq_foldl]
  refine List.sum_le_sum fun sticker _ => ?_
  rw [ResalePrices.stickerPrice, ResalePrices.stickerPrices_refresh hload, hvenue]
  cases sticker.name with
  | none => exact hnonneg ""
  | some name =>
      dsimp only [Option.getD_some]
      split
      · exact hnonneg name
      · exact Int.le_refl _

/-- Above the resale price, the sticker rules' bound is the filter's. -/
theorem judge_of_stickers {prices : ResalePrices} {latest stickerCents : Int}
    (hlatest : prices.latestPriceCents.get? tick.marketHashName = some latest)
    (hle : stickerCents ≤ prices.stickerValue tick) (hmin : stickerCents > stickerValueMinCents)
    (hpremium : ((tick.priceCents : Int) - latest : Int) * 100
      ≤ stickerPremiumMaxPercent * (stickerCents : ℚ)) :
    prices.judge tick = .recorded := by
  have hvalue : prices.stickerValue tick > stickerValueMinCents := lt_of_lt_of_le hmin hle
  have hbound : ((tick.priceCents : Int) - latest : Int) * 100
      ≤ stickerPremiumMaxPercent * (prices.stickerValue tick : ℚ) := by
    refine hpremium.trans (mul_le_mul_of_nonneg_left ?_ (by decide))
    exact_mod_cast hle
  unfold ResalePrices.judge
  rw [hlatest]
  dsimp only
  split
  · rfl
  · exact if_pos ⟨hvalue, hbound⟩

/-- What an approval by a sticker rule says, in exact arithmetic. -/
theorem stickerRules_bound {baseline : Baseline} {priceCents stickerCents : Int}
    {rule : ApprovalReason}
    (h : stickerRules .exact baseline priceCents stickerCents = .ok (some rule)) :
    stickerCents > stickerValueMinCents ∧ ∃ latest, baseline.latestPriceCents.getD 0 = some latest ∧
      ((priceCents - latest : Int) : ℚ) * 100 ≤ stickerPremiumMaxPercent * (stickerCents : ℚ) := by
  unfold stickerRules at h
  split at h
  · rename_i hmin
    have hpos : (0 : ℚ) < (stickerCents : ℚ) := by
      have : (0 : Int) < stickerValueMinCents := by decide
      exact_mod_cast this.trans hmin
    refine ⟨hmin, ?_⟩
    cases hlatest : baseline.latestPriceCents.getD 0 with
    | none =>
        rw [hlatest] at h
        cases h
    | some latest =>
        rw [hlatest] at h
        refine ⟨latest, rfl, ?_⟩
        dsimp only at h
        split at h
        · rename_i hpremium
          have hle : ((priceCents - latest : Int) : ℚ) ≤ 0 := by exact_mod_cast hpremium
          have hnonneg : (0 : ℚ) ≤ stickerPremiumMaxPercent * (stickerCents : ℚ) :=
            mul_nonneg (by decide) hpos.le
          linarith
        · rw [FloatArith.divInts_exact (by exact_mod_cast hpos.ne')] at h
          simp only [Except.mapError, bind, Except.bind, FloatArith.mul_exact,
            Double.finite_le_finite] at h
          by_cases hshare : ((priceCents - latest : Int) : ℚ) / (stickerCents : ℚ) * 100
              ≤ stickerPremiumMaxPercent
          · rw [div_mul_eq_mul_div, div_le_iff₀ hpos] at hshare
            exact hshare
          · rw [if_neg hshare] at h
            cases h
  · cases h

/-- An approval is by a rule of the fee floor, or within the bound of the sticker rules. -/
theorem approvalRules_cases {baseline : Baseline} {rule : ApprovalReason}
    (h : approvalRules .exact tick r baseline = .ok (some rule)) :
    rule ∈ feeFloorRules ∨
      stickerRules .exact baseline tick.priceCents (stickerValueCents tick r) = .ok (some rule) := by
  unfold approvalRules at h
  cases hfloor : baseline.supportFloorCents.getD 0 with
  | none =>
      rw [hfloor] at h
      cases h
  | some supportFloor =>
      rw [hfloor] at h
      dsimp only at h
      split at h
      · cases h
        exact .inl (by decide)
      · cases hsigma : macroSigmaReached .exact baseline tick.priceCents with
        | error e =>
            rw [hsigma] at h
            cases h
        | ok reached =>
            rw [hsigma] at h
            cases reached with
            | true =>
                cases h
                exact .inl (by decide)
            | false => exact .inr h

/-- What passes the fee floor costs less than it is resold for. -/
theorem price_lt_of_belowFeeFloor {S : DetectionSettings} {baseline : Baseline} {latest : Int}
    {rule : ApprovalReason} {estimate : Option Int} (hfloor : S.feeFloor = true)
    (hlatest : baseline.latestPriceCents = .value latest)
    (hestimate : estimateNetProfitCents tick baseline = .ok estimate)
    (hpass : belowFeeFloor S rule estimate = false) (hrule : rule ∈ feeFloorRules) :
    (tick.priceCents : Int) < latest := by
  unfold estimateNetProfitCents at hestimate
  rw [hlatest] at hestimate
  dsimp only [BaselineField.get] at hestimate
  cases hbuy : feesFor tick.venue with
  | error e =>
      rw [hbuy] at hestimate
      cases hestimate
  | ok buyFees =>
      cases hsell : feesFor (resaleVenueFor tick.venue) with
      | error e =>
          rw [hbuy, hsell] at hestimate
          cases hestimate
      | ok sellFees =>
          cases hmargin : netResaleMarginCents tick.priceCents latest buyFees (some sellFees)
              (itemFeeBps baseline) with
          | error e =>
              rw [hbuy, hsell] at hestimate
              simp only [bind, Except.bind, hmargin] at hestimate
              cases hestimate
          | ok margin =>
              have hle := netResaleMarginCents_le hmargin
              have hsome : estimate = some margin := by
                rw [hbuy, hsell] at hestimate
                simp only [bind, Except.bind, hmargin, pure, Except.pure] at hestimate
                exact (Except.ok.inj hestimate).symm
              have hpos : 0 < margin := by
                rw [hsome, belowFeeFloor, if_pos (by simp [hfloor, hrule])] at hpass
                simpa using hpass
              omega

/-- Whatever the engine approves on a baseline with a price, and the fee floor lets through, the
filter records, once it has loaded the same tables. -/
theorem judge_recorded_of_approved (r : EdgeRedis) (tick : PricedTick) (baseline : Baseline)
    (latest : Int) (held : ResalePrices) (buildId : Option String) (S : DetectionSettings)
    (rule : ApprovalReason) (estimate : Option Int)
    (hvenue : held.venue = resaleVenueFor tick.venue)
    (hload : (held.refresh buildId r.hashes).1 = true)
    (hbaseline : fetchBaseline tick r = some baseline)
    (hlatest : baseline.latestPriceCents = .value latest) (hpositive : 0 < latest)
    (hstickers : ∀ name price, r.hashes.hgetSticker
      (edgeStickerPricesKey (resaleVenueFor tick.venue)) name = some (some price) → 0 ≤ price)
    (hfloor : S.feeFloor = true)
    (happroved : dreApprovalReason .exact tick r (some baseline) = .ok (some rule))
    (hestimate : estimateNetProfitCents tick baseline = .ok estimate)
    (hpass : belowFeeFloor S rule estimate = false) :
    (held.refresh buildId r.hashes).2.judge tick = .recorded := by
  have hprice : (held.refresh buildId r.hashes).2.latestPriceCents.get? tick.marketHashName
      = some latest := by
    rw [ResalePrices.latestPrice_refresh hload, hvenue,
      show r.hashes.hgetBaseline _ tick.marketHashName = some baseline from hbaseline]
    simp [ResalePrices.latestPrice, hlatest, BaselineField.get, hpositive]
  rcases approvalRules_cases happroved with hrule | hrule
  · have hlt : (tick.priceCents : Int) < latest :=
      price_lt_of_belowFeeFloor hfloor hlatest hestimate hpass hrule
    unfold ResalePrices.judge
    rw [hprice]
    exact if_pos hlt
  · obtain ⟨hmin, latest', hlatest', hpremium⟩ := stickerRules_bound hrule
    rw [hlatest, BaselineField.getD, Option.some.injEq] at hlatest'
    subst hlatest'
    exact judge_of_stickers hprice (stickerValueCents_le hvenue hload hstickers) hmin hpremium

end

/-- A Waxpeer listing above its resale price, within three percent of its stickers' value. -/
def stickeredListing : PricedTick :=
  { PricedTick.listing "waxpeer" "AK-47 | Redline (Field-Tested)" 1800 1790000000 "1" (by decide) with
    stickers := [⟨some "Crown (Foil)"⟩, ⟨none⟩] }

/-- A Skinport build with that item and that sticker. -/
def skinportBuild : EdgeRedis :=
  { EdgeRedis.empty with
    hashes :=
      { baselines := OrderedDict.empty.set "baselines:skinport"
          (OrderedDict.empty.set "AK-47 | Redline (Field-Tested)"
            { Baseline.empty with latestPriceCents := .value 1500 })
        stickers := OrderedDict.empty.set "sticker_prices:skinport"
          (OrderedDict.empty.set "Crown (Foil)" (some 10001)) } }

theorem judge_recorded_of_approved_stickered :
    ((ResalePrices.new "skinport").refresh (some "4") skinportBuild.hashes).2.judge stickeredListing
      = .recorded := by
  refine judge_recorded_of_approved skinportBuild stickeredListing
    { Baseline.empty with latestPriceCents := .value 1500 } 1500 (.new "skinport") (some "4")
    .default .stickerPremium (some (-420)) (by decide +kernel) (by decide +kernel)
    (by decide +kernel) rfl (by decide) ?_ rfl ?_ (by decide +kernel) rfl
  · intro name price hprice
    have hkey : edgeStickerPricesKey (resaleVenueFor stickeredListing.venue)
        = "sticker_prices:skinport" := by decide +kernel
    rw [hkey, EdgeHashes.hgetSticker, skinportBuild] at hprice
    dsimp only at hprice
    rw [OrderedDict.get?_set, if_pos rfl, Option.bind_some, OrderedDict.get?_set] at hprice
    split at hprice
    · cases hprice
      decide
    · cases hprice
  · decide +kernel

end BrandSniper
