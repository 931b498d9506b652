import BrandSniper.Shared.Pnl
import Mathlib.Data.Rat.Floor
import Mathlib.Tactic.Linarith
import Mathlib.Tactic.Positivity

/-!
# Margins against exact arithmetic

What the integer arithmetic of `shared_utils/pnl.py` is worth. The exact fee of
a price is a rational number of cents. The program charges its ceiling, for the
seller and for the buyer each, so a margin is too low by less than two cents
and never too high (`exactToTheCent`).
-/

namespace BrandSniper

/-! ## Fees -/

/-- A fee before it is rounded. -/
def exactFeeCents (priceCents feeBps : Int) : ℚ := (priceCents * feeBps : Int) / (10000 : Nat)

/-- The negated floor of the negated fee is its ceiling. -/
theorem feeRoundedUpCents_eq_ceil (priceCents feeBps : Int) :
    feeRoundedUpCents priceCents feeBps = ⌈exactFeeCents priceCents feeBps⌉ := by
  rw [exactFeeCents, Rat.ceil_intCast_div_natCast, feeRoundedUpCents, basisPoints, Int.neg_mul]
  rfl

theorem exactFeeCents_le {priceCents feeBps : Int} (hprice : 0 ≤ priceCents)
    (hfee : feeBps < basisPoints) : exactFeeCents priceCents feeBps ≤ priceCents := by
  have hmul : priceCents * feeBps ≤ priceCents * 10000 :=
    Int.mul_le_mul_of_nonneg_left (Int.le_of_lt hfee) hprice
  have hcast : ((priceCents * feeBps : Int) : ℚ) ≤ priceCents * 10000 := by exact_mod_cast hmul
  rw [exactFeeCents, div_le_iff₀ (by norm_num)]
  exact_mod_cast hcast

/-- The rounded fee is less than a cent above the exact one, and lies between 0 and the price. -/
structure RoundedUp (priceCents feeBps fee : Int) : Prop where
  ceil : fee = ⌈exactFeeCents priceCents feeBps⌉
  nonneg : 0 ≤ fee
  le_price : fee ≤ priceCents

theorem roundedUp_feeRoundedUpCents {priceCents feeBps : Int} (hprice : 0 ≤ priceCents)
    (hfee : 0 ≤ feeBps ∧ feeBps < basisPoints) :
    RoundedUp priceCents feeBps (feeRoundedUpCents priceCents feeBps) where
  ceil := feeRoundedUpCents_eq_ceil priceCents feeBps
  nonneg := feeRoundedUpCents_nonneg hprice hfee.1
  le_price := by
    rw [feeRoundedUpCents_eq_ceil, Int.ceil_le]
    exact exactFeeCents_le hprice hfee.2

theorem RoundedUp.exact_le {priceCents feeBps fee : Int} (h : RoundedUp priceCents feeBps fee) :
    exactFeeCents priceCents feeBps ≤ fee := by
  rw [h.ceil]
  exact Int.le_ceil _

theorem RoundedUp.lt_exact {priceCents feeBps fee : Int} (h : RoundedUp priceCents feeBps fee) :
    (fee : ℚ) < exactFeeCents priceCents feeBps + 1 := by
  rw [h.ceil]
  exact Int.ceil_lt_add_one _

/-! ## Tiers -/

/-- The tier has the highest threshold the price reaches. -/
structure HighestReached (tiers : List FeeTier) (priceCents : Int) (tier : FeeTier) : Prop where
  mem : tier ∈ tiers
  reached : tier.minPriceCents ≤ priceCents
  highest : ∀ other ∈ tiers, other.minPriceCents ≤ priceCents →
    other.minPriceCents ≤ tier.minPriceCents

theorem le_highestTier {tiers : List FeeTier} {best : FeeTier} (h : highestTier tiers = some best) :
    ∀ tier ∈ tiers, tier.minPriceCents ≤ best.minPriceCents := by
  induction tiers generalizing best with
  | nil => cases h
  | cons first rest ih =>
      intro tier htier
      rw [highestTier] at h
      cases hrest : highestTier rest with
      | none =>
          -- no other tier
          have hnil : rest = [] := by
            by_contra hne
            have hsome := highestTier_isSome hne
            rw [hrest] at hsome
            cases hsome
          subst hnil
          rw [hrest] at h
          cases h
          cases List.mem_singleton.mp htier
          exact Int.le_refl _
      | some bestRest =>
          rw [hrest] at h
          dsimp only at h
          have hle := ih hrest
          split at h
          · rename_i hlt
            cases h
            rcases List.mem_cons.mp htier with rfl | htier
            · exact Int.le_of_lt hlt
            · exact hle tier htier
          · rename_i hge
            cases h
            rcases List.mem_cons.mp htier with rfl | htier
            · exact Int.le_refl _
            · exact (hle tier htier).trans (Int.not_lt.mp hge)

/-- The lookup finds the fee of the highest threshold reached, whatever the order of the tiers. -/
theorem VenueFees.exists_highestReached (fees : VenueFees) {priceCents : Int}
    (h : 0 ≤ priceCents) : ∃ tier, HighestReached fees.feeTiers priceCents tier ∧
      fees.sellerFeeBps priceCents = some tier.feeBps := by
  obtain ⟨feeBps, hfee⟩ := Option.isSome_iff_exists.mp (fees.sellerFeeBps_isSome h)
  obtain ⟨tier, htier, rfl⟩ := Option.map_eq_some_iff.mp hfee
  have hmem := List.mem_filter.mp (highestTier_mem htier)
  refine ⟨tier, ⟨hmem.1, of_decide_eq_true hmem.2, fun other hother hreached => ?_⟩, hfee⟩
  exact le_highestTier htier other (List.mem_filter.mpr ⟨hother, decide_eq_true hreached⟩)

/-! ## Margins -/

/-- The rate a resale pays: the item's own, or that of the tiers. -/
def resaleFeeBps (fees : VenueFees) (resalePriceCents : Int) (itemFeeBps : Option Int) :
    Option Int :=
  itemFeeBps.or (fees.sellerFeeBps resalePriceCents)

/-- The margin before its fees are rounded. -/
def exactMarginCents (buyPriceCents resalePriceCents buyerFeeBps sellerFeeBps : Int) : ℚ :=
  (resalePriceCents - exactFeeCents resalePriceCents sellerFeeBps)
    - (buyPriceCents + exactFeeCents buyPriceCents buyerFeeBps)

/-- What the fees and the margin of a trade come to. -/
structure ExactToTheCent (buyPriceCents resalePriceCents : Int) (buyFees : VenueFees)
    (sellFees : Option VenueFees) (sellItemFeeBps : Option Int) : Prop where
  /-- The tiers have a fee for the resale price. -/
  tier : ∃ tier, HighestReached (sellFees.getD buyFees).feeTiers resalePriceCents tier ∧
    (sellFees.getD buyFees).sellerFeeBps resalePriceCents = some tier.feeBps
  margin : ∃ feeBps sellerFee buyerFee margin,
    resaleFeeBps (sellFees.getD buyFees) resalePriceCents sellItemFeeBps = some feeBps ∧
    sellerFeeCents resalePriceCents (sellFees.getD buyFees) sellItemFeeBps = .ok sellerFee ∧
    RoundedUp resalePriceCents feeBps sellerFee ∧
    buyerFeeCents buyPriceCents buyFees = .ok buyerFee ∧
    RoundedUp buyPriceCents buyFees.buyerFeeBps buyerFee ∧
    netResaleMarginCents buyPriceCents resalePriceCents buyFees sellFees sellItemFeeBps
      = .ok margin ∧
    (margin : ℚ) ≤ exactMarginCents buyPriceCents resalePriceCents buyFees.buyerFeeBps feeBps ∧
    exactMarginCents buyPriceCents resalePriceCents buyFees.buyerFeeBps feeBps - 2 < margin

/-- The seller fee of a price that is not negative. -/
theorem sellerFeeCents_spec (fees : VenueFees) {resalePriceCents : Int}
    {itemFeeBps : Option Int} (hprice : 0 ≤ resalePriceCents)
    (hitem : ∀ feeBps, itemFeeBps = some feeBps → 0 ≤ feeBps ∧ feeBps < basisPoints) :
    ∃ feeBps fee, resaleFeeBps fees resalePriceCents itemFeeBps = some feeBps ∧
      sellerFeeCents resalePriceCents fees itemFeeBps = .ok fee ∧
      RoundedUp resalePriceCents feeBps fee := by
  cases itemFeeBps with
  | some feeBps =>
      have hfee := hitem feeBps rfl
      refine ⟨feeBps, feeRoundedUpCents resalePriceCents feeBps, rfl, ?_,
        roundedUp_feeRoundedUpCents hprice hfee⟩
      rw [sellerFeeCents, if_neg (Int.not_lt.mpr hprice)]
      exact if_pos hfee
  | none =>
      obtain ⟨tier, htier, hlookup⟩ := fees.exists_highestReached hprice
      refine ⟨tier.feeBps, feeRoundedUpCents resalePriceCents tier.feeBps, hlookup, ?_,
        roundedUp_feeRoundedUpCents hprice (fees.tierFees tier htier.mem)⟩
      rw [sellerFeeCents, if_neg (Int.not_lt.mpr hprice), hlookup]

theorem buyerFeeCents_spec (fees : VenueFees) {buyPriceCents : Int} (hprice : 0 ≤ buyPriceCents) :
    ∃ fee, buyerFeeCents buyPriceCents fees = .ok fee ∧
      RoundedUp buyPriceCents fees.buyerFeeBps fee :=
  ⟨feeRoundedUpCents buyPriceCents fees.buyerFeeBps, if_neg (Int.not_lt.mpr hprice),
    roundedUp_feeRoundedUpCents hprice fees.buyerFee⟩

theorem netResaleMarginCents_of_fees {buyPriceCents resalePriceCents sellerFee buyerFee : Int}
    {buyFees : VenueFees} {sellFees : Option VenueFees} {sellItemFeeBps : Option Int}
    (hseller : sellerFeeCents resalePriceCents (sellFees.getD buyFees) sellItemFeeBps
      = .ok sellerFee) (hbuyer : buyerFeeCents buyPriceCents buyFees = .ok buyerFee) :
    netResaleMarginCents buyPriceCents resalePriceCents buyFees sellFees sellItemFeeBps
      = .ok (resalePriceCents - sellerFee - (buyPriceCents + buyerFee)) := by
  unfold netResaleMarginCents
  dsimp only
  rw [hseller, hbuyer]
  rfl

/-- Every trade at prices that are not negative has its margin, below the exact one by less than
two cents. -/
theorem exactToTheCent (buyFees : VenueFees) (sellFees : Option VenueFees)
    {buyPriceCents resalePriceCents : Int} {sellItemFeeBps : Option Int}
    (hbuy : 0 ≤ buyPriceCents) (hresale : 0 ≤ resalePriceCents)
    (hitem : ∀ feeBps, sellItemFeeBps = some feeBps → 0 ≤ feeBps ∧ feeBps < basisPoints) :
    ExactToTheCent buyPriceCents resalePriceCents buyFees sellFees sellItemFeeBps where
  tier := (sellFees.getD buyFees).exists_highestReached hresale
  margin := by
    obtain ⟨feeBps, sellerFee, hbps, hseller, hsellerUp⟩ :=
      sellerFeeCents_spec (sellFees.getD buyFees) hresale hitem
    obtain ⟨buyerFee, hbuyer, hbuyerUp⟩ := buyerFeeCents_spec buyFees hbuy
    refine ⟨feeBps, sellerFee, buyerFee, _, hbps, hseller, hsellerUp, hbuyer, hbuyerUp,
      netResaleMarginCents_of_fees hseller hbuyer, ?_, ?_⟩
    · have := hsellerUp.exact_le
      have := hbuyerUp.exact_le
      rw [exactMarginCents]
      push_cast
      linarith
    · have := hsellerUp.lt_exact
      have := hbuyerUp.lt_exact
      rw [exactMarginCents]
      push_cast
      linarith

/-- A resale on Skinport, in the higher tier, of an item bought on Waxpeer. -/
theorem exactToTheCent_highTier :
    ExactToTheCent 90001 100001 waxpeerFees (some skinportFees) none :=
  exactToTheCent waxpeerFees (some skinportFees) (by decide) (by decide)
    fun _ h => absurd h (Option.some_ne_none _).symm

end BrandSniper
