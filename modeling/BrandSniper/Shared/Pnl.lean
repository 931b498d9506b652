import Mathlib.Data.List.Basic

/-!
# Fee-aware profit of a buy-then-resell trade

`shared_utils/pnl.py`: fee schedules, the venue a listing is resold on, and
the net margin. Money is integer cents and fees are integer basis points;
both fees round up to the next cent.

A `VenueFees` value carries the checks of `__post_init__`, so the tier
lookup always finds a tier for a price that is not negative
(`sellerFeeBps_isSome`).
-/

namespace BrandSniper

/-! ## Exceptions -/

/-- The exceptions the modelled functions raise. -/
inductive PyError where
  | zeroDivisionError
  | overflowError
  | indexError
  | typeError
  | valueError (message : String)
  | unknownVenueError (message : String)
  /-- Any exception of the Redis client. -/
  | redisError
  deriving DecidableEq, Repr

/-! ## Fee schedules -/

/-- `BASIS_POINTS` -/
def basisPoints : Int := 10000

/-- `SECONDS_PER_DAY` -/
def secondsPerDay : Int := 86400

/-- Seller fee that applies from `minPriceCents` on. -/
structure FeeTier where
  minPriceCents : Int
  feeBps : Int
  deriving DecidableEq, Repr

/-- Venue economics, with what `VenueFees.__post_init__` checks. -/
structure VenueFees where
  venue : String
  feeTiers : List FeeTier
  buyerFeeBps : Int
  holdSeconds : Int
  minMarginCents : Int
  /-- Some tier starts at 0 cents and none below it: `min(...) == 0`. -/
  tierAtZero : (∃ tier ∈ feeTiers, tier.minPriceCents = 0) ∧
    ∀ tier ∈ feeTiers, 0 ≤ tier.minPriceCents
  tierFees : ∀ tier ∈ feeTiers, 0 ≤ tier.feeBps ∧ tier.feeBps < basisPoints
  buyerFee : 0 ≤ buyerFeeBps ∧ buyerFeeBps < basisPoints
  holdNonneg : 0 ≤ holdSeconds
  marginNonneg : 0 ≤ minMarginCents

/-- `max(tiers, key=...)`: the first tier with the highest threshold. -/
def highestTier : List FeeTier → Option FeeTier
  | [] => none
  | tier :: rest =>
      match highestTier rest with
      | none => some tier
      | some best => if tier.minPriceCents < best.minPriceCents then some best else some tier

/-- Fee rate of the highest tier whose threshold the resale price reaches. -/
def VenueFees.sellerFeeBps (fees : VenueFees) (resalePriceCents : Int) : Option Int :=
  (highestTier (fees.feeTiers.filter fun tier => resalePriceCents ≥ tier.minPriceCents)).map
    FeeTier.feeBps

def skinportFees : VenueFees where
  venue := "skinport"
  feeTiers := [⟨0, 800⟩, ⟨100000, 600⟩]
  buyerFeeBps := 0
  holdSeconds := 7 * secondsPerDay
  minMarginCents := 0
  tierAtZero := by decide
  tierFees := by decide
  buyerFee := by decide
  holdNonneg := by decide
  marginNonneg := by decide

def waxpeerFees : VenueFees where
  venue := "waxpeer"
  feeTiers := [⟨0, 600⟩]
  buyerFeeBps := 0
  holdSeconds := 7 * secondsPerDay
  minMarginCents := 0
  tierAtZero := by decide
  tierFees := by decide
  buyerFee := by decide
  holdNonneg := by decide
  marginNonneg := by decide

def dmarketFees : VenueFees where
  venue := "dmarket"
  feeTiers := [⟨0, 1000⟩]
  buyerFeeBps := 0
  holdSeconds := 7 * secondsPerDay
  minMarginCents := 0
  tierAtZero := by decide
  tierFees := by decide
  buyerFee := by decide
  holdNonneg := by decide
  marginNonneg := by decide

/-- `VENUE_FEES` -/
def venueFees : List VenueFees := [skinportFees, waxpeerFees, dmarketFees]

/-- `RESALE_VENUES` -/
def resaleVenues : List (String × String) := [(waxpeerFees.venue, skinportFees.venue)]

/-- Fee schedule of a venue, whatever the case of its name. -/
def feesFor (venue : String) : Except PyError VenueFees :=
  match venueFees.find? (fun fees => fees.venue = venue.toLower) with
  | some fees => .ok fees
  | none => .error (.unknownVenueError
      ("No fee schedule registered for venue '" ++ venue
        ++ "' (registered: dmarket, skinport, waxpeer)"))

/-- The venue a listing bought on `venue` is scored against and resold on. -/
def resaleVenueFor (venue : String) : String :=
  (resaleVenues.lookup venue.toLower).getD venue.toLower

/-! ## Fees and margins -/

/-- `-(-price_cents * fee_bps // BASIS_POINTS)`: rounded up to the next cent. -/
def feeRoundedUpCents (priceCents feeBps : Int) : Int :=
  -(-priceCents * feeBps / basisPoints)

def sellerFeeCents (resalePriceCents : Int) (fees : VenueFees) (itemFeeBps : Option Int) :
    Except PyError Int :=
  if resalePriceCents < 0 then
    .error (.valueError "resale_price_cents must not be negative")
  else
    match itemFeeBps with
    | none =>
        match fees.sellerFeeBps resalePriceCents with
        | some feeBps => .ok (feeRoundedUpCents resalePriceCents feeBps)
        | none => .error (.valueError "max() iterable argument is empty")
    | some feeBps =>
        if 0 ≤ feeBps ∧ feeBps < basisPoints then
          .ok (feeRoundedUpCents resalePriceCents feeBps)
        else
          .error (.valueError
            ("item_fee_bps must be in [0, 10000), got " ++ toString feeBps))

def buyerFeeCents (buyPriceCents : Int) (fees : VenueFees) : Except PyError Int :=
  if buyPriceCents < 0 then
    .error (.valueError "buy_price_cents must not be negative")
  else
    .ok (feeRoundedUpCents buyPriceCents fees.buyerFeeBps)

/-- Profit from buying at `buyPriceCents` and reselling at `resalePriceCents`, after fees. -/
def netResaleMarginCents (buyPriceCents resalePriceCents : Int) (buyFees : VenueFees)
    (sellFees : Option VenueFees) (sellItemFeeBps : Option Int) : Except PyError Int := do
  let sellFees := sellFees.getD buyFees
  let sellerFee ← sellerFeeCents resalePriceCents sellFees sellItemFeeBps
  let proceedsCents := resalePriceCents - sellerFee
  let buyerFee ← buyerFeeCents buyPriceCents buyFees
  let costCents := buyPriceCents + buyerFee
  return proceedsCents - costCents

theorem highestTier_isSome {tiers : List FeeTier} (h : tiers ≠ []) :
    (highestTier tiers).isSome := by
  cases tiers with
  | nil => exact absurd rfl h
  | cons tier rest =>
      rw [highestTier]
      split
      · rfl
      · split <;> rfl

theorem highestTier_mem {tiers : List FeeTier} {tier : FeeTier} (h : highestTier tiers = some tier) :
    tier ∈ tiers := by
  induction tiers generalizing tier with
  | nil => cases h
  | cons first rest ih =>
      rw [highestTier] at h
      cases hbest : highestTier rest with
      | none =>
          rw [hbest] at h
          cases h
          exact List.mem_cons_self
      | some best =>
          rw [hbest] at h
          dsimp only at h
          split at h
          · cases h
            exact List.mem_cons_of_mem _ (ih hbest)
          · cases h
            exact List.mem_cons_self

/-- Every price that is not negative reaches some tier. -/
theorem VenueFees.sellerFeeBps_isSome (fees : VenueFees) {resalePriceCents : Int}
    (h : 0 ≤ resalePriceCents) : (fees.sellerFeeBps resalePriceCents).isSome := by
  obtain ⟨tier, htier, hzero⟩ := fees.tierAtZero.1
  have happlicable : tier ∈ fees.feeTiers.filter
      fun tier => resalePriceCents ≥ tier.minPriceCents := by
    simpa [htier, hzero] using h
  rw [sellerFeeBps, Option.isSome_map]
  exact highestTier_isSome (List.ne_nil_of_mem happlicable)

theorem VenueFees.sellerFeeBps_nonneg (fees : VenueFees) {resalePriceCents feeBps : Int}
    (h : fees.sellerFeeBps resalePriceCents = some feeBps) : 0 ≤ feeBps := by
  obtain ⟨tier, htier, rfl⟩ := Option.map_eq_some_iff.mp h
  exact (fees.tierFees tier (List.mem_of_mem_filter (highestTier_mem htier))).1

theorem feeRoundedUpCents_nonneg {priceCents feeBps : Int} (hprice : 0 ≤ priceCents)
    (hfee : 0 ≤ feeBps) : 0 ≤ feeRoundedUpCents priceCents feeBps := by
  have hmul : 0 ≤ priceCents * feeBps := Int.mul_nonneg hprice hfee
  have hfloor : -priceCents * feeBps / basisPoints ≤ 0 :=
    Int.ediv_nonpos_of_nonpos_of_neg (by rw [Int.neg_mul]; omega) (by decide)
  unfold feeRoundedUpCents
  omega

theorem sellerFeeCents_nonneg {fees : VenueFees} {resalePriceCents fee : Int}
    {itemFeeBps : Option Int} (h : sellerFeeCents resalePriceCents fees itemFeeBps = .ok fee) :
    0 ≤ fee := by
  unfold sellerFeeCents at h
  split at h
  · cases h
  · rename_i hprice
    have hprice : 0 ≤ resalePriceCents := Int.not_lt.mp hprice
    cases itemFeeBps with
    | none =>
        cases hbps : fees.sellerFeeBps resalePriceCents with
        | none =>
            rw [hbps] at h
            cases h
        | some feeBps =>
            rw [hbps] at h
            cases h
            exact feeRoundedUpCents_nonneg hprice (fees.sellerFeeBps_nonneg hbps)
    | some feeBps =>
        dsimp only at h
        split at h
        · rename_i hbps
          cases h
          exact feeRoundedUpCents_nonneg hprice hbps.1
        · cases h

theorem buyerFeeCents_nonneg {fees : VenueFees} {buyPriceCents fee : Int}
    (h : buyerFeeCents buyPriceCents fees = .ok fee) : 0 ≤ fee := by
  unfold buyerFeeCents at h
  split at h
  · cases h
  · rename_i hprice
    cases h
    exact feeRoundedUpCents_nonneg (Int.not_lt.mp hprice) fees.buyerFee.1

/-- Two item fees leave the same margin exactly if they are the same cents of the resale price. -/
theorem netResaleMarginCents_eq_iff {buyPriceCents resalePriceCents margin : Int}
    {buyFees : VenueFees} {sellFees : Option VenueFees} {itemFeeBps itemFeeBps' : Option Int}
    (h : netResaleMarginCents buyPriceCents resalePriceCents buyFees sellFees itemFeeBps
      = .ok margin) :
    netResaleMarginCents buyPriceCents resalePriceCents buyFees sellFees itemFeeBps' = .ok margin ↔
      sellerFeeCents resalePriceCents (sellFees.getD buyFees) itemFeeBps'
        = sellerFeeCents resalePriceCents (sellFees.getD buyFees) itemFeeBps := by
  unfold netResaleMarginCents at h ⊢
  dsimp only at h ⊢
  cases hseller : sellerFeeCents resalePriceCents (sellFees.getD buyFees) itemFeeBps with
  | error e =>
      rw [hseller] at h
      cases h
  | ok sellerFee =>
      cases hbuyer : buyerFeeCents buyPriceCents buyFees with
      | error e =>
          rw [hseller, hbuyer] at h
          cases h
      | ok buyerFee =>
          rw [hseller, hbuyer] at h
          cases h
          cases sellerFeeCents resalePriceCents (sellFees.getD buyFees) itemFeeBps' with
          | error e => exact iff_of_false (fun hmargin => by cases hmargin) fun hfee => by cases hfee
          | ok sellerFee' =>
              constructor
              · intro hmargin
                have hsame := Except.ok.inj hmargin
                exact congrArg Except.ok (by omega)
              · intro hfee
                cases hfee
                rfl

/-- Whatever the schedules, the fees leave no more than the difference of the prices. -/
theorem netResaleMarginCents_le {buyPriceCents resalePriceCents margin : Int} {buyFees : VenueFees}
    {sellFees : Option VenueFees} {sellItemFeeBps : Option Int}
    (h : netResaleMarginCents buyPriceCents resalePriceCents buyFees sellFees sellItemFeeBps
      = .ok margin) : margin ≤ resalePriceCents - buyPriceCents := by
  unfold netResaleMarginCents at h
  dsimp only at h
  cases hseller : sellerFeeCents resalePriceCents (sellFees.getD buyFees) sellItemFeeBps with
  | error e =>
      rw [hseller] at h
      cases h
  | ok sellerFee =>
      cases hbuyer : buyerFeeCents buyPriceCents buyFees with
      | error e =>
          rw [hseller, hbuyer] at h
          cases h
      | ok buyerFee =>
          rw [hseller, hbuyer] at h
          cases h
          have := sellerFeeCents_nonneg hseller
          have := buyerFeeCents_nonneg hbuyer
          omega

end BrandSniper
