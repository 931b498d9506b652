import BrandSniper.Listener.EdgeCache

/-!
# The edge rules engine

`apps/listener/rules_engine.py`: which rule approves an anomaly, judged by
the resale venue's baseline and sticker prices.
-/

namespace BrandSniper

open Kit

/-- Why the DRE approved an opportunity. -/
inductive ApprovalReason where
  | supportFloor
  | macroSigma
  | stickersBelowBase
  | stickerPremium
  deriving DecidableEq, Repr

def ApprovalReason.label : ApprovalReason → String
  | .supportFloor => "support_floor"
  | .macroSigma => "macro_sigma"
  | .stickersBelowBase => "stickers_below_base"
  | .stickerPremium => "sticker_premium"

def stickerValueMinCents : Int := 10000

def stickerPremiumMaxPercent : ℚ := 3

/-- The rule texts tell the rules apart. -/
theorem ApprovalReason.label_inj {a b : ApprovalReason} (h : a.label = b.label) : a = b := by
  cases a <;> cases b <;> first | rfl | (exact absurd h (by decide))

section

variable {C : Type} [EdgeCache C]

/-- The tick's baseline: that of the venue it is resold on. -/
def fetchBaseline (tick : PricedTick) (cache : C) : Option Baseline :=
  EdgeCache.hgetBaseline cache (edgeBaselinesKey (resaleVenueFor tick.venue)) tick.marketHashName

/-- Sum of the resale venue's prices of the applied stickers; an unknown one counts 0. -/
def stickerValueCents (tick : PricedTick) (cache : C) : Int :=
  let key := edgeStickerPricesKey (resaleVenueFor tick.venue)
  (tick.stickers.map fun sticker =>
    match sticker.name with
    | none => 0
    | some name =>
        if name = "" then 0 else ((EdgeCache.hgetSticker cache key name).join).getD 0).sum

/-- The 2-sigma rule, for a baseline with an average and a positive volatility. -/
def macroSigmaReached (F : FloatArith) (baseline : Baseline) (priceCents : Int) :
    Except ArithmeticError Bool :=
  match baseline.rolling30dAvgCents.get, baseline.volatilityCents.get with
  | some avg, some vol =>
      if 0 < vol then
        (F.divInts (avg - priceCents) vol).map fun sigmaDistance => decide (2 ≤ sigmaDistance)
      else .ok false
  | _, _ => .ok false

/-- The rules on the value of the stickers. -/
def stickerRules (F : FloatArith) (baseline : Baseline) (priceCents stickerCents : Int) :
    Except PyError (Option ApprovalReason) :=
  if stickerCents > stickerValueMinCents then
    match baseline.latestPriceCents.getD 0 with
    | none => .error .typeError
    | some latest => do
        let premiumCents := priceCents - latest
        if premiumCents ≤ 0 then
          return some .stickersBelowBase
        let share ← (F.divInts premiumCents stickerCents).mapError .ofArithmetic
        if F.mul share (.finite 100) ≤ .finite stickerPremiumMaxPercent then
          return some .stickerPremium
        return none
  else return none

/-- The rules in order, on a baseline. -/
def approvalRules (F : FloatArith) (tick : PricedTick) (cache : C) (baseline : Baseline) :
    Except PyError (Option ApprovalReason) :=
  match baseline.supportFloorCents.getD 0 with
  | none => .error .typeError
  | some supportFloor =>
      if (tick.priceCents : Int) ≤ supportFloor then
        return some .supportFloor
      else do
        if ← (macroSigmaReached F baseline tick.priceCents).mapError .ofArithmetic then
          return some .macroSigma
        stickerRules F baseline tick.priceCents (stickerValueCents tick cache)

/-- The rule that approves the anomaly, or `none` when it is rejected. -/
def dreApprovalReason (F : FloatArith) (tick : PricedTick) (cache : C)
    (baseline : Option Baseline) : Except PyError (Option ApprovalReason) :=
  match baseline.or (fetchBaseline tick cache) with
  | none => return none
  | some baseline => approvalRules F tick cache baseline

end

/-! ## The verdict reads the hashes only -/

variable {C D : Type} [EdgeCache C] [EdgeCache D]

theorem fetchBaseline_congr {c : C} {d : D} (h : SameHashes c d) (tick : PricedTick) :
    fetchBaseline tick c = fetchBaseline tick d :=
  h.1 _ _

theorem stickerValueCents_congr {c : C} {d : D} (h : SameHashes c d) (tick : PricedTick) :
    stickerValueCents tick c = stickerValueCents tick d := by
  simp only [stickerValueCents, h.2]

theorem dreApprovalReason_congr {c : C} {d : D} (h : SameHashes c d) (F : FloatArith)
    (tick : PricedTick) (baseline : Option Baseline) :
    dreApprovalReason F tick c baseline = dreApprovalReason F tick d baseline := by
  simp only [dreApprovalReason, approvalRules, fetchBaseline_congr h, stickerValueCents_congr h]

end BrandSniper
