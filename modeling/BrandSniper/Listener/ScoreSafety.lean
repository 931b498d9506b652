import Mathlib.Algebra.Order.BigOperators.Group.List
import Mathlib.Data.Finset.Max
import Mathlib.Tactic.Ring
import BrandSniper.Kit.Results
import BrandSniper.Listener.PriceWindow

/-!
# When a window can be scored

`calculate_z_score` divides by a quantity of its own in each branch: the macro
volatility, the blended deviation, or the regularised one. The macro branch is
guarded. In the other two prices that are all equal leave the mean alone to
divide by, and that is zero when all of them rounded to 0 cents (a tick of
0.004 USD passes validation) or when its product with the factor or the prior
underflows; and nothing keeps a squared deviation in the range of floats.

`HasSpread` is the condition on the prices, the baseline and the settings under
which the divisor is there and positive (`windowDivisor_pos_iff`).
-/

namespace BrandSniper

open Kit

/-! ## The divisor -/

/-- What `macroZScore` divides by. -/
def macroDivisor (F : FloatArith) (avg vol : Int) : Except ArithmeticError Double := do
  return (Double.finite vol).max (F.mul (← F.ofInt avg) (F.round (1 / 100)))

/-- What `windowZScore` divides by. -/
def windowDivisor (F : FloatArith) (S : ZScoreSettings) (history : List Int)
    (macroAvailable : Bool) (macroCv : Option ℚ) : Except ArithmeticError Double := do
  let (mean, variance) ← historyMoments F history
  let (stdDev, _) ← effectiveStdDev F S history.length mean variance macroAvailable macroCv
  return stdDev

/-- What `calculateZScore` divides by, if it computes a score. -/
def scoreDivisor (F : FloatArith) (S : ZScoreSettings) (prices : List Int)
    (macroRollingAvgCents macroVolatilityCents : Option Int) (macroCv : Option ℚ) :
    Except ArithmeticError (Option Double) :=
  let available := availableMacro S macroRollingAvgCents macroVolatilityCents
  if prices.length < S.minHistoryPoints then
    match available with
    | some (avg, vol) => (macroDivisor F avg vol).map some
    | none => .ok none
  else (windowDivisor F S prices.dropLast available.isSome macroCv).map some

/-- No score, or one with a positive divisor. -/
def ScoresSafely (F : FloatArith) (S : ZScoreSettings) (prices : List Int)
    (avg vol : Option Int) (cv : Option ℚ) : Prop :=
  ∃ score, calculateZScore F S prices avg vol cv = .ok score ∧
    (score = none ∨ ∃ divisor, scoreDivisor F S prices avg vol cv = .ok (some divisor) ∧
      .finite 0 < divisor)

/-! ## The condition -/

/-- Two of the prices differ. -/
def PricesDiffer (history : List Int) : Prop := ∃ p ∈ history, ∃ q ∈ history, p ≠ q

section
variable (D : Doubles)

/-- Cents that are a float, as `int(round(price_usd * 100))` is. -/
def IsFloat (cents : Int) : Prop := D.round cents = cents ∧ D.inRange cents = true

instance (cents : Int) : Decidable (IsFloat D cents) := inferInstanceAs (Decidable (_ ∧ _))

/-- The mean of the prices, as a float. -/
def meanPrice (history : List Int) : ℚ :=
  D.round (((history.sum : Int) : ℚ) / ((history.length : Int) : ℚ))

/-- The square of the price's deviation from the mean. -/
def deviationSquare (history : List Int) (price : Int) : ℚ :=
  D.round (D.round (price - meanPrice D history) * D.round (price - meanPrice D history))

/-- Every squared deviation is in the range of floats, and so is the number of degrees of
freedom. -/
def MomentsFit (history : List Int) : Prop :=
  D.inRange (D.round (history.length - 1 : Int)) = true ∧
    ∀ price ∈ history, D.inRange (deviationSquare D history price) = true

/-- The share of the prior in the variance of equal prices. -/
def priorShare (S : ZScoreSettings) (history : List Int) (cv : ℚ) (price : Int) :
    Except ArithmeticError Double := do
  let prior ← D.square (D.mul (.finite price) (.finite cv))
  D.div (D.mul S.macroPriorWeight prior)
    (D.add (D.round (history.length : Int)) S.macroPriorWeight)

/-- The sample variance of the prices. -/
def sampleVariance (history : List Int) : Except ArithmeticError Double :=
  if 1 < history.length then
    D.div (D.sumFloats ((history.map (deviationSquare D history)).map .finite))
      (.finite (D.round (history.length - 1 : Int)))
  else .ok (.finite 0)

/-- The weighted sum of the variance and the prior over the sum of the weights is above zero. A
negative weight is the only case that looks at it. -/
def WeightsAgree (S : ZScoreSettings) (history : List Int) (prior : Double) : Prop :=
  ∃ variance quotient, sampleVariance D history = .ok variance ∧
    D.div (D.add (D.mul (D.round (history.length : Int)) variance) (D.mul S.macroPriorWeight prior))
      (D.add (D.round (history.length : Int)) S.macroPriorWeight) = .ok quotient ∧
    .finite 0 < quotient

/-- With a prior: the number of prices and the square of `mean * cv` fit a float; with a weight
that is not negative the sum of the weights is finite, and the prices differ or the prior's share
of the variance does not underflow. -/
def PriorSpread (S : ZScoreSettings) (history : List Int) (cv : ℚ) : Prop :=
  D.inRange (D.round (history.length : Int)) = true ∧
  ∃ prior, D.square (D.mul (.finite (meanPrice D history)) (.finite cv)) = .ok prior ∧
    if S.macroPriorWeight < 0 then WeightsAgree D S history prior
    else (S.macroPriorWeight = 0 → prior ≠ .infinite false) ∧
      (∃ weights, D.add (D.round (history.length : Int)) S.macroPriorWeight = .finite weights) ∧
      (PricesDiffer history ∨ ∃ price ∈ history, ∃ share,
        priorShare D S history cv price = .ok share ∧ .finite 0 < share)

/-- The prices before the newest give something to measure it in. -/
def HasSpread (S : ZScoreSettings) (history : List Int) (macroAvailable : Bool)
    (macroCv : Option ℚ) : Prop :=
  MomentsFit D history ∧
    match macroAvailable, macroCv.filter (fun cv => 0 < cv) with
    | true, some cv => PriorSpread D S history cv
    | _, _ => PricesDiffer history ∨ ∃ price ∈ history,
        .finite 0 < D.mul (.finite price) (.finite S.minStdDevFactor)

/-- The window is scored: a short one by a baseline whose average fits a float, or not at all, a
longer one by prices with spread. -/
def CanScore (S : ZScoreSettings) (prices : List Int) (avg? vol? : Option Int) (cv : Option ℚ) :
    Prop :=
  prices ≠ [] ∧
    if prices.length < S.minHistoryPoints then
      ∀ avg vol, availableMacro S avg? vol? = some (avg, vol) → D.inRange (D.round avg) = true
    else HasSpread D S prices.dropLast (availableMacro S avg? vol?).isSome cv

end

/-! ## Mean and deviations -/

section
variable {D : Doubles} {history : List Int}

theorem IsFloat.ofInt {n : Int} (h : IsFloat D n) : D.ofInt n = .ok (n : ℚ) := by
  rw [FloatArith.ofInt, h.1, if_pos h.2]

theorem IsFloat.inRange {n : Int} (h : IsFloat D n) : D.inRange (D.round n) = true := by
  rw [h.1, h.2]

theorem exists_highest (hne : history ≠ []) : ∃ top ∈ history, ∀ x ∈ history, x ≤ top := by
  obtain ⟨top, htop, hle⟩ := history.toFinset.exists_max_image id
    (List.toFinset_nonempty_iff history |>.mpr hne)
  exact ⟨top, List.mem_toFinset.mp htop, fun x hx => hle x (List.mem_toFinset.mpr hx)⟩

theorem length_pos_cast (hne : history ≠ []) : (0 : ℚ) < ((history.length : Int) : ℚ) := by
  rw [Int.cast_natCast, Nat.cast_pos]
  exact List.length_pos_iff.mpr hne

variable (hne : history ≠ []) (hnonneg : ∀ x ∈ history, 0 ≤ x)
  (hfloat : ∀ x ∈ history, IsFloat D x)

include hnonneg in
theorem meanPrice_nonneg : 0 ≤ meanPrice D history := by
  apply Doubles.round_nonneg
  apply div_nonneg
  · exact_mod_cast List.sum_nonneg hnonneg
  · exact_mod_cast Int.natCast_nonneg history.length

include hne hfloat in
/-- The mean is no higher than the highest price. -/
theorem meanPrice_le {top : Int} (htop : top ∈ history) (hle : ∀ x ∈ history, x ≤ top) :
    meanPrice D history ≤ top := by
  have hsum : history.sum ≤ history.length • top := List.sum_le_card_nsmul history top hle
  rw [nsmul_eq_mul] at hsum
  have hquotient : ((history.sum : Int) : ℚ) / ((history.length : Int) : ℚ) ≤ top := by
    rw [div_le_iff₀ (length_pos_cast hne), mul_comm]
    exact_mod_cast hsum
  rw [← (hfloat top htop).1]
  exact D.round_mono _ _ hquotient

include hne hnonneg hfloat in
theorem inRange_meanPrice : D.inRange (meanPrice D history) = true := by
  obtain ⟨top, htop, hle⟩ := exists_highest hne
  have hmean := meanPrice_le hne hfloat htop hle
  have hzero := meanPrice_nonneg (D := D) hnonneg
  have hround : D.round (meanPrice D history) = meanPrice D history := D.round_round _
  rw [← hround]
  exact Doubles.inRange_round_of_le (hfloat top htop).inRange (abs_le.mpr ⟨by linarith, hmean⟩)

include hne hnonneg hfloat in
/-- A deviation never passes the range: it lies between two prices. -/
theorem sub_meanPrice {x : Int} (hx : x ∈ history) :
    D.sub (.finite x) (.finite (meanPrice D history))
      = .finite (D.round (x - meanPrice D history)) := by
  obtain ⟨top, htop, hle⟩ := exists_highest hne
  have hmean := meanPrice_le hne hfloat htop hle
  have hzero := meanPrice_nonneg (D := D) hnonneg
  have hx0 : (0 : ℚ) ≤ x := by exact_mod_cast hnonneg x hx
  have hxtop : (x : ℚ) ≤ top := by exact_mod_cast hle x hx
  have hbound : |(x : ℚ) - meanPrice D history| ≤ top := by
    rw [abs_le]
    constructor <;> linarith
  exact if_pos (Doubles.inRange_round_of_le (hfloat top htop).inRange hbound)

include hne hnonneg hfloat in
theorem squaredDeviation_eq {x : Int} (hx : x ∈ history) :
    squaredDeviation D.toFloatArith (meanPrice D history) x
      = if D.inRange (deviationSquare D history x) then .ok (.finite (deviationSquare D history x))
        else .error .overflowError := by
  have hdeviation := sub_meanPrice hne hnonneg hfloat hx
  simp only [squaredDeviation, (hfloat x hx).ofInt, bind, Except.bind, hdeviation]
  rfl

theorem deviationSquare_nonneg (x : Int) : 0 ≤ deviationSquare D history x :=
  Doubles.round_nonneg (mul_self_nonneg _)

/-! ### Equal prices -/

include hne hfloat in
/-- Equal prices are the mean: a price is a float. -/
theorem meanPrice_of_equal (hequal : ¬ PricesDiffer history) {x : Int} (hx : x ∈ history) :
    meanPrice D history = x := by
  have hall : ∀ q ∈ history, q = x := by
    intro q hq
    by_contra hdiffer
    exact hequal ⟨q, hq, x, hx, hdiffer⟩
  have hsum : history.sum = history.length * x := by
    conv_lhs => rw [List.eq_replicate_of_mem hall]
    rw [List.sum_replicate, nsmul_eq_mul]
  rw [meanPrice, hsum, Int.cast_mul, mul_div_cancel_left₀ _ (length_pos_cast hne).ne']
  exact (hfloat x hx).1

include hne hfloat in
theorem deviationSquare_of_equal (hequal : ¬ PricesDiffer history) {x : Int} (hx : x ∈ history) :
    deviationSquare D history x = 0 := by
  rw [deviationSquare, meanPrice_of_equal hne hfloat hequal hx, sub_self, D.round_zero, mul_zero,
    D.round_zero]

/-! ### Prices that differ -/

theorem one_lt_length_of_differ (h : PricesDiffer history) : 1 < history.length := by
  obtain ⟨p, hp, q, hq, hne⟩ := h
  by_contra hle
  obtain ⟨x, rfl⟩ : ∃ x, history = [x] := by
    apply List.length_eq_one_iff.mp
    have := List.length_pos_of_mem hp
    omega
  exact hne ((List.mem_singleton.mp hp).trans (List.mem_singleton.mp hq).symm)

/-- One of two whole numbers is at least a half away from the mean, so its square is at least a
quarter. -/
theorem exists_deviationSquare (h : PricesDiffer history) :
    ∃ x ∈ history, 2 ^ (-2 : Int) ≤ deviationSquare D history x := by
  have hfar : ∃ x ∈ history, (2 : ℚ) ^ (-1 : Int) ≤ |(x : ℚ) - meanPrice D history| := by
    obtain ⟨p, hp, q, hq, hne⟩ := h
    by_contra hnear
    push Not at hnear
    have hp' := hnear p hp
    have hq' := hnear q hq
    have hone : (1 : ℚ) ≤ |(p : ℚ) - q| := by exact_mod_cast Int.one_le_abs (sub_ne_zero.mpr hne)
    have htriangle := abs_sub_le (p : ℚ) (meanPrice D history) q
    rw [abs_sub_comm (meanPrice D history) (q : ℚ)] at htriangle
    norm_num at hp' hq'
    linarith
  obtain ⟨x, hx, hle⟩ := hfar
  refine ⟨x, hx, ?_⟩
  have hround : (2 : ℚ) ^ (-1 : Int) ≤ |D.round (x - meanPrice D history)| := by
    rcases abs_cases ((x : ℚ) - meanPrice D history) with ⟨heq, -⟩ | ⟨heq, -⟩
    · rw [heq] at hle
      exact (Doubles.two_zpow_le_round hle (by decide)).trans (le_abs_self _)
    · rw [heq] at hle
      have hneg := Doubles.two_zpow_le_round (D := D) hle (by decide)
      rw [D.round_neg] at hneg
      exact hneg.trans (neg_le_abs _)
  apply Doubles.two_zpow_le_round _ (by decide)
  rw [← abs_mul_abs_self, show (2 : ℚ) ^ (-2 : Int) = 2 ^ (-1 : Int) * 2 ^ (-1 : Int) by norm_num]
  exact mul_self_le_mul_self (by positivity) hround

/-! ## Mean and variance -/

include hne hnonneg hfloat in
/-- The mean is there, and the variance is the sum of the squares over the degrees of freedom. -/
theorem historyMoments_eq : historyMoments D.toFloatArith history =
    if 1 < (history.length : Int) then do
      let squares ← history.mapM (squaredDeviation D.toFloatArith (meanPrice D history))
      let freedom ← D.ofInt (history.length - 1)
      return (meanPrice D history, ← D.div (D.sumFloats squares) (.finite freedom))
    else .ok (meanPrice D history, .finite 0) := by
  have hlength : (history.length : Int) ≠ 0 := by
    rw [ne_eq, Int.natCast_eq_zero]
    exact mt List.length_eq_zero_iff.mp hne
  have hmean : D.divInts history.sum (history.length : Int) = .ok (meanPrice D history) := by
    rw [FloatArith.divInts, if_neg hlength]
    exact if_pos (inRange_meanPrice hne hnonneg hfloat)
  simp only [historyMoments, hmean, bind, Except.bind, pure, Except.pure]

include hne hnonneg hfloat in
theorem mapM_squaredDeviation (hfit : MomentsFit D history) :
    history.mapM (squaredDeviation D.toFloatArith (meanPrice D history))
      = .ok ((history.map (deviationSquare D history)).map .finite) := by
  rw [List.map_map]
  apply mapM_eq_ok
  intro x hx
  rw [squaredDeviation_eq hne hnonneg hfloat hx, if_pos (hfit.2 x hx)]
  rfl

include hne hnonneg hfloat in
/-- Nothing else can raise on the way to the moments. -/
theorem momentsFit_of_ok {moments : ℚ × Double}
    (h : historyMoments D.toFloatArith history = .ok moments) : MomentsFit D history := by
  have hzero : D.inRange 0 = true :=
    Doubles.inRange_of_le (k := 0) (by norm_num) (by decide)
  rw [historyMoments_eq hne hnonneg hfloat] at h
  split_ifs at h with hone
  · obtain ⟨squares, hsquares, h⟩ := bind_eq_ok h
    obtain ⟨freedom, hfreedom, -⟩ := bind_eq_ok h
    constructor
    · unfold FloatArith.ofInt at hfreedom
      split at hfreedom
      · assumption
      · cases hfreedom
    · intro x hx
      obtain ⟨square, -, hok⟩ := exists_of_mapM_ok hsquares hx
      rw [squaredDeviation_eq hne hnonneg hfloat hx] at hok
      split at hok
      · assumption
      · cases hok
  · have hequal : ¬ PricesDiffer history := by
      intro hdiffer
      have := one_lt_length_of_differ hdiffer
      omega
    have hlength : (history.length : Int) - 1 = 0 := by
      have := List.length_pos_iff.mpr hne
      omega
    refine ⟨by rw [hlength, Int.cast_zero, D.round_zero, hzero], fun x hx => ?_⟩
    rw [deviationSquare_of_equal hne hfloat hequal hx, hzero]

/-- The number of prices in a binade that the floats have. -/
theorem exists_binade (hne : history ≠ []) (hfit : MomentsFit D history) :
    ∃ k : Nat, k ≤ maxExponent ∧ 2 ^ k ≤ history.length ∧ history.length < 2 ^ (k + 1) := by
  have hpos : history.length ≠ 0 := mt List.length_eq_zero_iff.mp hne
  refine ⟨history.length.log2, ?_, Nat.log2_self_le hpos, Nat.lt_log2_self⟩
  have hle : history.length - 1 < 2 ^ maxExponent := by
    by_contra hlarge
    have hcast : (2 : ℚ) ^ maxExponent ≤ ((history.length - 1 : Int) : ℚ) := by
      have : (2 ^ maxExponent : Int) ≤ (history.length - 1 : Int) := by
        have := not_lt.mp hlarge
        have hcast : ((2 ^ maxExponent : Nat) : Int) ≤ ((history.length - 1 : Nat) : Int) :=
          Int.ofNat_le.mpr this
        push_cast at hcast
        omega
      exact_mod_cast this
    have hround := D.round_mono _ _ hcast
    rw [D.round_two_pow] at hround
    have hin := hfit.1
    rw [D.inRange_eq, decide_eq_true_iff] at hin
    exact absurd ((hround.trans (le_abs_self _)).trans_lt hin) (lt_irrefl _)
  have hlt : history.length.log2 < maxExponent + 1 := by
    rw [Nat.log2_lt hpos]
    have : 2 ^ maxExponent < 2 ^ (maxExponent + 1) := Nat.pow_lt_pow_right (by decide) (by omega)
    omega
  omega

/-- What is known of the variance: with prices that differ it is at least an eighth over the
number of prices, else it is zero. -/
structure VarianceSpec (D : Doubles) (history : List Int) (variance : Double) : Prop where
  sample : sampleVariance D history = .ok variance
  differ : PricesDiffer history → ∃ k : Nat, k ≤ maxExponent ∧ 2 ^ k ≤ history.length ∧
    history.length < 2 ^ (k + 1) ∧ .finite (2 ^ (-3 - ((k : Int) + 1))) ≤ variance
  equal : ¬ PricesDiffer history → variance = .finite 0

include hne hnonneg hfloat in
theorem historyMoments_spec (hfit : MomentsFit D history) :
    ∃ variance, historyMoments D.toFloatArith history = .ok (meanPrice D history, variance) ∧
      VarianceSpec D history variance ∧
      ∃ root, D.mathSqrt variance = .ok root ∧ .finite 0 ≤ root ∧
        (.finite 0 < root ↔ PricesDiffer history) := by
  rw [historyMoments_eq hne hnonneg hfloat, mapM_squaredDeviation hne hnonneg hfloat hfit,
    FloatArith.ofInt, if_pos hfit.1]
  by_cases hdiffer : PricesDiffer history
  · have hone : 1 < (history.length : Int) := by exact_mod_cast one_lt_length_of_differ hdiffer
    obtain ⟨k, hk, hlow, hhigh⟩ := exists_binade hne hfit
    have hfreedom : (1 : ℚ) ≤ ((history.length - 1 : Int) : ℚ) := by
      have : (1 : Int) ≤ history.length - 1 := by omega
      exact_mod_cast this
    have hbelow : ((history.length - 1 : Int) : ℚ) ≤ 2 ^ ((k : Int) + 1) := by
      have : (history.length : ℚ) ≤ 2 ^ (k + 1) := by exact_mod_cast hhigh.le
      rw [show (k : Int) + 1 = ((k + 1 : Nat) : Int) from rfl, zpow_natCast]
      push_cast
      linarith
    have hsum : .finite (2 ^ (-3 : Int)) ≤
        D.sumFloats ((history.map (deviationSquare D history)).map .finite) := by
      obtain ⟨x, hx, hle⟩ := exists_deviationSquare (D := D) hdiffer
      apply Doubles.le_sumFloats (k := -2) (by decide)
      · intro q hq
        obtain ⟨y, -, rfl⟩ := List.mem_map.mp hq
        exact deviationSquare_nonneg y
      · exact ⟨_, List.mem_map_of_mem hx, hle⟩
    have hexponent : minExponent ≤ -3 - ((k : Int) + 1) := by
      rw [maxExponent] at hk
      rw [minExponent]
      omega
    have hpos := zero_lt_one.trans_le (Doubles.one_le_round (D := D) hfreedom)
    obtain ⟨variance, hdiv, hle⟩ := Doubles.le_div hsum hpos
      (Doubles.round_le_two_zpow hbelow (by rw [minExponent]; omega)) hexponent
    obtain ⟨root, hroot, hrootpos⟩ := (Doubles.mathSqrt_pos_iff hdiv).mpr
      (Double.finite_lt_of_le (zpow_pos (by norm_num) _) hle)
    refine ⟨variance, ?_, ⟨?_, fun _ => ⟨k, hk, hlow, hhigh, hle⟩, fun h => absurd hdiffer h⟩,
      root, hroot, Double.le_of_finite_lt hrootpos, iff_of_true hrootpos hdiffer⟩
    · rw [if_pos hone]
      simp only [bind, Except.bind, hdiv, pure, Except.pure]
    · rw [sampleVariance, if_pos (one_lt_length_of_differ hdiffer), hdiv]
  · have hzeros : history.map (deviationSquare D history) = List.replicate history.length 0 := by
      apply List.eq_replicate_iff.mpr
      refine ⟨List.length_map _, fun q hq => ?_⟩
      obtain ⟨x, hx, rfl⟩ := List.mem_map.mp hq
      exact deviationSquare_of_equal hne hfloat hdiffer hx
    have hdiv : 1 < history.length → D.div (D.sumFloats ((history.map
        (deviationSquare D history)).map .finite)) (.finite (D.round (history.length - 1 : Int)))
          = .ok (.finite 0) := by
      intro hone
      have hfreedom : (1 : ℚ) ≤ ((history.length - 1 : Int) : ℚ) := by
        have : (1 : Int) ≤ history.length - 1 := by omega
        exact_mod_cast this
      have hpos := zero_lt_one.trans_le (Doubles.one_le_round (D := D) hfreedom)
      rw [hzeros, Doubles.sumFloats_zero, Doubles.zero_div_finite hpos.ne']
    refine ⟨.finite 0, ?_, ⟨?_, fun h => absurd h hdiffer, fun _ => rfl⟩, .finite 0,
      Doubles.mathSqrt_zero D, by simp, by simpa using hdiffer⟩
    · split_ifs with hone
      · simp only [bind, Except.bind, hdiv (by omega), pure, Except.pure]
      · rfl
    · rw [sampleVariance]
      split_ifs with hone
      · exact hdiv hone
      · rfl

/-! ## The divisor is positive -/

variable {S : ZScoreSettings}

/-- With a newest price that fits a float, only a divisor that is missing or zero raises. -/
theorem windowZScore_ok_iff {current : Int} (hcurrent : IsFloat D current) {available : Bool}
    {cv : Option ℚ} :
    (∃ score, windowZScore D.toFloatArith S history current available cv = .ok score)
      ↔ ∃ divisor, windowDivisor D.toFloatArith S history available cv = .ok divisor ∧
        divisor ≠ .finite 0 := by
  unfold windowZScore windowDivisor
  cases historyMoments D.toFloatArith history with
  | error e => simp [bind, Except.bind]
  | ok moments =>
      obtain ⟨mean, variance⟩ := moments
      cases hdev : effectiveStdDev D.toFloatArith S history.length mean variance available cv with
      | error e => simp [bind, Except.bind, hdev]
      | ok dev =>
          obtain ⟨stdDev, source⟩ := dev
          have hdiv := div_error_iff D.toFloatArith (D.sub (.finite current) (.finite mean)) stdDev
          simp only [bind, Except.bind, hdev, hcurrent.ofInt, pure, Except.pure, Except.ok.injEq,
            exists_eq_left', ne_eq, ← hdiv]
          cases D.div (D.sub (.finite current) (.finite mean)) stdDev <;> simp

/-! ### Without a prior -/

include hne hfloat in
/-- The regularised divisor is positive when the prices differ, or when their mean counts. -/
theorem regularised_pos_iff {root : Double} (hroot : .finite 0 ≤ root)
    (hrootpos : .finite 0 < root ↔ PricesDiffer history) :
    .finite 0 < root.max (D.mul (.finite (meanPrice D history)) (.finite S.minStdDevFactor)) ↔
      PricesDiffer history ∨ ∃ price ∈ history,
        .finite 0 < D.mul (.finite price) (.finite S.minStdDevFactor) := by
  rw [Double.max_pos_iff hroot, hrootpos]
  by_cases hdiffer : PricesDiffer history
  · exact iff_of_true (.inl hdiffer) (.inl hdiffer)
  · simp only [hdiffer, false_or]
    constructor
    · intro hpos
      obtain ⟨x, hx⟩ := List.exists_mem_of_ne_nil history hne
      rw [meanPrice_of_equal hne hfloat hdiffer hx] at hpos
      exact ⟨x, hx, hpos⟩
    · rintro ⟨x, hx, hpos⟩
      rwa [meanPrice_of_equal hne hfloat hdiffer hx]

/-! ### With a prior -/

/-- A positive quotient has finite weights, and no infinite prior of weight zero. -/
theorem of_blended_pos {count : ℚ} {other prior quotient : Double}
    (h : D.div (D.add other (D.mul S.macroPriorWeight prior)) (D.add count S.macroPriorWeight)
      = .ok quotient) (hpos : .finite 0 < quotient) :
    (S.macroPriorWeight = 0 → prior ≠ .infinite false) ∧
      ∃ weights, D.add count S.macroPriorWeight = .finite weights := by
  obtain ⟨hnumber, hweights⟩ := Doubles.div_pos_cases h hpos
  refine ⟨?_, hweights⟩
  rintro hzero rfl
  apply hnumber
  rw [hzero]
  cases other <;> rfl

include hne in
/-- Prices that differ outweigh everything that is divided by. -/
theorem blended_pos_of_differ (hweight : 0 ≤ S.macroPriorWeight) {variance prior : Double}
    (hvariance : VarianceSpec D history variance) (hdiffer : PricesDiffer history)
    (hprior : .finite 0 ≤ prior) (hinfinite : S.macroPriorWeight = 0 → prior ≠ .infinite false)
    {weights : ℚ} (hweights : D.add (D.round (history.length : Int)) S.macroPriorWeight
      = .finite weights) :
    ∃ quotient, D.div (D.add (D.mul (D.round (history.length : Int)) variance)
      (D.mul S.macroPriorWeight prior)) (.finite weights) = .ok quotient ∧
      .finite 0 < quotient := by
  obtain ⟨k, hk, hlow, -, hle⟩ := hvariance.differ hdiffer
  have hcount : (2 : ℚ) ^ (k : Int) ≤ D.round ((history.length : Int) : ℚ) := by
    apply Doubles.two_zpow_le_round _ (by rw [minExponent]; omega)
    rw [zpow_natCast, Int.cast_natCast]
    exact_mod_cast hlow
  have hproduct := Doubles.le_mul (D := D) (Double.finite_le_finite.mpr hcount) hle
    (by rw [minExponent]; omega)
  rw [show (k : Int) + (-3 - ((k : Int) + 1)) = -4 by ring] at hproduct
  have hweighted := Doubles.nonneg_mul (D := D) hweight hprior hinfinite
  have hsum := Doubles.le_add (D := D) hproduct hweighted (by decide)
  have hone : (1 : ℚ) ≤ D.round ((history.length : Int) : ℚ) := by
    apply Doubles.one_le_round
    have : (1 : Int) ≤ history.length := by
      have := List.length_pos_iff.mpr hne
      omega
    exact_mod_cast this
  obtain ⟨hpos, hbelow⟩ : 0 < weights ∧ weights ≤ 2 ^ (maxExponent : Int) := by
    unfold FloatArith.add FloatArith.ofRat at hweights
    dsimp only at hweights
    split at hweights
    · rename_i hin
      cases hweights
      rw [D.inRange_eq, decide_eq_true_iff] at hin
      rw [zpow_natCast]
      exact ⟨zero_lt_one.trans_le (Doubles.one_le_round (by linarith)),
        (le_abs_self _).trans hin.le⟩
    · cases hweights
  obtain ⟨quotient, hquotient, hlarge⟩ := Doubles.le_div hsum hpos hbelow (by decide)
  exact ⟨quotient, hquotient, Double.finite_lt_of_le (zpow_pos (by norm_num) _) hlarge⟩

include hne hfloat in
/-- The blended deviation is there and positive exactly when the history has spread. -/
theorem blendedStdDev_pos_iff {variance : Double} (hvariance : VarianceSpec D history variance)
    (cv : ℚ) :
    (∃ divisor, blendedStdDev D.toFloatArith S history.length (meanPrice D history) variance cv
      = .ok divisor ∧ .finite 0 < divisor) ↔ PriorSpread D S history cv := by
  unfold blendedStdDev PriorSpread
  cases hcount : D.inRange (D.round (history.length : Int)) with
  | false =>
      have hparts : blendedParts D.toFloatArith S history.length (meanPrice D history) variance cv
          = .error .overflowError := by
        simp only [blendedParts, FloatArith.ofInt, hcount, bind, Except.bind, Bool.false_eq_true,
          if_false]
      rw [hparts]
      simp [bind, Except.bind]
  | true =>
      cases hprior : D.square (D.mul (.finite (meanPrice D history)) (.finite cv)) with
      | error e =>
          have hparts : blendedParts D.toFloatArith S history.length (meanPrice D history)
              variance cv = .error e := by
            simp only [blendedParts, FloatArith.ofInt, hcount, hprior, if_true, bind, Except.bind]
          rw [hparts]
          simp [bind, Except.bind]
      | ok prior =>
          have hparts : blendedParts D.toFloatArith S history.length (meanPrice D history)
              variance cv = .ok (D.add (D.mul (D.round (history.length : Int)) variance)
                  (D.mul S.macroPriorWeight prior),
                D.add (D.round (history.length : Int)) S.macroPriorWeight) := by
            simp only [blendedParts, FloatArith.ofInt, hcount, hprior, if_true, bind, Except.bind,
              pure, Except.pure]
          rw [hparts]
          show (∃ divisor, (D.div _ _ >>= D.mathSqrt) = .ok divisor ∧ _) ↔ _
          rw [Doubles.mathSqrt_div_pos_iff]
          simp only [true_and, Except.ok.injEq, exists_eq_left']
          split
          · constructor
            · rintro ⟨quotient, hquotient, hpos⟩
              exact ⟨variance, quotient, hvariance.sample, hquotient, hpos⟩
            · rintro ⟨variance', quotient, hsample, hquotient, hpos⟩
              rw [hvariance.sample] at hsample
              cases hsample
              exact ⟨quotient, hquotient, hpos⟩
          · rename_i hweight
            by_cases hdiffer : PricesDiffer history
            · constructor
              · rintro ⟨quotient, hquotient, hpos⟩
                obtain ⟨hinfinite, hweights⟩ := of_blended_pos hquotient hpos
                exact ⟨hinfinite, hweights, .inl hdiffer⟩
              · rintro ⟨hinfinite, ⟨weights, hweights⟩, -⟩
                rw [hweights]
                exact blended_pos_of_differ hne (not_lt.mp hweight) hvariance hdiffer
                  (Doubles.square_nonneg hprior) hinfinite hweights
            · have hshare : ∀ x ∈ history, priorShare D S history cv x
                  = D.div (D.mul S.macroPriorWeight prior)
                    (D.add (D.round (history.length : Int)) S.macroPriorWeight) := by
                intro x hx
                rw [meanPrice_of_equal hne hfloat hdiffer hx] at hprior
                simp only [priorShare, hprior, bind, Except.bind]
              rw [hvariance.equal hdiffer, Doubles.mul_zero_finite, Doubles.zero_add_mul]
              constructor
              · rintro ⟨quotient, hquotient, hpos⟩
                obtain ⟨x, hx⟩ := List.exists_mem_of_ne_nil history hne
                rw [← Doubles.zero_add_mul] at hquotient
                obtain ⟨hinfinite, hweights⟩ := of_blended_pos hquotient hpos
                rw [Doubles.zero_add_mul] at hquotient
                exact ⟨hinfinite, hweights, .inr ⟨x, hx, quotient, (hshare x hx).trans hquotient,
                  hpos⟩⟩
              · rintro ⟨-, -, hdiffer' | ⟨x, hx, quotient, hquotient, hpos⟩⟩
                · exact absurd hdiffer' hdiffer
                · exact ⟨quotient, (hshare x hx).symm.trans hquotient, hpos⟩

include hne hnonneg hfloat in
/-- The divisor of a window is there and positive exactly when its history has spread. -/
theorem windowDivisor_pos_iff (available : Bool) (cv? : Option ℚ) :
    (∃ divisor, windowDivisor D.toFloatArith S history available cv? = .ok divisor ∧
      .finite 0 < divisor) ↔ HasSpread D S history available cv? := by
  unfold windowDivisor HasSpread
  by_cases hfit : MomentsFit D history
  · obtain ⟨variance, hmoments, hvariance, root, hroot, hnonnegRoot, hrootpos⟩ :=
      historyMoments_spec hne hnonneg hfloat hfit
    have hlocal := regularised_pos_iff (S := S) hne hfloat hnonnegRoot hrootpos
    have hblended := blendedStdDev_pos_iff (S := S) hne hfloat hvariance
    simp only [hmoments, hfit, true_and, effectiveStdDev, hroot, bind, Except.bind, pure,
      Except.pure]
    cases hcv? : cv?.filter (fun cv => 0 < cv) with
    | none => cases available <;> simpa using hlocal
    | some cv =>
        cases available with
        | false => simpa using hlocal
        | true =>
            dsimp only
            rw [← hblended cv]
            cases blendedStdDev D.toFloatArith S history.length (meanPrice D history) variance
              cv <;> simp
  · refine iff_of_false ?_ fun h => hfit h.1
    rintro ⟨divisor, hdivisor, -⟩
    obtain ⟨moments, hmoments, -⟩ := bind_eq_ok hdivisor
    exact hfit (momentsFit_of_ok hne hnonneg hfloat hmoments)

/-! ## When a score is safe -/

/-- With a newest price that fits a float, a macro score is refused for its average only. -/
theorem macroOverflows_iff {current avg vol : Int} (hcurrent : IsFloat D current)
    (hnonneg : 0 ≤ current) (havg : 0 < avg) (hvol : 0 < vol) :
    MacroOverflows D.toFloatArith current avg vol ↔ D.inRange (D.round avg) = false := by
  unfold MacroOverflows
  cases hin : D.inRange (D.round avg) with
  | false => simp
  | true =>
      have hcurrent0 : (0 : ℚ) ≤ current := by exact_mod_cast hnonneg
      have havg0 : (0 : ℚ) < avg := by exact_mod_cast havg
      have hinRange : ∀ q : ℚ, |q| ≤ |((current - avg : Int) : ℚ)| →
          D.inRange (D.round q) = true := by
        intro q hq
        rw [Int.cast_sub] at hq
        rcases le_total (avg : ℚ) current with hle | hle
        · apply Doubles.inRange_round_of_le hcurrent.inRange (hq.trans _)
          rw [abs_le]
          constructor <;> linarith
        · apply Doubles.inRange_round_of_le hin (hq.trans _)
          rw [abs_le]
          constructor <;> linarith
      rw [hinRange _ le_rfl, hinRange _ (Doubles.abs_div_int_le hvol)]
      simp

/-- A window too short to be measured against is scored by the baseline, or not at all. -/
theorem scoresSafely_short {prices : List Int} (hne : prices ≠ [])
    (hnonneg : ∀ p ∈ prices, 0 ≤ p) (hfloat : ∀ p ∈ prices, IsFloat D p)
    (hshort : prices.length < S.minHistoryPoints) (avg? vol? : Option Int) (cv : Option ℚ) :
    ScoresSafely D.toFloatArith S prices avg? vol? cv ↔
      ∀ avg vol, availableMacro S avg? vol? = some (avg, vol) → D.inRange (D.round avg) = true := by
  have hcurrent := List.getLast?_eq_some_getLast hne
  have hlast := List.getLast_mem hne
  cases hmacro : availableMacro S avg? vol? with
  | none =>
      refine iff_of_true ⟨none, ?_, .inl rfl⟩ (by simp)
      simp only [calculateZScore, currentTickPrice, hcurrent, if_pos hshort, hmacro]
  | some baseline =>
      obtain ⟨avg, vol⟩ := baseline
      obtain ⟨hvol, havg⟩ := availableMacro_pos hmacro
      have herror := (macroZScore_error_iff D.toFloatArith (prices.getLast hne) avg vol hvol).trans
        (macroOverflows_iff (hfloat _ hlast) (hnonneg _ hlast) havg hvol)
      have hscores : calculateZScore D.toFloatArith S prices avg? vol? cv
          = ((macroZScore D.toFloatArith (prices.getLast hne) avg vol).map some).mapError
            .ofArithmetic := by
        simp only [calculateZScore, currentTickPrice, hcurrent, if_pos hshort, hmacro]
      have hdivides : scoreDivisor D.toFloatArith S prices avg? vol? cv
          = (macroDivisor D.toFloatArith avg vol).map some := by
        simp only [scoreDivisor, if_pos hshort, hmacro]
      cases hin : D.inRange (D.round avg) with
      | false =>
          obtain ⟨e, he⟩ := herror.mpr hin
          refine iff_of_false ?_ fun h => absurd (h avg vol rfl) (by simp [hin])
          rintro ⟨score, hscore, -⟩
          rw [hscores, he] at hscore
          cases hscore
      | true =>
          refine iff_of_true ?_ ?_
          · cases hz : macroZScore D.toFloatArith (prices.getLast hne) avg vol with
            | error e => exact absurd (herror.mp ⟨e, hz⟩) (by simp [hin])
            | ok score =>
                have hpos : (0 : ℚ) < vol := by exact_mod_cast hvol
                have hdivisor : macroDivisor D.toFloatArith avg vol = .ok
                    ((Double.finite vol).max (D.mul (D.round avg) (D.round (1 / 100)))) := by
                  rw [macroDivisor, FloatArith.ofInt, if_pos hin]
                  rfl
                refine ⟨some score, by rw [hscores, hz]; rfl,
                  .inr ⟨_, by rw [hdivides, hdivisor]; rfl, ?_⟩⟩
                rw [Double.max_pos_iff (Double.finite_le_finite.mpr hpos.le)]
                exact .inl (Double.finite_lt_finite.mpr hpos)
          · rintro avg' vol' hsame
            cases hsame
            exact hin

/-- A longer one is scored when its divisor is positive. -/
theorem scoresSafely_long {prices : List Int} (hne : prices ≠ [])
    (hfloat : ∀ p ∈ prices, IsFloat D p) (hlong : S.minHistoryPoints ≤ prices.length)
    (avg? vol? : Option Int) (cv : Option ℚ) :
    ScoresSafely D.toFloatArith S prices avg? vol? cv ↔ ∃ divisor, windowDivisor D.toFloatArith S
      prices.dropLast (availableMacro S avg? vol?).isSome cv = .ok divisor ∧
      .finite 0 < divisor := by
  have hcurrent := List.getLast?_eq_some_getLast hne
  have hscores : calculateZScore D.toFloatArith S prices avg? vol? cv
      = ((windowZScore D.toFloatArith S prices.dropLast (prices.getLast hne)
        (availableMacro S avg? vol?).isSome cv).map some).mapError .ofArithmetic := by
    simp only [calculateZScore, currentTickPrice, hcurrent, if_neg (not_lt.mpr hlong)]
  have hdivides : scoreDivisor D.toFloatArith S prices avg? vol? cv
      = (windowDivisor D.toFloatArith S prices.dropLast
        (availableMacro S avg? vol?).isSome cv).map some := if_neg (not_lt.mpr hlong)
  rw [ScoresSafely, hscores, hdivides]
  constructor
  · rintro ⟨score, hscore, hsafe⟩
    rcases hsafe with rfl | ⟨divisor, hdivisor, hpos⟩
    · cases hw : windowZScore D.toFloatArith S prices.dropLast (prices.getLast hne)
        (availableMacro S avg? vol?).isSome cv with
      | error e =>
          rw [hw] at hscore
          cases hscore
      | ok score =>
          rw [hw] at hscore
          cases hscore
    · cases hd : windowDivisor D.toFloatArith S prices.dropLast
        (availableMacro S avg? vol?).isSome cv with
      | error e =>
          rw [hd] at hdivisor
          cases hdivisor
      | ok divisor' =>
          rw [hd] at hdivisor
          cases hdivisor
          exact ⟨divisor, rfl, hpos⟩
  · rintro ⟨divisor, hdivisor, hpos⟩
    have hnonzero : divisor ≠ .finite 0 := by
      rintro rfl
      exact absurd hpos (by decide)
    obtain ⟨score, hscore⟩ := (windowZScore_ok_iff (hfloat _ (List.getLast_mem hne))).mpr
      ⟨divisor, hdivisor, hnonzero⟩
    refine ⟨some score, ?_, .inr ⟨divisor, ?_, hpos⟩⟩
    · rw [hscore]
      rfl
    · rw [hdivisor]
      rfl

theorem scoresSafely_iff_canScore (hpoints : 2 ≤ S.minHistoryPoints) {prices : List Int}
    (hnonneg : ∀ p ∈ prices, 0 ≤ p) (hfloat : ∀ p ∈ prices, IsFloat D p)
    (avg? vol? : Option Int) (cv : Option ℚ) :
    ScoresSafely D.toFloatArith S prices avg? vol? cv ↔ CanScore D S prices avg? vol? cv := by
  by_cases hne : prices = []
  · refine iff_of_false ?_ fun h => h.1 hne
    rintro ⟨score, hscore, -⟩
    rw [hne] at hscore
    cases hscore
  · rcases lt_or_ge prices.length S.minHistoryPoints with hshort | hlong
    · rw [scoresSafely_short hne hnonneg hfloat hshort, CanScore, if_pos hshort, and_iff_right hne]
    · have hhistory : prices.dropLast ≠ [] := by
        rw [ne_eq, ← List.length_eq_zero_iff, List.length_dropLast]
        omega
      rw [scoresSafely_long hne hfloat hlong, windowDivisor_pos_iff hhistory
        (fun p hp => hnonneg p (List.dropLast_subset _ hp))
        (fun p hp => hfloat p (List.dropLast_subset _ hp)), CanScore,
        if_neg (not_lt.mpr hlong), and_iff_right hne]

end

/-! ## The windows of a run -/

section
variable {C : Type} [EdgeCache C]

/-- Pushes one after another, whatever Redis raises in each. -/
def pushFaulty (S : DetectionSettings) (cache : C) (pushes : List (Faults × PricedTick)) : C :=
  pushes.foldl (fun cache push => (pushToWindow S push.1 push.2 cache).1) cache

variable [LawfulEdgeCache C]

open LawfulEdgeCache in
/-- The entries of a window after a push are the old ones and the tick's. -/
theorem entries_pushToWindow (S : DetectionSettings) (faults : Faults) (tick : PricedTick)
    (cache : C) (key : String) :
    ∀ e ∈ (window (pushToWindow S faults tick cache).1 key).entries,
      e ∈ (window cache key).entries ∨ e = windowEntry tick := by
  have hadd : ∀ e ∈ (window (EdgeCache.zadd cache tick.windowKey (windowMember tick)
      tick.timestamp) key).entries, e ∈ (window cache key).entries ∨ e = windowEntry tick := by
    intro e he
    rw [window_zadd] at he
    split_ifs at he with hkey
    · subst hkey
      rcases SortedSet.mem_zadd.mp he with rfl | ⟨he, -⟩
      · exact .inr rfl
      · exact .inl he
    · exact .inl he
  have htrim : ∀ start stop, ∀ e ∈ (window (EdgeCache.zremrangebyrank (EdgeCache.zadd cache
      tick.windowKey (windowMember tick) tick.timestamp) tick.windowKey start stop) key).entries,
      e ∈ (window cache key).entries ∨ e = windowEntry tick := by
    intro start stop e he
    rw [window_zremrangebyrank] at he
    split_ifs at he with hkey
    · subst hkey
      exact hadd e (SortedSet.mem_of_mem_zremrangebyrank he)
    · exact hadd e he
  unfold pushToWindow
  split
  · exact fun e he => .inl he
  · simp only
    split
    · exact hadd
    · split
      · split
        · exact hadd
        · exact htrim _ _
      · exact hadd

theorem entries_pushFaulty (S : DetectionSettings) (cache : C)
    (hempty : ∀ key, (LawfulEdgeCache.window cache key).entries = [])
    (pushes : List (Faults × PricedTick)) (key : String) :
    ∀ e ∈ (LawfulEdgeCache.window (pushFaulty S cache pushes) key).entries,
      ∃ push ∈ pushes, e = windowEntry push.2 := by
  induction pushes using List.reverseRecOn with
  | nil =>
      intro e he
      rw [pushFaulty, List.foldl_nil, hempty key] at he
      cases he
  | append_singleton before push ih =>
      intro e he
      rw [pushFaulty, List.foldl_concat] at he
      rcases entries_pushToWindow S push.1 push.2 _ key e he with hold | rfl
      · obtain ⟨earlier, hmem, rfl⟩ := ih e hold
        exact ⟨earlier, List.mem_append_left _ hmem, rfl⟩
      · exact ⟨push, List.mem_append_right _ (List.mem_singleton_self push), rfl⟩

/-- What is read from a window are prices that were pushed. -/
theorem windowPrices_pushFaulty (S : DetectionSettings) (cache : C)
    (hempty : ∀ key, (LawfulEdgeCache.window cache key).entries = [])
    (pushes : List (Faults × PricedTick)) (key : String) :
    ∃ prices, windowPrices (pushFaulty S cache pushes) key = .ok prices ∧
      ∀ p ∈ prices, ∃ push ∈ pushes, p = (push.2.priceCents : Int) := by
  have hentries := entries_pushFaulty S cache hempty pushes key
  obtain ⟨ticks, hticks⟩ : (LawfulEdgeCache.window (pushFaulty S cache pushes) key).entries
      ∈ Set.range (List.map windowEntry) := by
    rw [Set.range_list_map]
    intro e he
    obtain ⟨push, -, rfl⟩ := hentries e he
    exact ⟨push.2, rfl⟩
  refine ⟨_, (windowPrices_eq _ key).trans (readPrices_of_entries hticks.symm), ?_⟩
  intro p hp
  obtain ⟨tick, htick, rfl⟩ := List.mem_map.mp hp
  obtain ⟨push, hpush, heq⟩ := hentries _ (hticks ▸ List.mem_map_of_mem htick)
  exact ⟨push, hpush, congrArg Nat.cast (windowEntry_eq_iff.mp heq).2⟩

/-- Pushes of one window at later and later times leave their last prices there. -/
theorem windowHolds_pushFaulty {S : DetectionSettings} (hsize : 0 < S.slidingWindowSize) {cache : C}
    {key : String} (hempty : (LawfulEdgeCache.window cache key).entries = [])
    {ticks : List PricedTick} (hkey : ∀ tick ∈ ticks, tick.windowKey = key)
    (hlater : ticks.Pairwise fun s t => s.timestamp < t.timestamp) :
    WindowHolds S.slidingWindowSize ticks
      (LawfulEdgeCache.window (pushFaulty S cache (ticks.map fun tick => (.none, tick))) key) := by
  induction ticks using List.reverseRecOn with
  | nil =>
      refine ⟨⟨[], ?_, by simp [List.rtake]⟩, ?_⟩
      · rw [List.map_nil, pushFaulty, List.foldl_nil, hempty, List.map_nil]
      · rw [List.map_nil, pushFaulty, List.foldl_nil, hempty]
        rfl
  | append_singleton before tick ih =>
      obtain ⟨hbefore, -, hlast⟩ := List.pairwise_append.mp hlater
      have hholds := ih (fun t ht => hkey t (List.mem_append_left _ ht)) hbefore
      rw [List.map_append, List.map_singleton, pushFaulty, List.foldl_concat, ← pushFaulty,
        window_pushToWindow, if_pos (hkey tick List.mem_concat_self)]
      refine windowHolds_append hsize hholds fun s hs => windowEntry_lt_iff.mpr (.inl ?_)
      exact hlast s (List.mem_of_getLast? hs) tick (List.mem_singleton_self tick)

/-- Every window that pushes can lead to is scored safely exactly when it has something to measure
its newest price in, within the range of floats. -/
theorem scoresSafely_iff (D : Doubles) (S : DetectionSettings)
    (hpoints : 2 ≤ S.zscore.minHistoryPoints) (cache : C)
    (hempty : ∀ key, (LawfulEdgeCache.window cache key).entries = [])
    (pushes : List (Faults × PricedTick)) (hfloat : ∀ push ∈ pushes, IsFloat D push.2.priceCents)
    (key : String) (avg? vol? : Option Int) (cv : Option ℚ) :
    ∃ prices, windowPrices (pushFaulty S cache pushes) key = .ok prices ∧
      (ScoresSafely D.toFloatArith S.zscore prices avg? vol? cv
        ↔ CanScore D S.zscore prices avg? vol? cv) := by
  obtain ⟨prices, hprices, hpushed⟩ := windowPrices_pushFaulty S cache hempty pushes key
  refine ⟨prices, hprices, scoresSafely_iff_canScore hpoints ?_ ?_ avg? vol? cv⟩
  · intro p hp
    obtain ⟨push, -, rfl⟩ := hpushed p hp
    exact Int.natCast_nonneg _
  · intro p hp
    obtain ⟨push, hpush, rfl⟩ := hpushed p hp
    exact hfloat push hpush

end

/-! ### Cheap and dear listings -/

/-- Listings of one item, ten seconds apart. -/
def listedAt (priceCents : List Nat) : List (Faults × PricedTick) :=
  priceCents.zipIdx.map fun (cents, i) =>
    (.none, .listing "skinport" "AK-47" cents (10 * i) (toString i) isVenueName_skinport)

def listingsKey : String := priceWindowKey "skinport" "AK-47"

/-- A window of listings that fit into it reads as their prices. -/
theorem windowPrices_listedAt {priceCents : List Nat}
    (hfits : priceCents.length ≤ DetectionSettings.default.slidingWindowSize) :
    windowPrices (pushFaulty .default EdgeRedis.empty (listedAt priceCents)) listingsKey
      = .ok (priceCents.map Int.ofNat) := by
  let ticks : List PricedTick := priceCents.zipIdx.map fun (cents, i) =>
    .listing "skinport" "AK-47" cents (10 * i) (toString i) isVenueName_skinport
  have hticks : listedAt priceCents = ticks.map fun tick => (.none, tick) :=
    (List.map_map ..).symm
  have hprices : ticks.map PricedTick.priceCents = priceCents :=
    (List.map_map ..).trans (List.zipIdx_map_fst 0 priceCents)
  have hlater : ticks.Pairwise fun s t => s.timestamp < t.timestamp := by
    have hindices : priceCents.zipIdx.Pairwise fun a b => a.2 < b.2 := by
      rw [← List.pairwise_map (f := Prod.snd) (R := (· < ·)), List.zipIdx_map_snd]
      exact List.pairwise_lt_range'
    refine List.pairwise_map.mpr (hindices.imp fun {a b} hlt => ?_)
    show (10 * (a.2 : Int)) < 10 * (b.2 : Int)
    omega
  have hkey : ∀ tick ∈ ticks, tick.windowKey = listingsKey := by
    intro tick htick
    obtain ⟨listing, -, rfl⟩ := List.mem_map.mp htick
    rfl
  have hholds := @windowHolds_pushFaulty EdgeRedis _ _ .default (by decide) .empty listingsKey rfl
    ticks hkey hlater
  obtain ⟨us, hentries, hus⟩ := hholds.entries
  rw [hprices, List.rtake, Nat.sub_eq_zero_of_le hfits, List.drop_zero] at hus
  rw [windowPrices_eq, hticks, readPrices_of_entries hentries, ← hus, List.map_map]
  rfl

/-- The cents of the listings are doubles. -/
theorem isFloat_listedAt {priceCents : List Nat}
    (h : ∀ cents ∈ priceCents, IsFloat Doubles.binary64 cents) :
    ∀ push ∈ listedAt priceCents, IsFloat Doubles.binary64 push.2.priceCents := by
  intro push hpush
  obtain ⟨⟨cents, i⟩, hmem, rfl⟩ := List.mem_map.mp hpush
  exact h cents (List.fst_mem_of_mem_zipIdx hmem)

theorem scoresSafely_iff_fourListings :
    ∃ prices, windowPrices (pushFaulty .default EdgeRedis.empty (listedAt [100, 100, 100, 50]))
        listingsKey = .ok prices ∧
      (ScoresSafely Doubles.binary64.toFloatArith DetectionSettings.default.zscore prices none none
          none
        ↔ CanScore Doubles.binary64 DetectionSettings.default.zscore prices none none none) :=
  scoresSafely_iff Doubles.binary64 .default (by decide) EdgeRedis.empty (fun _ => rfl) _
    (isFloat_listedAt (by decide +kernel)) listingsKey none none none

theorem not_scoresSafely_of_error {F : FloatArith} {S : ZScoreSettings} {prices : List Int}
    {avg? vol? : Option Int} {cv : Option ℚ} {e : PyError}
    (h : calculateZScore F S prices avg? vol? cv = .error e) :
    ¬ ScoresSafely F S prices avg? vol? cv := by
  rintro ⟨score, hscore, -⟩
  rw [h] at hscore
  cases hscore

/-- Four listings of 0.004 USD, which is 0 cents, leave nothing to divide by; neither does a prior
whose square underflows. The deviations of four listings from 2 ^ 600 cents on are too large to be
squared. -/
theorem not_scoresSafely_listings :
    (windowPrices (pushFaulty .default EdgeRedis.empty (listedAt [0, 0, 0, 0])) listingsKey
        = .ok [0, 0, 0, 0] ∧
      ¬ ScoresSafely Doubles.binary64.toFloatArith .default [0, 0, 0, 0] none none none) ∧
    (windowPrices (pushFaulty .default EdgeRedis.empty (listedAt [100, 100, 100, 100])) listingsKey
        = .ok [100, 100, 100, 100] ∧
      ¬ ScoresSafely Doubles.binary64.toFloatArith .default [100, 100, 100, 100] (some 100)
        (some 20) (some (1 / 2 ^ 700))) ∧
    (windowPrices (pushFaulty .default EdgeRedis.empty
        (listedAt [2 ^ 600, 2 ^ 601, 2 ^ 601, 2 ^ 600])) listingsKey
        = .ok [2 ^ 600, 2 ^ 601, 2 ^ 601, 2 ^ 600] ∧
      ¬ ScoresSafely Doubles.binary64.toFloatArith .default [2 ^ 600, 2 ^ 601, 2 ^ 601, 2 ^ 600]
        none none none) := by
  refine ⟨⟨?_, ?_⟩, ⟨?_, ?_⟩, ⟨?_, ?_⟩⟩
  · exact windowPrices_listedAt (by decide)
  · apply not_scoresSafely_of_error (e := .zeroDivisionError)
    decide +kernel
  · exact windowPrices_listedAt (by decide)
  · apply not_scoresSafely_of_error (e := .zeroDivisionError)
    decide +kernel
  · rw [windowPrices_listedAt (by decide)]
    simp only [List.map_cons, List.map_nil, Int.ofNat_eq_natCast, Nat.cast_pow, Nat.cast_ofNat]
  · apply not_scoresSafely_of_error (e := .overflowError)
    decide +kernel

end BrandSniper
