import Mathlib.Algebra.Order.BigOperators.Group.List
import BrandSniper.Listener.Detection
import BrandSniper.Shared.Baselines
import BrandSniper.Shared.Margins

/-!
# Baselines are safe for the edge

What `build_item_baseline` promises of every baseline it returns
(`Sound`), and that neither it nor the edge that reads the baseline
raises: the macro Z-score and the sigma rule divide by the volatility, or by
one percent of the average where that is larger.

Nothing in the source limits the amounts, so a sum or a quotient can pass the
largest double (`build_overflows_hugeVolume`); everything else is guarded. With
amounts of at most `2 ^ 1020` cents nothing raises (`baselines_safe`).
-/

namespace BrandSniper.Baselines

open Kit

/-! ## What every baseline promises -/

structure Sound (D : Doubles) (baseline : ItemBaseline) : Prop where
  latest : 0 < baseline.latestPriceCents
  month : 0 < baseline.rolling30dAvgCents
  quarter : 0 < baseline.rolling90dAvgCents
  volatility : 1 ≤ baseline.volatilityCents
  onePercent : ∀ cents, onePercentCents D baseline.rolling30dAvgCents = .ok cents →
    cents ≤ baseline.volatilityCents
  supportFloor : 0 ≤ baseline.supportFloorCents

section
variable {D : Doubles} {history : SalesHistory}

theorem median_pos {window : SalesWindow} {minVolume : Nat} {median : Int}
    (h : window.hasMedian minVolume = true) (hmedian : window.medianCents = some median) :
    0 < median := by
  rw [SalesWindow.hasMedian, hmedian, Option.any_some, Bool.and_eq_true] at h
  exact of_decide_eq_true h.1

/-- The latest price is one of the medians that count. -/
theorem latestPriceCents_pos {latest : Int} (h : latestPriceCents history = .ok latest)
    {minVolume : Nat} (hmonth : history.last30Days.hasMedian minVolume = true) : 0 < latest := by
  unfold latestPriceCents at h
  dsimp only at h
  split at h
  · rename_i median hday
    cases h
    obtain ⟨hmedian, hcounts⟩ := Option.filter_eq_some_iff.mp hday
    exact median_pos hcounts hmedian
  · split at h
    · rename_i median hweek
      cases h
      obtain ⟨hmedian, hcounts⟩ := Option.filter_eq_some_iff.mp hweek
      exact median_pos hcounts hmedian
    · split at h
      · rename_i median hmedian
        cases h
        exact median_pos hmonth hmedian
      · cases h

/-- The 90 day price is the median of the quarter or that of the month. -/
theorem median90dCents_cases (quarter : SalesWindow) (median30d : Int) :
    median90dCents quarter median30d = median30d ∨
      quarter.hasMedian 1 = true ∧ quarter.medianCents = some (median90dCents quarter median30d) := by
  unfold median90dCents
  cases hquarter : quarter.medianCents.filter fun _ => quarter.hasMedian 1 with
  | none => exact Or.inl rfl
  | some median =>
      obtain ⟨hmedian, hcounts⟩ := Option.filter_eq_some_iff.mp hquarter
      exact Or.inr ⟨hcounts, hmedian⟩

theorem median90dCents_pos (quarter : SalesWindow) {median30d : Int} (hmonth : 0 < median30d) :
    0 < median90dCents quarter median30d := by
  rcases median90dCents_cases quarter median30d with heq | ⟨hcounts, hmedian⟩
  · rwa [heq]
  · exact median_pos hcounts hmedian

/-- The parts of a baseline, with where each comes from. -/
theorem itemBaseline_eq_ok {medians : List Int} {median30d min30d : Int} {baseline : ItemBaseline}
    (h : itemBaseline D history medians median30d min30d = .ok baseline) :
    ∃ onePercent volatility supportFloor,
      onePercentCents D median30d = .ok onePercent ∧
      volatilityAndFloor D medians median30d min30d history.last30Days.volume (max onePercent 1)
        = .ok (volatility, supportFloor) ∧
      latestPriceCents history = .ok baseline.latestPriceCents ∧
      baseline.rolling30dAvgCents = median30d ∧
      baseline.rolling90dAvgCents = median90dCents history.last90Days median30d ∧
      baseline.volatilityCents = max volatility (max onePercent 1) ∧
      baseline.supportFloorCents = max supportFloor 0 := by
  unfold itemBaseline at h
  obtain ⟨onePercent, honePercent, h⟩ := bind_eq_ok h
  obtain ⟨⟨volatility, supportFloor⟩, hspread, h⟩ := bind_eq_ok h
  obtain ⟨latest, hlatest, h⟩ := bind_eq_ok h
  obtain ⟨avgVolume, -, h⟩ := bind_eq_ok h
  obtain ⟨drift, -, h⟩ := bind_eq_ok h
  cases h
  exact ⟨onePercent, volatility, supportFloor, honePercent, hspread, hlatest, rfl, rfl, rfl, rfl⟩

/-- Every baseline is sound, whatever the history and the medians. -/
theorem sound_of_buildItemBaseline {medians : List Int} {baseline : ItemBaseline}
    (h : buildItemBaseline D history medians = .ok (some baseline)) : Sound D baseline := by
  unfold buildItemBaseline at h
  dsimp only at h
  split at h
  · rename_i median30d min30d hmedian hmin
    split_ifs at h with hsells
    · cases hbaseline : itemBaseline D history medians median30d min30d with
      | error e =>
          rw [hbaseline] at h
          cases h
      | ok built =>
          rw [hbaseline] at h
          cases h
          obtain ⟨onePercent, volatility, supportFloor, honePercent, -, hlatest, hmonth, hquarter,
            hvolatility, hfloor⟩ := itemBaseline_eq_ok hbaseline
          have hpos : 0 < median30d := median_pos hsells hmedian
          constructor
          · exact latestPriceCents_pos hlatest hsells
          · rwa [hmonth]
          · rw [hquarter]
            exact median90dCents_pos _ hpos
          · rw [hvolatility]
            exact (le_max_right _ _).trans (le_max_right _ _)
          · intro cents hcents
            rw [hmonth, honePercent] at hcents
            cases hcents
            rw [hvolatility]
            exact (le_max_left _ _).trans (le_max_right _ _)
          · rw [hfloor]
            exact le_max_right _ _
    · cases h
  · cases h

end

/-! ## Amounts in range -/

/-- The amounts of a window and its number of sales are at most `2 ^ k`. -/
structure SalesWindow.AtMost (window : SalesWindow) (k : Nat) : Prop where
  min : ∀ cents, window.minCents = some cents → |(cents : ℚ)| ≤ 2 ^ k
  median : ∀ cents, window.medianCents = some cents → |(cents : ℚ)| ≤ 2 ^ k
  volume : (window.volume : ℚ) ≤ 2 ^ k

/-- The windows that the arithmetic reads. -/
structure SalesHistory.AtMost (history : SalesHistory) (k : Nat) : Prop where
  month : history.last30Days.AtMost k
  quarter : history.last90Days.AtMost k

section
variable {D : Doubles} {k : Nat}

open Doubles FloatArith

theorem two_pow_le_succ (k : Nat) : (2 : ℚ) ^ k ≤ 2 ^ (k + 1) :=
  pow_le_pow_right₀ (by norm_num) (Nat.le_succ k)

theorem one_le_two_pow (k : Nat) : (1 : ℚ) ≤ 2 ^ k := one_le_pow₀ (by norm_num)

theorem abs_sub_le_succ {a b : ℚ} (ha : |a| ≤ 2 ^ k) (hb : |b| ≤ 2 ^ k) :
    |a - b| ≤ 2 ^ (k + 1) := by
  have htwo : (2 : ℚ) ^ (k + 1) = 2 ^ k + 2 ^ k := by ring
  rw [htwo]
  exact (abs_sub a b).trans (add_le_add ha hb)

theorem abs_max_le {a b : Int} {c : ℚ} (ha : |(a : ℚ)| ≤ c) (hb : |(b : ℚ)| ≤ c) :
    |((max a b : Int) : ℚ)| ≤ c := by
  rcases max_choice a b with h | h
  · rwa [h]
  · rwa [h]

/-- A finite float of moderate size rounds to an integer of that size. -/
theorem abs_roundHalfEven_le_two_pow {q : ℚ} (h : |q| ≤ 2 ^ k) :
    |(roundHalfEven q : ℚ)| ≤ 2 ^ k := by
  have hcast : ((2 ^ k : Int) : ℚ) = 2 ^ k := by push_cast; rfl
  rw [← hcast] at h ⊢
  rw [← Int.cast_abs, Int.cast_le]
  exact abs_roundHalfEven_le h

theorem onePercentCents_ok {median : Int} (h : |(median : ℚ)| ≤ 2 ^ k) (hk : k < maxExponent) :
    ∃ cents, onePercentCents D median = .ok cents ∧ |(cents : ℚ)| ≤ 2 ^ k := by
  have hfraction : |minVolatilityFraction D| ≤ 1 := by
    have hle : |(1 / 100 : ℚ)| ≤ 2 ^ 0 := by norm_num [abs_le]
    have hround := abs_round_le (D := D) hle
    rwa [pow_zero] at hround
  have hproduct : |D.round median * minVolatilityFraction D| ≤ 2 ^ k := by
    rw [abs_mul]
    exact (mul_le_of_le_one_right (abs_nonneg _) hfraction).trans (abs_round_le h)
  refine ⟨roundHalfEven (D.round (D.round median * minVolatilityFraction D)), ?_,
    abs_roundHalfEven_le_two_pow (abs_round_le hproduct)⟩
  rw [onePercentCents, ofInt_ok h hk]
  show Double.toInt (D.ofRat _) = _
  rw [ofRat_eq hproduct hk, Double.toInt]

/-- The divisor of the spread is at least one from five sales on. -/
theorem spreadDivisor_ok {volume : Nat} (hvolume : minSales30d ≤ volume)
    (h : (volume : ℚ) ≤ 2 ^ k) (hk : k + 1 < maxExponent) :
    ∃ divisor, D.mathSqrt (D.mul (.finite 2) (D.log volume)) = .ok (.finite divisor) ∧ 1 ≤ divisor := by
  have hlog : 1 ≤ D.log volume := D.one_le_log volume (le_trans (by decide) hvolume)
  have hbound : |2 * D.log volume| ≤ 2 ^ (k + 1) := by
    rw [abs_of_nonneg (by linarith), pow_succ, mul_comm]
    exact mul_le_mul_of_nonneg_right ((D.log_le volume).trans h) (by norm_num)
  have hone : 1 ≤ D.round (2 * D.log volume) := one_le_round (by linarith)
  refine ⟨D.sqrt (D.round (2 * D.log volume)), ?_, D.one_le_sqrt _ hone⟩
  rw [mul, ofRat_eq hbound hk, mathSqrt, if_neg (not_lt.mpr (zero_le_one.trans hone))]

theorem salesSpreadVolatilityCents_ok {median min : Int} {volume : Nat}
    (hmedian : |(median : ℚ)| ≤ 2 ^ k) (hmin : |(min : ℚ)| ≤ 2 ^ k)
    (hvolume : minSales30d ≤ volume) (h : (volume : ℚ) ≤ 2 ^ k) (hk : k + 1 < maxExponent) :
    ∃ cents, salesSpreadVolatilityCents D median min volume = .ok cents ∧
      |(cents : ℚ)| ≤ 2 ^ (k + 1) := by
  obtain ⟨divisor, hdivisor, hone⟩ := spreadDivisor_ok (D := D) hvolume h hk
  have hspread : |((max (median - min) 0 : Int) : ℚ)| ≤ 2 ^ (k + 1) := by
    apply abs_max_le
    · rw [Int.cast_sub]
      exact abs_sub_le_succ hmedian hmin
    · rw [Int.cast_zero, abs_zero]
      positivity
  have hquotient : |D.round (max (median - min) 0 : Int) / divisor| ≤ 2 ^ (k + 1) := by
    rw [abs_div, abs_of_nonneg (zero_le_one.trans hone)]
    exact (div_le_self (abs_nonneg _) hone).trans (abs_round_le hspread)
  have htwo : ¬ volume < 2 := not_lt.mpr (le_trans (by decide) hvolume)
  have hnonzero : Double.finite divisor ≠ .finite 0 := by
    rw [Ne, Double.finite.injEq]
    linarith
  refine ⟨_, ?_, abs_roundHalfEven_le_two_pow (abs_round_le (D := D) hquotient)⟩
  simp only [salesSpreadVolatilityCents, if_neg htwo, hdivisor, ofInt_ok hspread hk, bind,
    Except.bind, FloatArith.div, if_neg hnonzero, ofRat_eq hquotient hk, Double.toInt]

theorem fromSalesSpread_ok {median min minimum : Int} {volume : Nat}
    (hmedian : |(median : ℚ)| ≤ 2 ^ k) (hmin : |(min : ℚ)| ≤ 2 ^ k)
    (hminimum : |(minimum : ℚ)| ≤ 2 ^ k) (hvolume : minSales30d ≤ volume)
    (h : (volume : ℚ) ≤ 2 ^ k) (hk : k + 3 < maxExponent) :
    ∃ volatility floor, fromSalesSpread D median min volume minimum = .ok (volatility, floor) ∧
      |(volatility : ℚ)| ≤ 2 ^ (k + 1) := by
  obtain ⟨volatility, hvolatility, hbound⟩ :=
    salesSpreadVolatilityCents_ok (D := D) hmedian hmin hvolume h (by omega)
  have hbelow : |((max volatility minimum : Int) : ℚ)| ≤ 2 ^ (k + 1) :=
    abs_max_le hbound (hminimum.trans (two_pow_le_succ k))
  have hz : |floorZ D| ≤ 2 := by
    have hle : |(12816 / 10000 : ℚ)| ≤ 2 ^ 1 := by norm_num [abs_le]
    have hround := abs_round_le (D := D) hle
    rwa [pow_one] at hround
  have hproduct : |floorZ D * D.round (max volatility minimum : Int)| ≤ 2 ^ (k + 2) := by
    have htwo : (2 : ℚ) ^ (k + 2) = 2 * 2 ^ (k + 1) := by ring
    rw [abs_mul, htwo]
    exact mul_le_mul hz (abs_round_le hbelow) (abs_nonneg _) (by norm_num)
  have hmedian' : |D.round median| ≤ 2 ^ (k + 2) :=
    (abs_round_le hmedian).trans ((two_pow_le_succ k).trans (two_pow_le_succ (k + 1)))
  have hdifference : |D.round median - D.round (floorZ D * D.round (max volatility minimum : Int))|
      ≤ 2 ^ (k + 3) := abs_sub_le_succ hmedian' (abs_round_le hproduct)
  refine ⟨volatility, roundHalfEven (D.round (D.round median
    - D.round (floorZ D * D.round (max volatility minimum : Int)))), ?_, hbound⟩
  simp only [fromSalesSpread, hvolatility, ofInt_ok hbelow (show k + 1 < maxExponent by omega),
    ofInt_ok hmedian (show k < maxExponent by omega), FloatArith.mul,
    ofRat_eq hproduct (show k + 2 < maxExponent by omega), FloatArith.sub,
    ofRat_eq hdifference hk, Double.toInt,
    bind, Except.bind, pure, Except.pure]

end

/-! ## Daily medians -/

section
variable {D : Doubles} {k : Nat}

open Doubles

theorem total_le (xs : List ℚ) (c : ℚ) (h : ∀ x ∈ xs, x ≤ c) : total xs ≤ xs.length * c := by
  have := List.sum_le_card_nsmul xs c h
  rwa [nsmul_eq_mul] at this

/-- Positive amounts of moderate size. -/
def Amounts (k : Nat) (medians : List Int) : Prop :=
  ∀ median ∈ medians, 0 < median ∧ (median : ℚ) ≤ 2 ^ k

theorem variance_le {medians : List Int} (h : Amounts k medians) (htwo : 2 ≤ medians.length) :
    variance medians ≤ 2 ^ (k + 1) * 2 ^ (k + 1) := by
  have hlength : (2 : ℚ) ≤ medians.length := by exact_mod_cast htwo
  have hprev : ((medians.length - 1 : Int) : ℚ) = medians.length - 1 := by push_cast; rfl
  set mean := total (medians.map fun (x : Int) => (x : ℚ)) / medians.length with hmean
  have hnonneg : 0 ≤ mean := by
    apply div_nonneg (total_nonneg ?_) (by linarith)
    intro x hx
    obtain ⟨median, hmedian, rfl⟩ := List.mem_map.mp hx
    exact_mod_cast (h median hmedian).1.le
  have hle : mean ≤ 2 ^ k := by
    rw [hmean, div_le_iff₀ (by linarith), mul_comm]
    have hsum := total_le (medians.map fun (x : Int) => (x : ℚ)) (2 ^ k) (by
      intro x hx
      obtain ⟨median, hmedian, rfl⟩ := List.mem_map.mp hx
      exact (h median hmedian).2)
    rwa [List.length_map] at hsum
  have hsquares : total (medians.map fun (x : Int) => (x - mean) * (x - mean))
      ≤ medians.length * (2 ^ k * 2 ^ k) := by
    have hsum := total_le (medians.map fun (x : Int) => (x - mean) * (x - mean))
      (2 ^ k * 2 ^ k) (by
        intro q hq
        obtain ⟨x, hx, rfl⟩ := List.mem_map.mp hq
        have hpos : (0 : ℚ) < x := by exact_mod_cast (h x hx).1
        have hdeviation : |(x : ℚ) - mean| ≤ 2 ^ k := by
          rw [abs_le]
          constructor <;> linarith [(h x hx).2]
        rw [← abs_mul_abs_self]
        exact mul_self_le_mul_self (abs_nonneg _) hdeviation)
    rwa [List.length_map] at hsum
  rw [variance, ← hmean, hprev, div_le_iff₀ (by linarith)]
  -- n is at most twice n - 1
  have hfour : (2 : ℚ) ^ (k + 1) * 2 ^ (k + 1) = 4 * (2 ^ k * 2 ^ k) := by ring
  have hsquare : (0 : ℚ) ≤ 2 ^ k * 2 ^ k := mul_self_nonneg _
  rw [hfour]
  nlinarith

theorem stdev_ok {medians : List Int} (h : Amounts k medians) (htwo : 2 ≤ medians.length)
    (hk : k + 1 < maxExponent) :
    ∃ deviation, stdev D medians = .ok deviation ∧ |deviation| ≤ 2 ^ (k + 1) := by
  have hle : |D.sqrt (variance medians)| ≤ 2 ^ (k + 1) := by
    rw [abs_of_nonneg (D.sqrt_nonneg _)]
    exact D.sqrt_le (k + 1) _ (variance_le h htwo)
  exact ⟨_, if_pos (inRange_of_le hle hk), hle⟩

theorem getD_sorted {medians : List Int} (h : Amounts k medians) (i : Nat) :
    0 ≤ (sorted medians).getD i 0 ∧ (((sorted medians).getD i 0 : Int) : ℚ) ≤ 2 ^ k := by
  rcases lt_or_ge i (sorted medians).length with hi | hi
  · rw [List.getD_eq_getElem?_getD, List.getElem?_eq_getElem hi, Option.getD_some]
    have hmem : (sorted medians)[i] ∈ medians :=
      (List.perm_insertionSort (· ≤ ·) medians).mem_iff.mp (List.getElem_mem hi)
    exact ⟨(h _ hmem).1.le, (h _ hmem).2⟩
  · rw [List.getD_eq_getElem?_getD, List.getElem?_eq_none hi, Option.getD_none, Int.cast_zero]
    exact ⟨le_refl 0, by positivity⟩

/-- A decile lies between two of the medians. -/
theorem decile_ok {medians : List Int} (h : Amounts k medians) (i : Nat) (hk : k < maxExponent) :
    ∃ cut, decile D (sorted medians) i = .ok cut := by
  obtain ⟨hlow, hlowLe⟩ := getD_sorted h (i * ((sorted medians).length - 1) / 10)
  obtain ⟨hhigh, hhighLe⟩ := getD_sorted h (i * ((sorted medians).length - 1) / 10 + 1)
  have hdelta : i * ((sorted medians).length - 1) % 10 < 10 := Nat.mod_lt _ (by decide)
  unfold decile
  dsimp only
  generalize (sorted medians).getD (i * ((sorted medians).length - 1) / 10) 0 = low at *
  generalize (sorted medians).getD (i * ((sorted medians).length - 1) / 10 + 1) 0 = high at *
  generalize i * ((sorted medians).length - 1) % 10 = delta at *
  have hdeltaLe : (delta : ℚ) ≤ 10 := by exact_mod_cast hdelta.le
  have hdeltaNonneg : (0 : ℚ) ≤ delta := Nat.cast_nonneg delta
  have hlow' : (0 : ℚ) ≤ low := by exact_mod_cast hlow
  have hhigh' : (0 : ℚ) ≤ high := by exact_mod_cast hhigh
  have hcast : ((low * (10 - delta) + high * delta : Int) : ℚ)
      = low * (10 - delta) + high * delta := by push_cast; rfl
  have hnonneg : (0 : ℚ) ≤ low * (10 - delta) + high * delta :=
    add_nonneg (mul_nonneg hlow' (by linarith)) (mul_nonneg hhigh' hdeltaNonneg)
  have hle : (low * (10 - delta) + high * delta : ℚ) ≤ 10 * 2 ^ k := by nlinarith
  refine ⟨_, divInts_ok (by decide) ?_ hk⟩
  rw [hcast, Int.cast_ofNat, abs_of_nonneg (div_nonneg hnonneg (by norm_num)),
    div_le_iff₀ (by norm_num), mul_comm (2 ^ k : ℚ) 10]
  exact hle

theorem deciles_ok {medians : List Int} (h : Amounts k medians) (hk : k < maxExponent) :
    ∃ cuts, deciles D medians = .ok cuts :=
  succeeds_mapM_iff.mpr fun i _ => decile_ok h i hk

theorem fromDailyMedians_ok {medians : List Int} (h : Amounts k medians)
    (henough : minDailyPoints ≤ medians.length) (hk : k + 1 < maxExponent) :
    ∃ volatility floor, fromDailyMedians D medians = .ok (volatility, floor) ∧
      |(volatility : ℚ)| ≤ 2 ^ (k + 1) := by
  obtain ⟨deviation, hdeviation, hbound⟩ := stdev_ok (D := D) h (le_trans (by decide) henough) hk
  obtain ⟨cuts, hcuts⟩ := deciles_ok (D := D) h (show k < maxExponent by omega)
  refine ⟨roundHalfEven deviation, roundHalfEven (cuts.headD 0), ?_,
    abs_roundHalfEven_le_two_pow hbound⟩
  simp only [fromDailyMedians, hdeviation, hcuts, bind, Except.bind, pure, Except.pure]

end

/-! ## Nothing raises -/

section
variable {D : Doubles} {history : SalesHistory} {k : Nat}

open Doubles

theorem latestPriceCents_ok {median : Int} (h : history.last30Days.medianCents = some median) :
    ∃ latest, latestPriceCents history = .ok latest := by
  unfold latestPriceCents
  dsimp only
  split
  · exact ⟨_, rfl⟩
  · split
    · exact ⟨_, rfl⟩
    · rw [h]
      exact ⟨_, rfl⟩

theorem drift_le {quarter : SalesWindow} {median30d : Int} (hmonth : |(median30d : ℚ)| ≤ 2 ^ k)
    (h : quarter.AtMost k) (hpos : 0 < median90dCents quarter median30d) :
    |((median30d - median90dCents quarter median30d : Int) : ℚ)
      / median90dCents quarter median30d| ≤ 2 ^ (k + 1) := by
  have hle : |(median90dCents quarter median30d : ℚ)| ≤ 2 ^ k := by
    rcases median90dCents_cases quarter median30d with heq | ⟨-, hmedian⟩
    · rwa [heq]
    · exact h.median _ hmedian
  apply (abs_div_int_le hpos).trans
  rw [Int.cast_sub]
  exact abs_sub_le_succ hmonth hle

theorem volatilityAndFloor_ok {medians : List Int} {median min minimum : Int} {volume : Nat}
    (hmedians : Amounts k medians) (hmedian : |(median : ℚ)| ≤ 2 ^ k) (hmin : |(min : ℚ)| ≤ 2 ^ k)
    (hminimum : |(minimum : ℚ)| ≤ 2 ^ k) (hvolume : minSales30d ≤ volume)
    (h : (volume : ℚ) ≤ 2 ^ k) (hk : k + 3 < maxExponent) :
    ∃ volatility floor,
      volatilityAndFloor D medians median min volume minimum = .ok (volatility, floor) ∧
      |(volatility : ℚ)| ≤ 2 ^ (k + 1) := by
  unfold volatilityAndFloor
  split
  · rename_i henough
    exact fromDailyMedians_ok hmedians henough (by omega)
  · exact fromSalesSpread_ok hmedian hmin hminimum hvolume h hk

theorem itemBaseline_ok {medians : List Int} {median30d min30d : Int}
    (h : history.AtMost k) (hmedians : Amounts k medians)
    (hmedian : history.last30Days.medianCents = some median30d)
    (hmin : history.last30Days.minCents = some min30d)
    (hsells : history.last30Days.hasMedian minSales30d = true) (hk : k + 3 < maxExponent) :
    ∃ baseline, itemBaseline D history medians median30d min30d = .ok baseline ∧
      |(baseline.rolling30dAvgCents : ℚ)| ≤ 2 ^ k ∧
      |(baseline.volatilityCents : ℚ)| ≤ 2 ^ (k + 1) := by
  have hmonth := h.month.median median30d hmedian
  have hvolume : minSales30d ≤ history.last30Days.volume := by
    rw [SalesWindow.hasMedian, Bool.and_eq_true] at hsells
    exact of_decide_eq_true hsells.2
  obtain ⟨onePercent, honePercent, hsmall⟩ := onePercentCents_ok (D := D) hmonth (by omega)
  have hminimum : |((max onePercent 1 : Int) : ℚ)| ≤ 2 ^ k := by
    apply abs_max_le hsmall
    rw [Int.cast_one, abs_one]
    exact one_le_two_pow k
  obtain ⟨volatility, floor, hspread, hbound⟩ := volatilityAndFloor_ok (D := D) hmedians hmonth
    (h.month.min min30d hmin) hminimum hvolume h.month.volume hk
  have hbuilds : Succeeds (itemBaseline D history medians median30d min30d) := by
    obtain ⟨latest, hlatest⟩ := latestPriceCents_ok hmedian
    have hmonthly : |((history.last30Days.volume : Int) : ℚ) / (30 : Int)| ≤ 2 ^ k := by
      apply (abs_div_int_le (by decide)).trans
      rw [Int.cast_natCast, Nat.abs_cast]
      exact h.month.volume
    have hquarter := median90dCents_pos history.last90Days (median_pos hsells hmedian)
    have hdrift := drift_le hmonth h.quarter hquarter
    unfold itemBaseline
    refine succeeds_bind.mpr ⟨onePercent, honePercent, ?_⟩
    refine succeeds_bind.mpr ⟨(volatility, floor), hspread, ?_⟩
    refine succeeds_bind.mpr ⟨latest, hlatest, ?_⟩
    refine succeeds_bind.mpr ⟨_, divInts_ok (by decide) hmonthly (by omega), ?_⟩
    exact succeeds_bind.mpr ⟨_, divInts_ok hquarter.ne' hdrift (by omega), succeeds_ok _⟩
  obtain ⟨baseline, hbaseline⟩ := hbuilds
  obtain ⟨onePercent', volatility', _, honePercent', hspread', -, hmonth', -, hvolatility', -⟩ :=
    itemBaseline_eq_ok hbaseline
  rw [honePercent] at honePercent'
  cases honePercent'
  rw [hspread] at hspread'
  cases hspread'
  refine ⟨baseline, hbaseline, ?_, ?_⟩
  · rw [hmonth']
    exact hmonth
  · rw [hvolatility']
    exact abs_max_le hbound (hminimum.trans (two_pow_le_succ k))

/-- Within the range of floats no baseline fails to be built. -/
theorem buildItemBaseline_ok {medians : List Int} (h : history.AtMost k)
    (hmedians : Amounts k medians) (hk : k + 3 < maxExponent) :
    ∃ built, buildItemBaseline D history medians = .ok built ∧ ∀ baseline, built = some baseline →
      |(baseline.rolling30dAvgCents : ℚ)| ≤ 2 ^ k ∧
      |(baseline.volatilityCents : ℚ)| ≤ 2 ^ (k + 1) := by
  unfold buildItemBaseline
  dsimp only
  split
  · rename_i median30d min30d hmedian hmin
    split_ifs with hsells
    · obtain ⟨baseline, hbaseline, hbounds⟩ := itemBaseline_ok (D := D) h hmedians hmedian hmin
        hsells hk
      refine ⟨some baseline, by rw [hbaseline, Except.map], ?_⟩
      intro built hbuilt
      cases hbuilt
      exact hbounds
    · refine ⟨none, rfl, ?_⟩
      intro built hbuilt
      cases hbuilt
  · refine ⟨none, rfl, ?_⟩
    intro built hbuilt
    cases hbuilt

end

/-! ## The edge -/

/-- The document as `json.loads` reads it at the edge. -/
def EdgePayload.baseline (payload : EdgePayload) : Baseline where
  supportFloorCents := .value payload.supportFloorCents
  latestPriceCents := .value payload.latestPriceCents
  rolling30dAvgCents := .value payload.rolling30dAvgCents
  volatilityCents := .value payload.volatilityCents
  coefficientOfVariation := .value payload.coefficientOfVariation
  sellerFeeBps := payload.sellerFeeBps.elim .missing fun n => .value (.int n)

/-- Whatever seller fee the item carries, the edge reads the baseline without an error. -/
def SafeForEdge (D : Doubles) (k : Nat) (baseline : ItemBaseline) : Prop :=
  ∀ sellerFeeBps, ∃ payload, (baseline.withSellerFee sellerFeeBps).edgePayload D = .ok payload ∧
    (∀ currentCents : Int, |(currentCents : ℚ)| ≤ 2 ^ k →
      Succeeds (macroZScore D.toFloatArith currentCents payload.rolling30dAvgCents
        payload.volatilityCents)) ∧
    (∀ priceCents : Int, |(priceCents : ℚ)| ≤ 2 ^ k →
      Succeeds (macroSigmaReached D.toFloatArith payload.baseline priceCents)) ∧
    ∀ tick, Succeeds (feesFor tick.venue) →
      Succeeds (estimateNetProfitCents tick payload.baseline)

section
variable {D : Doubles} {k : Nat}

open Doubles

/-- The fields the edge reads are those of the baseline. -/
theorem edgePayload_ok {baseline : ItemBaseline} (hmonth : 0 < baseline.rolling30dAvgCents)
    (hvolatility : |(baseline.volatilityCents : ℚ)| ≤ 2 ^ k) (hk : k < maxExponent) :
    ∃ payload, baseline.edgePayload D = .ok payload ∧
      payload.rolling30dAvgCents = baseline.rolling30dAvgCents ∧
      payload.volatilityCents = baseline.volatilityCents ∧
      payload.latestPriceCents = baseline.latestPriceCents := by
  have hratio : |(baseline.volatilityCents : ℚ) / baseline.rolling30dAvgCents| ≤ 2 ^ k :=
    (abs_div_int_le hmonth).trans hvolatility
  have hcoefficient : Succeeds (coefficientOfVariation D baseline.rolling30dAvgCents
      baseline.volatilityCents) := by
    unfold coefficientOfVariation
    split
    · rw [succeeds_map, divInts_ok hmonth.ne' hratio hk]
      exact succeeds_ok _
    · exact succeeds_ok _
  obtain ⟨coefficient, hcoefficient⟩ := hcoefficient
  unfold ItemBaseline.edgePayload
  rw [hcoefficient]
  exact ⟨_, rfl, rfl, rfl, rfl⟩

/-- A volatility of at least one keeps the divisor from zero, and amounts in the range of floats
keep the rest in range. -/
theorem macroZScore_ok {avg vol currentCents : Int} (havg : |(avg : ℚ)| ≤ 2 ^ k) (hvol : 1 ≤ vol)
    (hcurrent : |(currentCents : ℚ)| ≤ 2 ^ k) (hk : k + 1 < maxExponent) :
    Succeeds (macroZScore D.toFloatArith currentCents avg vol) := by
  have hdifference : |((currentCents - avg : Int) : ℚ)| ≤ 2 ^ (k + 1) := by
    rw [Int.cast_sub]
    exact abs_sub_le_succ hcurrent havg
  have hinRange : ¬ MacroOverflows D.toFloatArith currentCents avg vol := by
    unfold MacroOverflows
    rw [inRange_of_le (abs_round_le havg) (show k < maxExponent by omega),
      inRange_of_le (abs_round_le hdifference) hk,
      inRange_of_le (abs_round_le ((abs_div_int_le hvol).trans hdifference)) hk]
    simp
  rw [← macroZScore_error_iff _ _ _ _ (by omega)] at hinRange
  cases hscore : macroZScore D.toFloatArith currentCents avg vol with
  | ok score => exact succeeds_ok score
  | error e => exact absurd ⟨e, hscore⟩ hinRange

theorem macroSigmaReached_ok {payload : EdgePayload} {priceCents : Int}
    (hmonth : |(payload.rolling30dAvgCents : ℚ)| ≤ 2 ^ k)
    (hprice : |(priceCents : ℚ)| ≤ 2 ^ k) (hk : k + 1 < maxExponent) :
    Succeeds (macroSigmaReached D.toFloatArith payload.baseline priceCents) := by
  unfold macroSigmaReached
  simp only [EdgePayload.baseline, BaselineField.get]
  split_ifs with hvolatility
  · have hquotient : |((payload.rolling30dAvgCents - priceCents : Int) : ℚ)
        / payload.volatilityCents| ≤ 2 ^ (k + 1) := by
      apply (abs_div_int_le hvolatility).trans
      rw [Int.cast_sub]
      exact abs_sub_le_succ hmonth hprice
    rw [succeeds_map, divInts_ok hvolatility.ne' hquotient hk]
    exact succeeds_ok _
  · exact succeeds_ok _

end

theorem succeeds_feesFor {venue : String} :
    Succeeds (feesFor venue) ↔ venue.toLower ∈ venueFees.map fun fees => fees.venue := by
  unfold feesFor
  cases hfound : venueFees.find? fun fees => fees.venue = venue.toLower with
  | some fees =>
      have hlower : fees.venue = venue.toLower := by simpa using List.find?_some hfound
      rw [← hlower]
      exact iff_of_true (succeeds_ok fees)
        (List.mem_map_of_mem (List.mem_of_find?_eq_some hfound))
  | none =>
      refine iff_of_false (not_succeeds_error _) ?_
      intro hmem
      obtain ⟨fees, hknown, hlower⟩ := List.mem_map.mp hmem
      exact List.find?_eq_none.mp hfound fees hknown (decide_eq_true hlower)

/-- The venue a listing is resold on has a fee schedule when its own venue has one. -/
theorem feesFor_resaleVenue {venue : String} (h : Succeeds (feesFor venue)) :
    Succeeds (feesFor (resaleVenueFor venue)) := by
  have hresale : ∀ name ∈ venueFees.map fun fees => fees.venue,
      ((resaleVenues.lookup name).getD name).toLower ∈ venueFees.map fun fees => fees.venue := by
    decide +kernel
  rw [succeeds_feesFor] at h ⊢
  exact hresale venue.toLower h

theorem itemFeeBps_range {baseline : Baseline} {feeBps : Int}
    (h : itemFeeBps baseline = some feeBps) : 0 ≤ feeBps ∧ feeBps < basisPoints := by
  unfold itemFeeBps at h
  split at h
  · split at h
    · rename_i hrange
      cases h
      exact hrange
    · cases h
  · cases h

/-- Only an unknown venue keeps a positive resale price from an estimate. -/
theorem estimateNetProfitCents_ok {payload : EdgePayload} (hlatest : 0 < payload.latestPriceCents)
    {tick : PricedTick} (hvenue : Succeeds (feesFor tick.venue)) :
    Succeeds (estimateNetProfitCents tick payload.baseline) := by
  obtain ⟨buyFees, hbuyFees⟩ := hvenue
  obtain ⟨sellFees, hsellFees⟩ := feesFor_resaleVenue ⟨buyFees, hbuyFees⟩
  obtain ⟨_, _, _, hseller, -⟩ := sellerFeeCents_spec sellFees hlatest.le
    fun _ => itemFeeBps_range
  obtain ⟨_, hbuyer, -⟩ := buyerFeeCents_spec buyFees
    (show (0 : Int) ≤ tick.priceCents from Int.natCast_nonneg _)
  have hmargin :=
    @netResaleMarginCents_of_fees _ _ _ _ buyFees (some sellFees) _ hseller hbuyer
  show Succeeds (feesFor tick.venue >>= _)
  refine succeeds_bind.mpr ⟨buyFees, hbuyFees, succeeds_bind.mpr ⟨sellFees, hsellFees, ?_⟩⟩
  exact succeeds_bind.mpr ⟨_, hmargin, succeeds_ok _⟩

/-- Every baseline is sound, and with amounts in the range of floats each history gets its
baseline or none, and the edge reads the baseline without an error. -/
theorem baselines_safe (D : Doubles) (history : SalesHistory) (medians : List Int) :
    (∀ baseline, buildItemBaseline D history medians = .ok (some baseline) → Sound D baseline) ∧
    (history.AtMost 1020 → Amounts 1020 medians →
      ∃ built, buildItemBaseline D history medians = .ok built ∧
        ∀ baseline, built = some baseline → SafeForEdge D 1020 baseline) := by
  constructor
  · intro baseline hbaseline
    exact sound_of_buildItemBaseline hbaseline
  · intro hhistory hmedians
    obtain ⟨built, hbuilt, hbounds⟩ := buildItemBaseline_ok (D := D) hhistory hmedians (by decide)
    refine ⟨built, hbuilt, ?_⟩
    intro baseline hbaseline sellerFeeBps
    have hsound : Sound D baseline := by
      rw [hbaseline] at hbuilt
      exact sound_of_buildItemBaseline hbuilt
    obtain ⟨hmonth, hvolatility⟩ := hbounds baseline hbaseline
    obtain ⟨payload, hpayload, hpmonth, hpvolatility, hplatest⟩ :=
      @edgePayload_ok D 1021 (baseline.withSellerFee sellerFeeBps) hsound.month hvolatility
        (by decide)
    have hpmonth' : |(payload.rolling30dAvgCents : ℚ)| ≤ 2 ^ 1020 := by
      rw [hpmonth]
      exact hmonth
    refine ⟨payload, hpayload, ?_, ?_, ?_⟩
    · intro currentCents hcurrent
      refine macroZScore_ok hpmonth' ?_ hcurrent (by decide)
      rw [hpvolatility]
      exact hsound.volatility
    · intro priceCents hprice
      exact macroSigmaReached_ok hpmonth' hprice (by decide)
    · intro tick hvenue
      refine estimateNetProfitCents_ok ?_ hvenue
      rw [hplatest]
      exact hsound.latest

/-- Five sales of one day at ten dollars. -/
def fiveSales : List (Int × Int) := [(1, 1000), (2, 1000), (3, 1000), (4, 1000), (5, 1000)]

def fiveSalesWindow : SalesWindow := ⟨some 1000, some 1000, some 1000, some 1000, 5⟩

def fiveSalesHistory : SalesHistory :=
  ⟨"AK-47 | Redline".toList, fiveSalesWindow, fiveSalesWindow, fiveSalesWindow, fiveSalesWindow⟩

theorem fiveSalesWindow_atMost (k : Nat) (h : (1000 : ℚ) ≤ 2 ^ k) : fiveSalesWindow.AtMost k := by
  have hcents : ∀ cents, some (1000 : Int) = some cents → |(cents : ℚ)| ≤ 2 ^ k := by
    intro cents hcents
    cases hcents
    norm_num [h]
  exact ⟨hcents, hcents, le_trans (by norm_num [fiveSalesWindow]) h⟩

theorem amounts_replicate (k n : Nat) (h : (1000 : ℚ) ≤ 2 ^ k) :
    Amounts k (List.replicate n 1000) := by
  intro median hmedian
  cases List.eq_of_mem_replicate hmedian
  exact ⟨by decide, by norm_num [h]⟩

theorem thousand_le : (1000 : ℚ) ≤ 2 ^ 1020 :=
  le_trans (by norm_num) (pow_le_pow_right₀ (by norm_num) (show 10 ≤ 1020 by decide))

/-- Two weeks of equal medians: no spread, so the volatility is one percent. -/
theorem baselines_safe_fiveSales :
    SalesHistory.fromSales Doubles.binary64 "AK-47 | Redline".toList fiveSales 5
        = .ok fiveSalesHistory ∧
      (∃ built, buildItemBaseline Doubles.binary64 fiveSalesHistory (List.replicate 14 1000)
          = .ok built ∧ ∀ baseline, built = some baseline →
        Sound Doubles.binary64 baseline ∧ SafeForEdge Doubles.binary64 1020 baseline) ∧
      (buildItemBaseline Doubles.binary64 fiveSalesHistory (List.replicate 14 1000)).map
        (fun built => built.map (·.volatilityCents)) = .ok (some 10) := by
  have hwindow := fiveSalesWindow_atMost 1020 thousand_le
  obtain ⟨hsound, hsafe⟩ :=
    baselines_safe Doubles.binary64 fiveSalesHistory (List.replicate 14 1000)
  obtain ⟨built, hbuilt, hedge⟩ := hsafe ⟨hwindow, hwindow⟩ (amounts_replicate 1020 14 thousand_le)
  refine ⟨by decide +kernel, ⟨built, hbuilt, ?_⟩, by decide +kernel⟩
  intro baseline hbaseline
  exact ⟨hsound baseline (by rw [hbuilt, hbaseline]), hedge baseline hbaseline⟩

/-- Ten dollars each, sold more often than a float can count. -/
def hugeVolumeWindow : WindowDocument := ⟨.int 10, .int 10, .int 10, .int 10, .int (10 ^ 400)⟩

def hugeVolumeEntry : SkinportEntry :=
  ⟨some "AK-47 | Redline".toList, some "USD".toList, none, none, none, some hugeVolumeWindow, none⟩

def hugeVolumeHistory : SalesHistory :=
  ⟨"AK-47 | Redline".toList, .empty, .empty,
    ⟨some 1000, some 1000, some 1000, some 1000, 10 ^ 400⟩, .empty⟩

/-- A volume of more than 300 digits cannot be divided by the days of a month. -/
theorem build_overflows_hugeVolume :
    SalesHistory.fromSkinport Doubles.binary64 hugeVolumeEntry = .ok (some hugeVolumeHistory) ∧
      (∀ median ∈ List.replicate minDailyPoints (1000 : Int), 0 < median) ∧
      buildItemBaseline Doubles.binary64 hugeVolumeHistory (List.replicate minDailyPoints 1000)
        = .error .overflowError := by
  refine ⟨by decide +kernel, by decide, by decide +kernel⟩

end BrandSniper.Baselines
