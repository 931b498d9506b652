import BrandSniper.Kit.Doubles
import BrandSniper.Listener.Models
import BrandSniper.Shared.Pnl

/-!
# Z-scores

`apps/listener/zscore.py`, over any `FloatArith`: a score is the one the
interpreter computes once that is the arithmetic of IEEE doubles. A squared
deviation raises where it passes the largest double; a score may be infinite
or no number.
-/

namespace BrandSniper

open Kit

/-- The exception of a float operation. -/
def PyError.ofArithmetic : ArithmeticError → PyError
  | .overflowError => .overflowError
  | .zeroDivisionError => .zeroDivisionError
  | .valueError message => .valueError message

/-! ## Settings -/

/-- The tunable detection parameters of `zscore.py`. -/
structure ZScoreSettings where
  minSavingsCents : Int
  zScoreThreshold : ℚ
  zScoreStickerThreshold : ℚ
  minStdDevFactor : ℚ
  minHistoryPoints : Nat
  macroZscoreFallback : Bool
  macroPriorWeight : ℚ
  macroZscoreTriggers : Bool

/-- The values without environment variables. -/
def ZScoreSettings.default : ZScoreSettings where
  minSavingsCents := 50
  zScoreThreshold := -2
  zScoreStickerThreshold := -1
  minStdDevFactor := 1 / 25
  minHistoryPoints := 4
  macroZscoreFallback := true
  macroPriorWeight := 5
  macroZscoreTriggers := false

/-- The sources a score can have: `local`, `hybrid` and `macro`. -/
inductive ZScoreSource where
  | localWindow
  | hybrid
  | macroOnly
  deriving DecidableEq, Repr

/-- `ZSCORE_SOURCES` -/
def ZScoreSource.label : ZScoreSource → String
  | .localWindow => "local"
  | .hybrid => "hybrid"
  | .macroOnly => "macro"

/-! ## The score -/

/-- The macro average and volatility, when both are there and positive. -/
def availableMacro (S : ZScoreSettings) (macroRollingAvgCents macroVolatilityCents : Option Int) :
    Option (Int × Int) :=
  match macroRollingAvgCents, macroVolatilityCents with
  | some avg, some vol =>
      if S.macroZscoreFallback = true ∧ 0 < vol ∧ 0 < avg then some (avg, vol) else none
  | _, _ => none

/-- Layer 1: the newest price against the long-term average, in units of the volatility or of one
percent of the average, whichever is larger. -/
def macroZScore (F : FloatArith) (current avg vol : Int) :
    Except ArithmeticError (Double × ℚ × ZScoreSource) := do
  let scaled := F.mul (← F.ofInt avg) (F.round (1 / 100))
  let zScore ←
    if .finite vol < scaled then do F.div (← F.ofInt (current - avg)) scaled
    else (F.divInts (current - avg) vol).map .finite
  return (zScore, ← F.ofInt avg, .macroOnly)

/-- `(x - mean) ** 2` -/
def squaredDeviation (F : FloatArith) (mean : ℚ) (x : Int) : Except ArithmeticError Double := do
  F.square (F.sub (← F.ofInt x) mean)

/-- Mean of the history, and its variance around that mean. -/
def historyMoments (F : FloatArith) (history : List Int) : Except ArithmeticError (ℚ × Double) := do
  let n : Int := history.length
  let mean ← F.divInts history.sum n
  if 1 < n then
    let squares ← history.mapM (squaredDeviation F mean)
    return (mean, ← F.div (F.sumFloats squares) (← F.ofInt (n - 1)))
  else
    return (mean, .finite 0)

/-- The variance blended toward that of the macro prior: what is divided, and what it is divided
by. -/
def blendedParts (F : FloatArith) (S : ZScoreSettings) (n : Nat) (mean : ℚ) (variance : Double)
    (macroCv : ℚ) : Except ArithmeticError (Double × Double) := do
  let count ← F.ofInt n
  let prior ← F.square (F.mul mean macroCv)
  return (F.add (F.mul count variance) (F.mul S.macroPriorWeight prior),
    F.add count S.macroPriorWeight)

def blendedStdDev (F : FloatArith) (S : ZScoreSettings) (n : Nat) (mean : ℚ) (variance : Double)
    (macroCv : ℚ) : Except ArithmeticError Double := do
  let (blended, weights) ← blendedParts F S n mean variance macroCv
  F.div blended weights >>= F.mathSqrt

/-- The standard deviation the newest price is measured in, and where it comes from:
blended with the macro prior when there is one, else regularised. -/
def effectiveStdDev (F : FloatArith) (S : ZScoreSettings) (n : Nat) (mean : ℚ) (variance : Double)
    (macroAvailable : Bool) (macroCv : Option ℚ) :
    Except ArithmeticError (Double × ZScoreSource) := do
  let stdDev ← F.mathSqrt variance
  match macroAvailable, macroCv.filter (fun cv => 0 < cv) with
  | true, some cv => return (← blendedStdDev F S n mean variance cv, .hybrid)
  | _, _ => return (stdDev.max (F.mul mean S.minStdDevFactor), .localWindow)

/-- Layer 2: the newest price against the prices before it. -/
def windowZScore (F : FloatArith) (S : ZScoreSettings) (history : List Int) (current : Int)
    (macroAvailable : Bool) (macroCv : Option ℚ) :
    Except ArithmeticError (Double × ℚ × ZScoreSource) := do
  let (mean, variance) ← historyMoments F history
  let (stdDev, source) ← effectiveStdDev F S history.length mean variance macroAvailable macroCv
  let zScore ← F.div (F.sub (← F.ofInt current) mean) stdDev
  return (zScore, mean, source)

/-- `prices[-1]` -/
def currentTickPrice (prices : List Int) : Option Int := prices.getLast?

/-- (z-score, mean, source) of the newest price, or `none` with too little history. -/
def calculateZScore (F : FloatArith) (S : ZScoreSettings) (prices : List Int)
    (macroRollingAvgCents macroVolatilityCents : Option Int) (macroCv : Option ℚ) :
    Except PyError (Option (Double × ℚ × ZScoreSource)) :=
  let available := availableMacro S macroRollingAvgCents macroVolatilityCents
  match currentTickPrice prices with
  | none => .error .indexError
  | some current =>
      if prices.length < S.minHistoryPoints then
        match available with
        | some (avg, vol) => ((macroZScore F current avg vol).map some).mapError .ofArithmetic
        | none => .ok none
      else
        ((windowZScore F S prices.dropLast current available.isSome macroCv).map some).mapError
          .ofArithmetic

/-- False for a macro score unless `MACRO_ZSCORE_TRIGGERS` is set. -/
def sourceCanTrigger (S : ZScoreSettings) (source : ZScoreSource) : Bool :=
  source != .macroOnly || S.macroZscoreTriggers

/-- Whether a score goes on to the DRE: below the threshold, and for a tick without
stickers also the savings floor below the mean. -/
def shouldTriggerAnomaly (F : FloatArith) (S : ZScoreSettings) (zScore : Double) (meanCents : ℚ)
    (tick : PricedTick) (source : ZScoreSource) : Bool :=
  if ¬ sourceCanTrigger S source then false
  else
    let thresholdZ := if tick.stickers.length > 0 then S.zScoreStickerThreshold
      else S.zScoreThreshold
    if .finite thresholdZ ≤ zScore then false
    -- a price in cents was rounded from a float, so it is one
    else if tick.stickers.length = 0 ∧
        F.sub meanCents (F.ofRat tick.priceCents) < .finite S.minSavingsCents then
      false
    else true

theorem shouldTrigger_sourceCanTrigger {F : FloatArith} {S : ZScoreSettings} {z : Double} {mean : ℚ}
    {tick : PricedTick} {source : ZScoreSource}
    (h : shouldTriggerAnomaly F S z mean tick source = true) :
    sourceCanTrigger S source = true := by
  by_contra hsource
  simp [shouldTriggerAnomaly, hsource] at h

/-! ## When scoring raises -/

theorem availableMacro_pos {S : ZScoreSettings} {avg? vol? : Option Int} {avg vol : Int}
    (h : availableMacro S avg? vol? = some (avg, vol)) : 0 < vol ∧ 0 < avg := by
  unfold availableMacro at h
  split at h
  · split at h
    · rename_i hpos
      cases h
      exact hpos.2
    · cases h
  · cases h

/-- The average, or the newest price less the average in the unit it is divided by, is too large
for a float. -/
def MacroOverflows (F : FloatArith) (current avg vol : Int) : Prop :=
  F.inRange (F.round avg) = false ∨
    if .finite vol < F.mul (F.round avg) (F.round (1 / 100)) then
      F.inRange (F.round (current - avg : Int)) = false
    else F.inRange (F.round ((current - avg : Int) / (vol : ℚ))) = false

/-- A macro score is refused for its size only: its divisor is at least the volatility. -/
theorem macroZScore_error_iff (F : FloatArith) (current avg vol : Int) (hvol : 0 < vol) :
    (∃ e, macroZScore F current avg vol = .error e) ↔ MacroOverflows F current avg vol := by
  have hnonzero : ∀ scaled : Double, .finite (vol : ℚ) < scaled → scaled ≠ .finite 0 := by
    rintro scaled hscaled rfl
    have hlt : ((vol : Int) : ℚ) < 0 := Double.finite_lt_finite.mp hscaled
    have hpos : (0 : ℚ) < vol := by exact_mod_cast hvol
    exact lt_asymm hlt hpos
  unfold macroZScore MacroOverflows
  cases havg : F.inRange (F.round avg) with
  | false => simp [FloatArith.ofInt, havg, bind, Except.bind]
  | true =>
      simp only [FloatArith.ofInt, havg, if_true, bind, Except.bind, Bool.true_eq_false, false_or]
      split
      · rename_i hscaled
        cases hdifference : F.inRange (F.round (current - avg : Int)) with
        | false => simp
        | true =>
            simp only [if_true, Bool.true_eq_false, iff_false, FloatArith.div,
              if_neg (hnonzero _ hscaled)]
            generalize F.mul (F.round avg) (F.round (1 / 100)) = scaled
            cases scaled <;> simp [pure, Except.pure]
      · rw [FloatArith.divInts, if_neg hvol.ne']
        cases F.inRange (F.round ((current - avg : Int) / (vol : ℚ))) with
        | false => simp [Except.map]
        | true => simp [Except.map, pure, Except.pure]

/-- The history gives nothing to measure the newest price in: it is empty, its mean or the square
of a deviation is too large for a float, the variance has no root, or it is zero (or is itself
divided by a zero weight). -/
def NoSpread (F : FloatArith) (S : ZScoreSettings) (history : List Int) (macroAvailable : Bool)
    (macroCv : Option ℚ) : Prop :=
  ∀ moments stdDev, historyMoments F history = .ok moments →
    effectiveStdDev F S history.length moments.1 moments.2 macroAvailable macroCv = .ok stdDev →
    stdDev.1 = .finite 0

/-- Only a zero divisor raises. -/
theorem div_error_iff (F : FloatArith) (x y : Double) :
    (∃ e, F.div x y = .error e) ↔ y = .finite 0 := by
  unfold FloatArith.div
  split
  · rename_i hzero
    exact iff_of_true ⟨_, rfl⟩ hzero
  · rename_i hzero
    refine iff_of_false ?_ hzero
    rintro ⟨e, he⟩
    split at he <;> cases he

theorem windowZScore_error_iff (F : FloatArith) (S : ZScoreSettings) (history : List Int)
    (current : Int) (macroAvailable : Bool) (macroCv : Option ℚ) :
    (∃ e, windowZScore F S history current macroAvailable macroCv = .error e)
      ↔ NoSpread F S history macroAvailable macroCv ∨ F.inRange (F.round current) = false := by
  unfold windowZScore
  cases hmoments : historyMoments F history with
  | error e =>
      have hspread : NoSpread F S history macroAvailable macroCv := fun moments _ hm => by
        rw [hmoments] at hm
        cases hm
      simp [bind, Except.bind, hspread]
  | ok moments =>
      obtain ⟨mean, variance⟩ := moments
      have hspread : NoSpread F S history macroAvailable macroCv ↔ ∀ stdDev,
          effectiveStdDev F S history.length mean variance macroAvailable macroCv = .ok stdDev →
            stdDev.1 = .finite 0 := by
        constructor
        · exact fun h stdDev hdev => h (mean, variance) stdDev hmoments hdev
        · intro h moments stdDev hm hdev
          rw [hmoments] at hm
          cases hm
          exact h stdDev hdev
      rw [hspread]
      cases hdev : effectiveStdDev F S history.length mean variance macroAvailable macroCv with
      | error e => simp [bind, Except.bind, hdev]
      | ok dev =>
          obtain ⟨stdDev, source⟩ := dev
          have hdiv := div_error_iff F (F.sub (F.round current) mean) stdDev
          cases hcurrent : F.inRange (F.round current) with
          | false => simp [bind, Except.bind, hdev, FloatArith.ofInt, hcurrent]
          | true =>
              simp only [bind, Except.bind, hdev, FloatArith.ofInt, hcurrent, if_true,
                Except.ok.injEq, forall_eq', Bool.true_eq_false, or_false]
              rw [← hdiv]
              cases F.div (F.sub (F.round current) mean) stdDev <;> simp [pure, Except.pure]

/-- Scoring raises: the window is empty, or it is scored by the macro baseline and that is too
large, or by its own prices and they give no spread or the newest is too large for a float. -/
def ScoreRaises (F : FloatArith) (S : ZScoreSettings) (prices : List Int) (avg? vol? : Option Int)
    (cv : Option ℚ) : Prop :=
  ∀ current, prices.getLast? = some current →
    if prices.length < S.minHistoryPoints then
      ∃ avg vol, availableMacro S avg? vol? = some (avg, vol) ∧ MacroOverflows F current avg vol
    else NoSpread F S prices.dropLast (availableMacro S avg? vol?).isSome cv ∨
      F.inRange (F.round current) = false

theorem mapError_error_iff {α : Type} {result : Except ArithmeticError α} :
    (∃ e, result.mapError PyError.ofArithmetic = .error e) ↔ ∃ e, result = .error e := by
  cases result <;> simp [Except.mapError]

theorem calculateZScore_error_iff (F : FloatArith) (S : ZScoreSettings) (prices : List Int)
    (avg? vol? : Option Int) (cv : Option ℚ) :
    (∃ e, calculateZScore F S prices avg? vol? cv = .error e) ↔
      ScoreRaises F S prices avg? vol? cv := by
  unfold calculateZScore currentTickPrice ScoreRaises
  cases hlast : prices.getLast? with
  | none => simp
  | some current =>
      simp only [Option.some.injEq, forall_eq']
      split
      · cases hprior : availableMacro S avg? vol? with
        | none => simp
        | some baseline =>
            obtain ⟨avg, vol⟩ := baseline
            have hmacro := macroZScore_error_iff F current avg vol (availableMacro_pos hprior).1
            simp only [mapError_error_iff, Option.some.injEq, Prod.mk.injEq, ↓existsAndEq, and_true,
              true_and]
            rw [← hmacro]
            cases macroZScore F current avg vol <;> simp [Except.map]
      · rw [mapError_error_iff, ← windowZScore_error_iff]
        cases windowZScore F S prices.dropLast current (availableMacro S avg? vol?).isSome cv <;>
          simp [Except.map]

end BrandSniper
