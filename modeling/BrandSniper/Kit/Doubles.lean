import Mathlib.Algebra.Order.BigOperators.Group.List
import Mathlib.Algebra.Order.Floor.Ring
import Mathlib.Data.Int.Log
import Mathlib.Data.Rat.Floor
import Mathlib.Tactic.Linarith
import BrandSniper.Kit.Results

/-!
# Doubles and their range

Python's arithmetic of floats and integers as far as it can raise: a quotient
of integers, a conversion of an integer and a power of a float raise where the
result passes the largest double, a sum, a product or a difference of floats is
infinite there, and an infinite float cannot be rounded to an integer.

A double is a rational, an infinity or no number. `FloatArith` is any rounding
with any range; `Doubles` is one with the laws of binary64, whose smallest
number above zero is `2 ^ -1074`. As long as every number is at most `2 ^ k` in
size, with `k` below 1024, no operation raises (`ofInt_ok`, `divInts_ok`,
`ofRat_eq`).
-/

namespace Kit

inductive ArithmeticError where
  | overflowError
  | zeroDivisionError
  | valueError (message : String)
  deriving DecidableEq

/-- The nearest integer, halves to the even one. -/
def roundHalfEven (q : ℚ) : Int :=
  let below := q.floor
  if q - below < 1 / 2 then below
  else if 1 / 2 < q - below then below + 1
  else if below % 2 = 0 then below
  else below + 1

theorem roundHalfEven_le {q : ℚ} {n : Int} (h : q ≤ n) : roundHalfEven q ≤ n := by
  have hfloor : (q.floor : ℚ) ≤ q := Int.floor_le q
  have hle : q.floor ≤ n := by exact_mod_cast hfloor.trans h
  rcases hle.eq_or_lt with heq | hlt
  · have hsmall : q - q.floor < 1 / 2 := by
      rw [heq]
      linarith
    rw [roundHalfEven, if_pos hsmall]
    exact hle
  · unfold roundHalfEven
    dsimp only
    split_ifs <;> omega

theorem le_roundHalfEven {q : ℚ} {n : Int} (h : (n : ℚ) ≤ q) : n ≤ roundHalfEven q := by
  have hle : n ≤ q.floor := Int.le_floor.mpr h
  unfold roundHalfEven
  dsimp only
  split_ifs <;> omega

theorem abs_roundHalfEven_le {q : ℚ} {n : Int} (h : |q| ≤ n) : |roundHalfEven q| ≤ n := by
  rw [abs_le] at h ⊢
  refine ⟨le_roundHalfEven ?_, roundHalfEven_le h.2⟩
  rw [Int.cast_neg]
  exact h.1

theorem roundHalfEven_intCast (n : Int) : roundHalfEven (n : ℚ) = n :=
  le_antisymm (roundHalfEven_le (le_refl _)) (le_roundHalfEven (le_refl _))

theorem roundHalfEven_mono {a b : ℚ} (h : a ≤ b) : roundHalfEven a ≤ roundHalfEven b := by
  have hfloor : a.floor ≤ b.floor := Int.floor_mono h
  rcases hfloor.eq_or_lt with heq | hlt
  · unfold roundHalfEven
    dsimp only
    rw [heq]
    split_ifs <;> first | omega | linarith
  · have habove : a ≤ (a.floor + 1 : Int) := by
      push_cast
      exact (Int.lt_floor_add_one a).le
    have hbelow : ((b.floor : Int) : ℚ) ≤ b := Int.floor_le b
    exact (roundHalfEven_le habove).trans ((Int.add_one_le_of_lt hlt).trans
      (le_roundHalfEven hbelow))

theorem abs_roundHalfEven_sub_le (q : ℚ) : |(roundHalfEven q : ℚ) - q| ≤ 1 / 2 := by
  have hle : (q.floor : ℚ) ≤ q := Int.floor_le q
  have hlt : q < q.floor + 1 := Int.lt_floor_add_one q
  rw [abs_le]
  unfold roundHalfEven
  dsimp only
  split_ifs <;> push_cast <;> constructor <;> linarith

theorem roundHalfEven_neg (q : ℚ) : roundHalfEven (-q) = -roundHalfEven q := by
  have hle : (q.floor : ℚ) ≤ q := Int.floor_le q
  have hlt : q < q.floor + 1 := Int.lt_floor_add_one q
  rcases hle.eq_or_lt with heq | hpos
  · rw [← heq, roundHalfEven_intCast, ← Int.cast_neg, roundHalfEven_intCast]
  · have hfloor : (-q).floor = -q.floor - 1 := by
      show ⌊-q⌋ = _
      apply Int.floor_eq_iff.mpr
      push_cast
      constructor <;> linarith
    -- what is above one floor is below the other, and one of them is odd
    unfold roundHalfEven
    dsimp only
    rw [hfloor]
    push_cast
    split_ifs <;> first | omega | linarith

/-! ## The nearest double -/

/-- Exponent of the last of the 53 digits of the doubles around `q`. -/
def unitExponent (q : ℚ) : Int := max (Int.log 2 |q|) (-1022) - 52

def nearestDouble (q : ℚ) : ℚ := roundHalfEven (q / 2 ^ unitExponent q) * 2 ^ unitExponent q

section
variable {q : ℚ} {k : Int}

theorem unitExponent_neg (q : ℚ) : unitExponent (-q) = unitExponent q := by
  rw [unitExponent, unitExponent, abs_neg]

theorem nearestDouble_neg (q : ℚ) : nearestDouble (-q) = -nearestDouble q := by
  rw [nearestDouble, nearestDouble, unitExponent_neg, neg_div, roundHalfEven_neg, Int.cast_neg,
    neg_mul]

theorem two_zpow_eq_units {u : Int} (h : u ≤ k) :
    ((2 ^ (k - u).toNat : Int) : ℚ) = 2 ^ k / 2 ^ u := by
  rw [← zpow_sub₀ (by norm_num), Int.cast_pow, Int.cast_ofNat, ← zpow_natCast,
    Int.toNat_of_nonneg (by omega)]

/-- A power of two no smaller than the last digit is not passed from below. -/
theorem nearestDouble_le (h : q ≤ 2 ^ k) (hk : unitExponent q ≤ k) : nearestDouble q ≤ 2 ^ k := by
  have hunit : (0 : ℚ) < 2 ^ unitExponent q := zpow_pos (by norm_num) _
  have hle : q / 2 ^ unitExponent q ≤ (2 ^ (k - unitExponent q).toNat : Int) := by
    rw [two_zpow_eq_units hk]
    exact div_le_div_of_nonneg_right h hunit.le
  have hround : (roundHalfEven (q / 2 ^ unitExponent q) : ℚ) ≤ 2 ^ k / 2 ^ unitExponent q := by
    rw [← two_zpow_eq_units hk]
    exact_mod_cast roundHalfEven_le hle
  exact (le_div_iff₀ hunit).mp hround

theorem le_nearestDouble (h : 2 ^ k ≤ q) (hk : unitExponent q ≤ k) : 2 ^ k ≤ nearestDouble q := by
  have hunit : (0 : ℚ) < 2 ^ unitExponent q := zpow_pos (by norm_num) _
  have hle : ((2 ^ (k - unitExponent q).toNat : Int) : ℚ) ≤ q / 2 ^ unitExponent q := by
    rw [two_zpow_eq_units hk]
    exact div_le_div_of_nonneg_right h hunit.le
  have hround : 2 ^ k / 2 ^ unitExponent q ≤ (roundHalfEven (q / 2 ^ unitExponent q) : ℚ) := by
    rw [← two_zpow_eq_units hk]
    exact_mod_cast le_roundHalfEven hle
  exact (div_le_iff₀ hunit).mp hround

theorem nearestDouble_two_zpow (hk : -1074 ≤ k) : nearestDouble (2 ^ k) = 2 ^ k := by
  have hlog : Int.log 2 |(2 ^ k : ℚ)| = k := by
    have := Int.log_zpow (R := ℚ) (b := 2) (by norm_num) k
    rwa [Nat.cast_ofNat, ← abs_of_nonneg (zpow_nonneg (by norm_num) k : (0 : ℚ) ≤ 2 ^ k)] at this
  have hunit : unitExponent (2 ^ k) ≤ k := by
    rw [unitExponent, hlog]
    omega
  exact le_antisymm (nearestDouble_le (le_refl _) hunit) (le_nearestDouble (le_refl _) hunit)

theorem nearestDouble_nonneg (h : 0 ≤ q) : 0 ≤ nearestDouble q := by
  have hunit : (0 : ℚ) < 2 ^ unitExponent q := zpow_pos (by norm_num) _
  have hround : 0 ≤ roundHalfEven (q / 2 ^ unitExponent q) :=
    le_roundHalfEven (by rw [Int.cast_zero]; exact div_nonneg h hunit.le)
  exact mul_nonneg (by exact_mod_cast hround) hunit.le

/-- Two numbers with the same last digit are rounded alike, and a power of two lies between any
other two. -/
theorem nearestDouble_mono_of_pos {a b : ℚ} (ha : 0 < a) (h : a ≤ b) :
    nearestDouble a ≤ nearestDouble b := by
  have hb : 0 < b := ha.trans_le h
  have hlog : Int.log 2 |a| ≤ Int.log 2 |b| := by
    rw [abs_of_pos ha, abs_of_pos hb]
    exact Int.log_mono_right ha h
  rcases lt_or_ge (unitExponent a) (unitExponent b) with hlt | hge
  · have hbinade : Int.log 2 |a| + 1 ≤ Int.log 2 |b| ∧ -1022 < Int.log 2 |b| := by
      unfold unitExponent at hlt
      omega
    have hbelow : a ≤ 2 ^ Int.log 2 |b| := by
      have hnext := Int.lt_zpow_succ_log_self (b := 2) (by norm_num) |a|
      rw [Nat.cast_ofNat] at hnext
      exact (le_abs_self a).trans (hnext.le.trans (zpow_le_zpow_right₀ (by norm_num) hbinade.1))
    have habove : 2 ^ Int.log 2 |b| ≤ b := by
      have := Int.zpow_log_le_self (b := 2) (by norm_num) hb
      rw [Nat.cast_ofNat] at this
      rwa [abs_of_pos hb]
    have hunits : unitExponent a ≤ Int.log 2 |b| ∧ unitExponent b ≤ Int.log 2 |b| := by
      unfold unitExponent
      omega
    exact (nearestDouble_le hbelow hunits.1).trans (le_nearestDouble habove hunits.2)
  · have heq : unitExponent a = unitExponent b := by
      refine le_antisymm ?_ hge
      unfold unitExponent
      omega
    have hunit : (0 : ℚ) < 2 ^ unitExponent b := zpow_pos (by norm_num) _
    rw [nearestDouble, nearestDouble, heq]
    apply mul_le_mul_of_nonneg_right _ hunit.le
    exact_mod_cast roundHalfEven_mono (div_le_div_of_nonneg_right h hunit.le)

theorem nearestDouble_mono {a b : ℚ} (h : a ≤ b) : nearestDouble a ≤ nearestDouble b := by
  rcases lt_or_ge 0 a with ha | ha
  · exact nearestDouble_mono_of_pos ha h
  · rcases lt_or_ge b 0 with hb | hb
    · have hneg := nearestDouble_mono_of_pos (neg_pos.mpr hb) (neg_le_neg h)
      rw [nearestDouble_neg, nearestDouble_neg] at hneg
      exact neg_le_neg_iff.mp hneg
    · have hneg := nearestDouble_nonneg (neg_nonneg.mpr ha)
      rw [nearestDouble_neg] at hneg
      exact (neg_nonneg.mp hneg).trans (nearestDouble_nonneg hb)

theorem nearestDouble_zero : nearestDouble 0 = 0 := by
  have hneg := nearestDouble_neg 0
  rw [neg_zero] at hneg
  linarith

/-- No double has a digit above the 53 of its binade, or it is the next power of two. -/
theorem abs_nearestDouble_le (q : ℚ) : |nearestDouble q| ≤ 2 ^ (unitExponent q + 53) := by
  have hbelow : |q| ≤ 2 ^ (unitExponent q + 53) := by
    have hlog := Int.lt_zpow_succ_log_self (b := 2) (by norm_num) |q|
    rw [Nat.cast_ofNat] at hlog
    apply hlog.le.trans (zpow_le_zpow_right₀ (by norm_num) _)
    unfold unitExponent
    omega
  have hpow : nearestDouble (2 ^ (unitExponent q + 53)) = 2 ^ (unitExponent q + 53) := by
    apply nearestDouble_two_zpow
    unfold unitExponent
    omega
  rw [abs_le] at hbelow ⊢
  constructor
  · have hmono := nearestDouble_mono hbelow.1
    rwa [nearestDouble_neg, hpow] at hmono
  · have hmono := nearestDouble_mono hbelow.2
    rwa [hpow] at hmono

theorem nearestDouble_nearestDouble (q : ℚ) :
    nearestDouble (nearestDouble q) = nearestDouble q := by
  rcases (abs_nearestDouble_le q).lt_or_eq with hlt | heq
  · rcases eq_or_ne (nearestDouble q) 0 with hzero | hne
    · rw [hzero, nearestDouble_zero]
    · -- the last digit is that of `q` or a lower one, so it divides the whole
      have hlog : Int.log 2 |nearestDouble q| < unitExponent q + 53 :=
        (Int.lt_zpow_iff_log_lt (by norm_num) (abs_pos.mpr hne)).mp (by exact_mod_cast hlt)
      have hunit : unitExponent (nearestDouble q) ≤ unitExponent q := by
        unfold unitExponent at hlog ⊢
        omega
      have hpos : (2 : ℚ) ^ unitExponent (nearestDouble q) ≠ 0 := (zpow_pos (by norm_num) _).ne'
      have hwhole : nearestDouble q / 2 ^ unitExponent (nearestDouble q)
          = (roundHalfEven (q / 2 ^ unitExponent q)
              * 2 ^ (unitExponent q - unitExponent (nearestDouble q)).toNat : Int) := by
        rw [Int.cast_mul, two_zpow_eq_units hunit, ← mul_div_assoc]
        rfl
      conv_lhs => rw [nearestDouble, hwhole, roundHalfEven_intCast, ← hwhole]
      exact div_mul_cancel₀ _ hpos
  · have hlow : -1074 ≤ unitExponent q + 53 := by
      unfold unitExponent
      omega
    rcases eq_or_eq_neg_of_abs_eq heq with h | h
    · rw [h, nearestDouble_two_zpow hlow]
    · rw [h, nearestDouble_neg, nearestDouble_two_zpow hlow]

end

inductive Double where
  | finite (q : ℚ)
  | infinite (negative : Bool)
  | nan
  deriving DecidableEq

namespace Double

instance : Coe ℚ Double := ⟨.finite⟩

/-- `x < y`: nothing is below or above what is no number. -/
def lt : Double → Double → Bool
  | .finite x, .finite y => decide (x < y)
  | .finite _, .infinite negative => !negative
  | .infinite negative, .finite _ => negative
  | .infinite a, .infinite b => a && !b
  | _, _ => false

def le : Double → Double → Bool
  | .finite x, .finite y => decide (x ≤ y)
  | .finite _, .infinite negative => !negative
  | .infinite negative, .finite _ => negative
  | .infinite a, .infinite b => a || !b
  | _, _ => false

instance : LT Double := ⟨fun x y => x.lt y = true⟩

instance : LE Double := ⟨fun x y => x.le y = true⟩

instance (x y : Double) : Decidable (x < y) := inferInstanceAs (Decidable (_ = true))

instance (x y : Double) : Decidable (x ≤ y) := inferInstanceAs (Decidable (_ = true))

@[simp] theorem finite_lt_finite {x y : ℚ} : finite x < finite y ↔ x < y := decide_eq_true_iff

@[simp] theorem finite_le_finite {x y : ℚ} : finite x ≤ finite y ↔ x ≤ y := decide_eq_true_iff

/-- What is not below a rational is a rational or infinite. -/
theorem finite_le_iff {c : ℚ} {x : Double} :
    .finite c ≤ x ↔ (∃ q, c ≤ q ∧ x = .finite q) ∨ x = .infinite false := by
  cases x with
  | finite q => simp
  | infinite negative => cases negative <;> simp [LE.le, le]
  | nan => simp [LE.le, le]

theorem finite_lt_iff {c : ℚ} {x : Double} :
    .finite c < x ↔ (∃ q, c < q ∧ x = .finite q) ∨ x = .infinite false := by
  cases x with
  | finite q => simp
  | infinite negative => cases negative <;> simp [LT.lt, lt]
  | nan => simp [LT.lt, lt]

theorem finite_lt_of_le {b c : ℚ} {x : Double} (hb : b < c) (h : .finite c ≤ x) :
    .finite b < x := by
  rcases finite_le_iff.mp h with ⟨q, hle, rfl⟩ | rfl
  · exact finite_lt_finite.mpr (hb.trans_le hle)
  · rfl

theorem le_of_finite_lt {c : ℚ} {x : Double} (h : .finite c < x) : .finite c ≤ x := by
  rcases finite_lt_iff.mp h with ⟨q, hlt, rfl⟩ | rfl
  · exact finite_le_finite.mpr hlt.le
  · rfl

/-- `max(x, y)` -/
def max (x y : Double) : Double := if x < y then y else x

/-- A maximum is above zero when one of its arguments is, as long as the first is a number. -/
theorem max_pos_iff {x y : Double} (hx : .finite 0 ≤ x) :
    .finite 0 < x.max y ↔ .finite 0 < x ∨ .finite 0 < y := by
  unfold max
  split
  · rename_i hlt
    refine ⟨.inr, fun h => h.elim (fun hpos => ?_) id⟩
    rcases finite_lt_iff.mp hpos with ⟨q, hq, rfl⟩ | rfl
    · rcases finite_lt_iff.mp hlt with ⟨r, hr, rfl⟩ | rfl
      · exact finite_lt_finite.mpr (hq.trans hr)
      · rfl
    · cases y <;> simp [LT.lt, lt] at hlt
  · rename_i hnot
    refine ⟨.inl, fun h => h.elim id (fun hpos => ?_)⟩
    rcases finite_le_iff.mp hx with ⟨q, hq, rfl⟩ | rfl
    · rcases finite_lt_iff.mp hpos with ⟨r, hr, rfl⟩ | rfl
      · exact finite_lt_finite.mpr (hr.trans_le (not_lt.mp fun h => hnot (finite_lt_finite.mpr h)))
      · exact absurd rfl hnot
    · rfl

/-- A function of rationals on what is finite. -/
def map (f : ℚ → ℚ) : Double → Double
  | .finite q => .finite (f q)
  | x => x

@[simp] theorem map_id (x : Double) : x.map id = x := by cases x <;> rfl

def isNegative : Double → Bool
  | .finite q => decide (q < 0)
  | .infinite negative => negative
  | .nan => false

def neg : Double → Double
  | .finite q => .finite (-q)
  | .infinite negative => .infinite (!negative)
  | .nan => .nan

/-- `round(x)` -/
def toInt : Double → Except ArithmeticError Int
  | .finite q => .ok (roundHalfEven q)
  | .infinite _ => .error .overflowError
  | .nan => .error (.valueError "cannot convert float NaN to integer")

end Double

/-! ## Operations -/

/-- Rounding, square root and the `sum` of floats, and which of their results are finite. -/
structure FloatArith where
  round : ℚ → ℚ
  sqrt : ℚ → ℚ
  sum : List ℚ → ℚ
  inRange : ℚ → Bool

namespace FloatArith

variable (F : FloatArith)

/-- The result of a float operation. -/
def ofRat (q : ℚ) : Double :=
  if F.inRange (F.round q) then .finite (F.round q) else .infinite (decide (q < 0))

/-- `float(n)` -/
def ofInt (n : Int) : Except ArithmeticError ℚ :=
  if F.inRange (F.round n) then .ok (F.round n) else .error .overflowError

/-- `a / b` -/
def divInts (a b : Int) : Except ArithmeticError ℚ :=
  if b = 0 then .error .zeroDivisionError
  else if F.inRange (F.round (a / b)) then .ok (F.round (a / b))
  else .error .overflowError

def add : Double → Double → Double
  | .finite x, .finite y => F.ofRat (x + y)
  | .infinite a, .infinite b => if a = b then .infinite a else .nan
  | .infinite a, .finite _ => .infinite a
  | .finite _, .infinite b => .infinite b
  | _, _ => .nan

def sub : Double → Double → Double
  | .finite x, .finite y => F.ofRat (x - y)
  | x, y => F.add x y.neg

def mul : Double → Double → Double
  | .finite x, .finite y => F.ofRat (x * y)
  | .nan, _ => .nan
  | _, .nan => .nan
  | x, y => if x = .finite 0 ∨ y = .finite 0 then .nan else .infinite (x.isNegative != y.isNegative)

def div (x y : Double) : Except ArithmeticError Double :=
  if y = .finite 0 then .error .zeroDivisionError
  else
    match x, y with
    | .finite x, .finite y => .ok (F.ofRat (x / y))
    | .finite _, .infinite _ => .ok (.finite 0)
    | .infinite a, .finite y => .ok (.infinite (a != decide (y < 0)))
    | _, _ => .ok .nan

/-- `x ** 2` -/
def square : Double → Except ArithmeticError Double
  | .finite x =>
      if F.inRange (F.round (x * x)) then .ok (.finite (F.round (x * x)))
      else .error .overflowError
  | .infinite _ => .ok (.infinite false)
  | .nan => .ok .nan

/-- `math.sqrt(x)` -/
def mathSqrt : Double → Except ArithmeticError Double
  | .finite q =>
      if q < 0 then .error (.valueError "math domain error") else .ok (.finite (F.sqrt q))
  | .infinite false => .ok (.infinite false)
  | .infinite true => .error (.valueError "math domain error")
  | .nan => .ok .nan

/-- `sum` of floats none of which is negative. -/
def sumFloats (xs : List Double) : Double :=
  if .nan ∈ xs then .nan
  else if .infinite false ∈ xs then .infinite false
  else
    let total := F.sum (xs.filterMap fun x =>
      match x with
      | .finite q => some q
      | _ => none)
    if F.inRange total then .finite total else .infinite false

/-- Exact arithmetic without an end, with the integer part for the square root: what doubles
compute as long as every result is a small whole number. -/
def exact : FloatArith where
  round q := q
  sqrt q := (q.floor.toNat.sqrt : ℚ)
  sum l := l.foldr (· + ·) 0
  inRange _ := true

theorem divInts_exact {a b : Int} (h : b ≠ 0) : exact.divInts a b = .ok ((a : ℚ) / b) := by
  rw [divInts, if_neg h]
  rfl

theorem mul_exact (x y : ℚ) : exact.mul x y = .finite (x * y) := rfl

end FloatArith

/-! ## Results in range -/

/-- Exponent of the first power of two that is no double. -/
def maxExponent : Nat := 1024

/-- Exponent of the smallest double above zero. -/
def minExponent : Int := -1074

def InRange (q : ℚ) : Prop := |q| < 2 ^ maxExponent

instance (q : ℚ) : Decidable (InRange q) := inferInstanceAs (Decidable (_ < _))

/-- Rounding to 53 binary digits, with square root, sum and natural logarithm. -/
structure Doubles extends FloatArith where
  log : Nat → ℚ
  inRange_eq : ∀ q, inRange q = decide (InRange q)
  round_mono : ∀ a b, a ≤ b → round a ≤ round b
  round_neg : ∀ q, round (-q) = -round q
  round_round : ∀ q, round (round q) = round q
  round_two_zpow : ∀ k : Int, minExponent ≤ k → round (2 ^ k) = 2 ^ k
  sqrt_zero : sqrt 0 = 0
  sqrt_nonneg : ∀ q, 0 ≤ sqrt q
  sqrt_pos : ∀ q, 0 < round q → 0 < sqrt (round q)
  sqrt_le : ∀ (k : Nat) q, q ≤ 2 ^ k * 2 ^ k → sqrt q ≤ 2 ^ k
  one_le_sqrt : ∀ q, 1 ≤ q → 1 ≤ sqrt q
  sum_zero : ∀ n, sum (List.replicate n 0) = 0
  /-- A sum is at least half of what each of its terms is. -/
  le_sum : ∀ (l : List ℚ) (k : Int), minExponent < k → (∀ x ∈ l, 0 ≤ x) → (∃ x ∈ l, 2 ^ k ≤ x) →
    2 ^ (k - 1) ≤ sum l
  sum_nonneg : ∀ l : List ℚ, (∀ x ∈ l, 0 ≤ x) → 0 ≤ sum l
  one_le_log : ∀ n, 3 ≤ n → 1 ≤ log n
  log_le : ∀ n, log n ≤ n

namespace Doubles

open FloatArith

variable {D : Doubles} {k : Nat}

theorem inRange_of_le {q : ℚ} (h : |q| ≤ 2 ^ k) (hk : k < maxExponent) : D.inRange q = true := by
  rw [D.inRange_eq]
  exact decide_eq_true (h.trans_lt (pow_lt_pow_right₀ (by norm_num) hk))

theorem round_two_pow (D : Doubles) (k : Nat) : D.round (2 ^ k) = 2 ^ k := by
  have hpow := D.round_two_zpow k (by rw [minExponent]; omega)
  rwa [zpow_natCast] at hpow

theorem abs_round_le {q : ℚ} (h : |q| ≤ 2 ^ k) : |D.round q| ≤ 2 ^ k := by
  rw [abs_le] at h ⊢
  constructor
  · have := D.round_mono _ _ h.1
    rwa [D.round_neg, D.round_two_pow] at this
  · have := D.round_mono _ _ h.2
    rwa [D.round_two_pow] at this

@[simp] theorem round_zero (D : Doubles) : D.round 0 = 0 := by
  have hneg := D.round_neg 0
  rw [neg_zero] at hneg
  linarith

theorem round_nonneg {q : ℚ} (h : 0 ≤ q) : 0 ≤ D.round q := by
  have hmono := D.round_mono _ _ h
  rwa [D.round_zero] at hmono

theorem two_zpow_le_round {q : ℚ} {j : Int} (h : 2 ^ j ≤ q) (hj : minExponent ≤ j) :
    2 ^ j ≤ D.round q := by
  have hmono := D.round_mono _ _ h
  rwa [D.round_two_zpow j hj] at hmono

theorem round_le_two_zpow {q : ℚ} {j : Int} (h : q ≤ 2 ^ j) (hj : minExponent ≤ j) :
    D.round q ≤ 2 ^ j := by
  have hmono := D.round_mono _ _ h
  rwa [D.round_two_zpow j hj] at hmono

/-- What is no smaller than the smallest double does not round to zero. -/
theorem round_pos {q : ℚ} {j : Int} (h : 2 ^ j ≤ q) (hj : minExponent ≤ j) : 0 < D.round q :=
  (zpow_pos (by norm_num) j).trans_le (two_zpow_le_round h hj)

theorem one_le_round {q : ℚ} (h : 1 ≤ q) : 1 ≤ D.round q := by
  have hone := D.round_two_pow 0
  rw [pow_zero] at hone
  have hmono := D.round_mono _ _ h
  rwa [hone] at hmono

/-- What is no larger than a number in range is in range. -/
theorem inRange_round_of_le {q r : ℚ} (hr : D.inRange (D.round r) = true) (h : |q| ≤ r) :
    D.inRange (D.round q) = true := by
  rw [D.inRange_eq, decide_eq_true_iff] at hr ⊢
  rw [abs_le] at h
  have hlow := D.round_mono _ _ h.1
  rw [D.round_neg] at hlow
  exact (abs_le.mpr ⟨hlow, D.round_mono _ _ h.2⟩).trans_lt ((le_abs_self _).trans_lt hr)

theorem ofRat_eq {q : ℚ} (h : |q| ≤ 2 ^ k) (hk : k < maxExponent) :
    D.ofRat q = .finite (D.round q) := if_pos (inRange_of_le (abs_round_le h) hk)

theorem ofInt_ok {n : Int} (h : |(n : ℚ)| ≤ 2 ^ k) (hk : k < maxExponent) :
    D.ofInt n = .ok (D.round n) := if_pos (inRange_of_le (abs_round_le h) hk)

theorem divInts_ok {a b : Int} (hb : b ≠ 0) (h : |(a : ℚ) / b| ≤ 2 ^ k) (hk : k < maxExponent) :
    D.divInts a b = .ok (D.round (a / b)) := by
  rw [divInts, if_neg hb, if_pos (inRange_of_le (abs_round_le h) hk)]

/-- A quotient by a whole number is no larger than what is divided. -/
theorem abs_div_int_le {a : ℚ} {b : Int} (hb : 1 ≤ b) : |a / b| ≤ |a| := by
  rw [abs_div]
  apply div_le_self (abs_nonneg a)
  have : (1 : ℚ) ≤ b := by exact_mod_cast hb
  rwa [abs_of_nonneg (by linarith)]

/-! ## Results bounded from below -/

section
variable {x y : Double} {i j : Int}

theorem le_ofRat {q : ℚ} (h : 2 ^ j ≤ q) (hj : minExponent ≤ j) :
    Double.finite (2 ^ j) ≤ D.ofRat q := by
  unfold FloatArith.ofRat
  split
  · exact Double.finite_le_finite.mpr (two_zpow_le_round h hj)
  · have hpos : 0 ≤ q := (zpow_pos (by norm_num) j).le.trans h
    rw [decide_eq_false (not_lt.mpr hpos)]
    rfl

theorem ofRat_nonneg {q : ℚ} (h : 0 ≤ q) : Double.finite 0 ≤ D.ofRat q := by
  unfold FloatArith.ofRat
  split
  · exact Double.finite_le_finite.mpr (round_nonneg h)
  · rw [decide_eq_false (not_lt.mpr h)]
    rfl

theorem ofRat_zero (D : Doubles) : D.ofRat 0 = .finite 0 := by
  have hzero : |(0 : ℚ)| ≤ 2 ^ 0 := by norm_num
  rw [ofRat_eq hzero (by decide), round_zero]

theorem mul_zero_finite (D : Doubles) (q : ℚ) : D.mul (.finite q) (.finite 0) = .finite 0 := by
  rw [FloatArith.mul, mul_zero, ofRat_zero]

theorem le_mul (hx : .finite (2 ^ i) ≤ x) (hy : .finite (2 ^ j) ≤ y) (h : minExponent ≤ i + j) :
    .finite (2 ^ (i + j)) ≤ D.mul x y := by
  have hi : (0 : ℚ) < 2 ^ i := zpow_pos (by norm_num) i
  have hj : (0 : ℚ) < 2 ^ j := zpow_pos (by norm_num) j
  rcases Double.finite_le_iff.mp hx with ⟨p, hp, rfl⟩ | rfl <;>
    rcases Double.finite_le_iff.mp hy with ⟨q, hq, rfl⟩ | rfl
  · apply le_ofRat _ h
    rw [zpow_add₀ (by norm_num)]
    exact mul_le_mul hp hq hj.le (hi.le.trans hp)
  · have hne : Double.finite p ≠ .finite 0 := by simpa using (hi.trans_le hp).ne'
    have hsign : ¬ p < 0 := not_lt.mpr (hi.le.trans hp)
    simp [FloatArith.mul, hne, Double.isNegative, hsign, Double.finite_le_iff]
  · have hne : Double.finite q ≠ .finite 0 := by simpa using (hj.trans_le hq).ne'
    have hsign : ¬ q < 0 := not_lt.mpr (hj.le.trans hq)
    simp [FloatArith.mul, hne, Double.isNegative, hsign, Double.finite_le_iff]
  · simp [FloatArith.mul, Double.isNegative, Double.finite_le_iff]

theorem nonneg_mul {w : ℚ} (hw : 0 ≤ w) (hy : .finite 0 ≤ y) (h : w = 0 → y ≠ .infinite false) :
    .finite 0 ≤ D.mul (.finite w) y := by
  rcases Double.finite_le_iff.mp hy with ⟨q, hq, rfl⟩ | rfl
  · exact ofRat_nonneg (mul_nonneg hw hq)
  · have hne : Double.finite w ≠ .finite 0 := by simpa using fun hzero => h hzero rfl
    simp [FloatArith.mul, hne, Double.isNegative, not_lt.mpr hw, Double.finite_le_iff]

theorem square_nonneg {q : ℚ} (h : D.square (D.ofRat q) = .ok y) : .finite 0 ≤ y := by
  revert h
  unfold FloatArith.ofRat
  split
  · unfold FloatArith.square
    dsimp only
    split
    · intro h
      cases h
      exact Double.finite_le_finite.mpr (round_nonneg (mul_self_nonneg _))
    · intro h
      cases h
  · intro h
    cases h
    exact Double.finite_le_iff.mpr (.inr rfl)

theorem le_add (hx : .finite (2 ^ j) ≤ x) (hy : .finite 0 ≤ y) (hj : minExponent ≤ j) :
    .finite (2 ^ j) ≤ D.add x y := by
  rcases Double.finite_le_iff.mp hx with ⟨p, hp, rfl⟩ | rfl <;>
    rcases Double.finite_le_iff.mp hy with ⟨q, hq, rfl⟩ | rfl
  · exact le_ofRat (hp.trans (le_add_of_nonneg_right hq)) hj
  · exact Double.finite_le_iff.mpr (.inr rfl)
  · exact Double.finite_le_iff.mpr (.inr rfl)
  · exact Double.finite_le_iff.mpr (.inr rfl)

/-- Nothing is added to the result of a product. -/
theorem zero_add_mul (x y : Double) : D.add (.finite 0) (D.mul x y) = D.mul x y := by
  have hofRat : ∀ q, D.add (.finite 0) (D.ofRat q) = D.ofRat q := by
    intro q
    unfold FloatArith.ofRat
    split
    · rename_i hin
      rw [FloatArith.add, FloatArith.ofRat, zero_add, D.round_round, if_pos hin]
    · rfl
  cases x <;> cases y <;> first | exact hofRat _ | rfl | skip
  all_goals
    unfold FloatArith.mul
    dsimp only
    split <;> rfl

theorem le_div {q : ℚ} (hx : .finite (2 ^ i) ≤ x) (hq : 0 < q) (hle : q ≤ 2 ^ j)
    (h : minExponent ≤ i - j) :
    ∃ quotient, D.div x (.finite q) = .ok quotient ∧ .finite (2 ^ (i - j)) ≤ quotient := by
  have hne : Double.finite q ≠ .finite 0 := by simpa using hq.ne'
  unfold FloatArith.div
  rw [if_neg hne]
  rcases Double.finite_le_iff.mp hx with ⟨p, hp, rfl⟩ | rfl
  · refine ⟨_, rfl, le_ofRat ?_ h⟩
    rw [zpow_sub₀ (by norm_num)]
    have hi : (0 : ℚ) ≤ 2 ^ i := (zpow_pos (by norm_num) i).le
    exact div_le_div₀ (hi.trans hp) hp hq hle
  · refine ⟨_, rfl, ?_⟩
    simp [not_lt.mpr hq.le, Double.finite_le_iff]

theorem zero_div_finite {q : ℚ} (hq : q ≠ 0) : D.div (.finite 0) (.finite q) = .ok (.finite 0) := by
  have hne : Double.finite q ≠ .finite 0 := by simpa using hq
  unfold FloatArith.div
  rw [if_neg hne]
  dsimp only
  rw [zero_div, ofRat_zero]

/-- A positive quotient has a finite divisor and a number above it. -/
theorem div_pos_cases {quotient : Double} (h : D.div x y = .ok quotient)
    (hpos : .finite 0 < quotient) : x ≠ .nan ∧ ∃ q, y = .finite q := by
  unfold FloatArith.div at h
  split at h
  · cases h
  · split at h
    · exact ⟨by simp, _, rfl⟩
    · cases h
      exact absurd hpos (by decide)
    · exact ⟨by simp, _, rfl⟩
    · cases h
      exact absurd hpos (by decide)

theorem div_ok_cases {quotient : Double} (h : D.div x y = .ok quotient) :
    (∃ q, quotient = .finite (D.round q)) ∨ (∃ negative, quotient = .infinite negative) ∨
      quotient = .nan := by
  unfold FloatArith.div at h
  split at h
  · cases h
  · split at h <;> cases h
    · unfold FloatArith.ofRat
      split
      · exact .inl ⟨_, rfl⟩
      · exact .inr (.inl ⟨_, rfl⟩)
    · exact .inl ⟨0, by rw [D.round_zero]⟩
    · exact .inr (.inl ⟨_, rfl⟩)
    · exact .inr (.inr rfl)

/-- The root of a quotient is above zero when the quotient is: no double above zero has the root
zero. -/
theorem mathSqrt_pos_iff {quotient : Double} (h : D.div x y = .ok quotient) :
    (∃ root, D.mathSqrt quotient = .ok root ∧ .finite 0 < root) ↔ .finite 0 < quotient := by
  rcases div_ok_cases h with ⟨q, rfl⟩ | ⟨negative, rfl⟩ | rfl
  · rw [Double.finite_lt_finite]
    unfold FloatArith.mathSqrt
    dsimp only
    split
    · rename_i hneg
      simp [hneg.le]
    · rename_i hnonneg
      rcases (not_lt.mp hnonneg).eq_or_lt with hzero | hpos
      · simp [← hzero, D.sqrt_zero]
      · simpa [hpos] using D.sqrt_pos q hpos
  · cases negative <;> simp [FloatArith.mathSqrt, LT.lt, Double.lt]
  · simp [FloatArith.mathSqrt, LT.lt, Double.lt]

theorem mathSqrt_div_pos_iff (D : Doubles) (x y : Double) :
    (∃ root, (D.div x y >>= D.mathSqrt) = .ok root ∧ .finite 0 < root) ↔
      ∃ quotient, D.div x y = .ok quotient ∧ .finite 0 < quotient := by
  cases hdiv : D.div x y with
  | error e => simp [bind, Except.bind]
  | ok quotient => simpa [bind, Except.bind] using mathSqrt_pos_iff hdiv

theorem mathSqrt_zero (D : Doubles) : D.mathSqrt (.finite 0) = .ok (.finite 0) := by
  simp [FloatArith.mathSqrt, D.sqrt_zero]

/-! ### Sums -/

theorem sumFloats_finite (D : Doubles) (l : List ℚ) :
    D.sumFloats (l.map .finite)
      = if D.inRange (D.sum l) then .finite (D.sum l) else .infinite false := by
  have hvalues : (l.map Double.finite).filterMap (fun x =>
      match x with
      | .finite q => some q
      | _ => none) = l := by
    rw [List.filterMap_map]
    exact List.filterMap_some
  unfold FloatArith.sumFloats
  rw [if_neg (by simp), if_neg (by simp), hvalues]

theorem le_sumFloats {l : List ℚ} {k : Int} (hk : minExponent < k) (h : ∀ x ∈ l, 0 ≤ x)
    (hx : ∃ x ∈ l, 2 ^ k ≤ x) : .finite (2 ^ (k - 1)) ≤ D.sumFloats (l.map .finite) := by
  rw [sumFloats_finite]
  split
  · exact Double.finite_le_finite.mpr (D.le_sum l k hk h hx)
  · exact Double.finite_le_iff.mpr (.inr rfl)

theorem sumFloats_zero (D : Doubles) (n : Nat) :
    D.sumFloats ((List.replicate n 0).map .finite) = .finite 0 := by
  have hzero : |(0 : ℚ)| ≤ 2 ^ 0 := by norm_num
  rw [sumFloats_finite, D.sum_zero, if_pos (inRange_of_le hzero (by decide))]

end

/-! ## Binary64 -/

/-- Square root to `p` binary places. -/
def sqrtDown (p : Nat) (q : ℚ) : ℚ := Nat.sqrt (q * (2 ^ p * 2 ^ p)).floor.toNat / 2 ^ p

theorem sqrtDown_nonneg (p : Nat) (q : ℚ) : 0 ≤ sqrtDown p q :=
  div_nonneg (Nat.cast_nonneg _) (by positivity)

theorem sqrtDown_zero (p : Nat) : sqrtDown p 0 = 0 := by
  rw [sqrtDown, zero_mul]
  show ((Nat.sqrt (0 : ℚ).floor.toNat : Nat) : ℚ) / 2 ^ p = 0
  rw [show Nat.sqrt (0 : ℚ).floor.toNat = 0 from rfl, Nat.cast_zero, zero_div]

theorem sqrtDown_le (p k : Nat) {q : ℚ} (h : q ≤ 2 ^ k * 2 ^ k) : sqrtDown p q ≤ 2 ^ k := by
  have hfloor : ((q * (2 ^ p * 2 ^ p)).floor : ℚ) ≤ q * (2 ^ p * 2 ^ p) := Int.floor_le _
  have hint : (q * (2 ^ p * 2 ^ p)).floor ≤ ((2 ^ (k + p) * 2 ^ (k + p) : Nat) : Int) := by
    have hscaled := hfloor.trans (mul_le_mul_of_nonneg_right h (by positivity))
    rw [mul_mul_mul_comm] at hscaled
    rw [pow_add]
    exact_mod_cast hscaled
  have hsqrt : Nat.sqrt (q * (2 ^ p * 2 ^ p)).floor.toNat ≤ 2 ^ (k + p) := by
    rw [← Nat.sqrt_eq (2 ^ (k + p))]
    exact Nat.sqrt_le_sqrt (Int.toNat_le.mpr hint)
  rw [pow_add] at hsqrt
  rw [sqrtDown, div_le_iff₀ (by positivity)]
  exact_mod_cast hsqrt

/-- The root keeps the first binary place of what has at most twice `p` of them. -/
theorem le_sqrtDown {p j : Nat} (hj : j ≤ p) {q : ℚ} (h : 1 / (2 ^ j * 2 ^ j) ≤ q) :
    1 / 2 ^ j ≤ sqrtDown p q := by
  have hsplit : (2 : ℚ) ^ p = 2 ^ (p - j) * 2 ^ j := by rw [← pow_add, Nat.sub_add_cancel hj]
  have hint : ((2 ^ (p - j) * 2 ^ (p - j) : Nat) : Int) ≤ (q * (2 ^ p * 2 ^ p)).floor := by
    show _ ≤ ⌊q * (2 ^ p * 2 ^ p)⌋
    rw [Int.le_floor]
    push_cast
    have hscaled := mul_le_mul_of_nonneg_right h (show (0 : ℚ) ≤ 2 ^ p * 2 ^ p by positivity)
    refine le_trans (le_of_eq ?_) hscaled
    rw [hsplit]
    field_simp
  have hsqrt : 2 ^ (p - j) ≤ Nat.sqrt (q * (2 ^ p * 2 ^ p)).floor.toNat :=
    Nat.le_sqrt.mpr (by omega)
  have hcast : (2 : ℚ) ^ (p - j) ≤ (Nat.sqrt (q * (2 ^ p * 2 ^ p)).floor.toNat : ℚ) := by
    exact_mod_cast hsqrt
  have hplaces : 1 / 2 ^ j * (2 : ℚ) ^ p = 2 ^ (p - j) := by
    rw [hsplit]
    field_simp
  rw [sqrtDown, le_div_iff₀ (by positivity), hplaces]
  exact hcast

theorem one_le_log2 {n : Nat} (h : 3 ≤ n) : (1 : ℚ) ≤ n.log2 := by
  have := (Nat.le_log2 (by omega)).mpr (show 2 ^ 1 ≤ n by omega)
  exact_mod_cast this

theorem log2_le (n : Nat) : (n.log2 : ℚ) ≤ n := by
  rcases Nat.eq_zero_or_pos n with rfl | hpos
  · exact le_refl _
  · have := Nat.log2_self_le hpos.ne'
    exact_mod_cast (Nat.lt_two_pow_self (n := n.log2)).le.trans this

theorem nearestDouble_two_pow (k : Nat) : nearestDouble (2 ^ k) = 2 ^ k := by
  have hpow := nearestDouble_two_zpow (k := k) (by omega)
  rwa [zpow_natCast] at hpow

theorem nearestDouble_sqrtDown_le (p k : Nat) (q : ℚ) (h : q ≤ 2 ^ k * 2 ^ k) :
    nearestDouble (sqrtDown p q) ≤ 2 ^ k := by
  have hmono := nearestDouble_mono (sqrtDown_le p k h)
  rwa [nearestDouble_two_pow] at hmono

theorem one_le_nearestDouble_sqrtDown (p : Nat) (q : ℚ) (h : 1 ≤ q) :
    1 ≤ nearestDouble (sqrtDown p q) := by
  have hone := nearestDouble_two_pow 0
  rw [pow_zero] at hone
  have hroot : 1 / 2 ^ 0 ≤ sqrtDown p q := le_sqrtDown (Nat.zero_le p) (by norm_num [h])
  rw [pow_zero, div_one] at hroot
  have hmono := nearestDouble_mono hroot
  rwa [hone] at hmono

/-- A double above zero is at least the smallest one. -/
theorem le_nearestDouble_of_pos {q : ℚ} (h : 0 < nearestDouble q) :
    2 ^ minExponent ≤ nearestDouble q := by
  have hunit : (0 : ℚ) < 2 ^ unitExponent q := zpow_pos (by norm_num) _
  have hround : 0 < roundHalfEven (q / 2 ^ unitExponent q) := by
    rw [nearestDouble] at h
    exact_mod_cast (pos_iff_pos_of_mul_pos h).mpr hunit
  have hone : (1 : ℚ) ≤ roundHalfEven (q / 2 ^ unitExponent q) := by exact_mod_cast hround
  have hexponent : minExponent ≤ unitExponent q := by
    rw [unitExponent, minExponent]
    omega
  calc (2 : ℚ) ^ minExponent ≤ 2 ^ unitExponent q := zpow_le_zpow_right₀ (by norm_num) hexponent
    _ ≤ nearestDouble q := le_mul_of_one_le_left hunit.le hone

theorem sqrt_nearestDouble_pos (q : ℚ) (h : 0 < nearestDouble q) :
    0 < nearestDouble (sqrtDown 600 (nearestDouble q)) := by
  have hpow : (2 : ℚ) ^ minExponent = 1 / (2 ^ 537 * 2 ^ 537) := by
    rw [minExponent, zpow_neg, ← pow_add, one_div]
    rfl
  have hroot : 1 / 2 ^ 537 ≤ sqrtDown 600 (nearestDouble q) :=
    le_sqrtDown (by omega) (hpow ▸ le_nearestDouble_of_pos h)
  have hinv : (1 : ℚ) / 2 ^ 537 = 2 ^ (-537 : Int) := by
    rw [zpow_neg, one_div]
    rfl
  rw [hinv] at hroot
  have hmono := nearestDouble_mono hroot
  rw [nearestDouble_two_zpow (by omega)] at hmono
  exact (zpow_pos (by norm_num) _).trans_le hmono

/-- The sum of exact numbers. -/
def total (xs : List ℚ) : ℚ := xs.foldr (· + ·) 0

theorem total_nonneg {xs : List ℚ} (h : ∀ x ∈ xs, 0 ≤ x) : 0 ≤ total xs := List.sum_nonneg h

theorem total_replicate_zero (n : Nat) : total (List.replicate n 0) = 0 := by
  show (List.replicate n (0 : ℚ)).sum = 0
  rw [List.sum_replicate, nsmul_zero]

theorem le_total {xs : List ℚ} (h : ∀ x ∈ xs, 0 ≤ x) {x : ℚ} (hx : x ∈ xs) : x ≤ total xs :=
  List.single_le_sum h x hx

theorem le_nearestDouble_total (l : List ℚ) (k : Int) (hk : minExponent < k)
    (h : ∀ x ∈ l, 0 ≤ x) (hx : ∃ x ∈ l, (2 : ℚ) ^ k ≤ x) :
    (2 : ℚ) ^ (k - 1) ≤ nearestDouble (total l) := by
  obtain ⟨x, hmem, hle⟩ := hx
  have hmono := nearestDouble_mono (hle.trans (le_total h hmem))
  rw [nearestDouble_two_zpow (by rw [minExponent] at hk; omega)] at hmono
  exact (zpow_le_zpow_right₀ (by norm_num) (by omega)).trans hmono

/-- The doubles of the processor, with coarse functions of `math`. -/
def binary64 : Doubles where
  round := nearestDouble
  sqrt q := nearestDouble (sqrtDown 600 q)
  sum l := nearestDouble (total l)
  inRange q := decide (InRange q)
  log n := n.log2
  inRange_eq _ := rfl
  round_mono _ _ := nearestDouble_mono
  round_neg := nearestDouble_neg
  round_round := nearestDouble_nearestDouble
  round_two_zpow _ := nearestDouble_two_zpow
  sqrt_zero := by rw [sqrtDown_zero, nearestDouble_zero]
  sqrt_nonneg q := nearestDouble_nonneg (sqrtDown_nonneg 600 q)
  sqrt_pos := sqrt_nearestDouble_pos
  sqrt_le := nearestDouble_sqrtDown_le 600
  one_le_sqrt := one_le_nearestDouble_sqrtDown 600
  sum_zero n := by rw [total_replicate_zero, nearestDouble_zero]
  le_sum := le_nearestDouble_total
  sum_nonneg _ h := nearestDouble_nonneg (total_nonneg h)
  one_le_log _ := one_le_log2
  log_le := log2_le

end Doubles

end Kit
