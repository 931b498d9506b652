import BrandSniper.Kit.Conversions
import Mathlib.Algebra.Order.Field.Rat
import Mathlib.Tactic.FieldSimp
import Mathlib.Tactic.Linarith
import Mathlib.Tactic.Positivity

/-!
# Decimal numbers

Finite numbers of Python's `decimal`: a coefficient and a power of ten. A text
is read exactly, a product is rounded to 28 digits, ties to even, and it raises
where its exponent passes the context's. Rounding half up gives a positive
integer from one half on (`roundHalfUp_pos_iff`).

What a product loses below the smallest exponent of the context is left out: it
rounds to zero either way.
-/

namespace Kit

structure Decimal where
  negative : Bool
  coefficient : Nat
  exponent : Int
  deriving DecidableEq, Repr

namespace Decimal

/-- The digits of a coefficient; zero has one. -/
def digitCount (n : Nat) : Nat := (Nat.toDigits 10 n).length

/-- The exponent of the first digit. -/
def adjusted (d : Decimal) : Int := d.exponent + (digitCount d.coefficient - 1)

/-! ## Reading a text -/

/-- A sign, if there is one, and the rest. -/
def unsigned : List Char → Bool × List Char
  | '-' :: rest => (true, rest)
  | '+' :: rest => (false, rest)
  | cs => (false, cs)

/-- Every decimal digit as its ASCII digit. -/
def asciiDigits (cs : List Char) : List Char :=
  cs.map fun c =>
    match decimalValue? c with
    | some d => Char.ofNat ('0'.toNat + d)
    | none => c

/-- The exponent part of a numeric text, from its letter on. -/
def exponentPart? : List Char → Option Int
  | [] => some 0
  | _ :: cs =>
      let (negative, digits) := unsigned cs
      (Text.natOfText? digits).map fun n => if negative then -(n : Int) else n

/-- What the widest context holds. -/
def bounded (d : Decimal) : Option Decimal :=
  if d.adjusted ≤ 999999999999999999 ∧ -1999999999999999997 ≤ d.exponent then some d else none

/-- `Decimal(text)`, if it is a finite number; texts of other numbers, and of none, are `none`. -/
def finite? (cs : List Char) : Option Decimal :=
  let (negative, cs) := unsigned (asciiDigits ((Text.trim cs).filter fun c => c ≠ '_'))
  let (mantissa, exponent) := cs.span fun c => c ≠ 'e' && c ≠ 'E'
  let (whole, point) := mantissa.span fun c => c ≠ '.'
  let fraction := point.drop 1
  match exponentPart? exponent, Text.natOfText? (whole ++ fraction) with
  | some exponent, some coefficient => bounded ⟨negative, coefficient, exponent - fraction.length⟩
  | _, _ => none

/-! ## Arithmetic -/

/-- `number > 0` -/
def isPositive (d : Decimal) : Bool := !d.negative && d.coefficient ≠ 0

/-- The number without its sign. -/
def magnitude (d : Decimal) : ℚ := d.coefficient * (10 : ℚ) ^ d.exponent

/-- To 28 digits, ties to even. -/
def rounded (d : Decimal) : Decimal :=
  let excess := digitCount d.coefficient - 28
  let coefficient := divHalfEven d.coefficient (10 ^ excess)
  if coefficient = 10 ^ 28 then { d with coefficient := 10 ^ 27, exponent := d.exponent + excess + 1 }
  else { d with coefficient := coefficient, exponent := d.exponent + excess }

/-- The product with an integer, rounded. -/
def timesNat (d : Decimal) (n : Nat) : Decimal :=
  { d with coefficient := d.coefficient * n }.rounded

/-- `number * n`, in the default context. -/
def mulNat (d : Decimal) (n : Nat) : Except ConversionError Decimal :=
  if (d.timesNat n).adjusted ≤ 999999 then .ok (d.timesNat n) else .error .decimalOverflow

theorem succeeds_mulNat_iff {d : Decimal} {n : Nat} :
    Succeeds (d.mulNat n) ↔ (d.timesNat n).adjusted ≤ 999999 := by
  rw [mulNat]
  split
  · exact iff_of_true (succeeds_ok _) ‹_›
  · exact iff_of_false (not_succeeds_error _) ‹_›

/-- `int(number.to_integral_value(rounding=ROUND_HALF_UP))` of a number that is not negative -/
def roundHalfUp (d : Decimal) : Nat :=
  if 0 ≤ d.exponent then d.coefficient * 10 ^ d.exponent.toNat
  else (2 * d.coefficient + 10 ^ (-d.exponent).toNat) / (2 * 10 ^ (-d.exponent).toNat)

/-- `int(number)` of a number that is not negative -/
def toNat (d : Decimal) : Nat :=
  if 0 ≤ d.exponent then d.coefficient * 10 ^ d.exponent.toNat
  else d.coefficient / 10 ^ (-d.exponent).toNat

/-- `number == number.to_integral_value()` -/
def isIntegral (d : Decimal) : Bool :=
  0 ≤ d.exponent || d.coefficient % 10 ^ (-d.exponent).toNat = 0

/-- The number without its sign, as a quotient. -/
def numerator (d : Decimal) : Nat := d.coefficient * 10 ^ d.exponent.toNat

def denominator (d : Decimal) : Nat := 10 ^ (-d.exponent).toNat

theorem denominator_pos (d : Decimal) : 0 < d.denominator := Nat.pow_pos (by decide)

/-- `number <= 1`, of a number that is not negative -/
def atMostOne (d : Decimal) : Bool := d.numerator ≤ d.denominator

/-- `float(number)` of a number that is not negative -/
def toFloat (d : Decimal) : Except ConversionError Binary64 :=
  Binary64.ofDiv d.numerator d.denominator d.denominator_pos

theorem succeeds_toFloat {d : Decimal} (h : d.atMostOne = true) : Succeeds d.toFloat :=
  Binary64.succeeds_ofDiv_of_le d.denominator_pos (of_decide_eq_true h)

theorem magnitude_of_nonneg {d : Decimal} (h : 0 ≤ d.exponent) :
    d.magnitude = (d.coefficient * 10 ^ d.exponent.toNat : Nat) := by
  obtain ⟨k, hk⟩ := Int.eq_ofNat_of_zero_le h
  rw [magnitude, hk]
  simp

theorem magnitude_of_neg {d : Decimal} (h : ¬ 0 ≤ d.exponent) :
    d.magnitude = (d.coefficient : ℚ) / (10 ^ (-d.exponent).toNat : Nat) := by
  obtain ⟨k, hk⟩ := Int.eq_ofNat_of_zero_le (show 0 ≤ -d.exponent by omega)
  rw [magnitude, hk, show d.exponent = -(k : Int) by omega, zpow_neg, zpow_natCast,
    Int.toNat_natCast, div_eq_mul_inv, Nat.cast_pow, Nat.cast_ofNat]

/-- Rounding half up is positive from one half on. -/
theorem roundHalfUp_pos_iff {d : Decimal} : 0 < d.roundHalfUp ↔ 1 / 2 ≤ d.magnitude := by
  rw [roundHalfUp]
  split
  · rename_i h
    rw [magnitude_of_nonneg h]
    generalize d.coefficient * 10 ^ d.exponent.toNat = n
    constructor
    · intro hn
      have : (1 : ℚ) ≤ n := by exact_mod_cast hn
      linarith
    · intro hn
      by_contra hzero
      rw [Nat.eq_zero_of_not_pos hzero] at hn
      norm_num at hn
  · rename_i h
    have hunit : 0 < 10 ^ (-d.exponent).toNat := Nat.pow_pos (by decide)
    rw [magnitude_of_neg h, Nat.div_pos_iff, div_le_div_iff₀ (by norm_num) (by exact_mod_cast hunit)]
    generalize 10 ^ (-d.exponent).toNat = unit at hunit ⊢
    constructor
    · rintro ⟨-, hle⟩
      have : unit ≤ 2 * d.coefficient := by omega
      have hcast : (unit : ℚ) ≤ 2 * d.coefficient := by exact_mod_cast this
      linarith
    · intro hle
      have hcast : (unit : ℚ) ≤ (2 * d.coefficient : Nat) := by
        push_cast
        linarith
      have : unit ≤ 2 * d.coefficient := by exact_mod_cast hcast
      omega

/-- A positive integral number is a positive integer. -/
theorem toNat_pos {d : Decimal} (hpositive : d.isPositive = true) (hintegral : d.isIntegral = true) :
    0 < d.toNat := by
  simp only [isPositive, Bool.and_eq_true, decide_eq_true_eq] at hpositive
  have hcoefficient : 0 < d.coefficient := Nat.pos_of_ne_zero hpositive.2
  have hunit : 0 < 10 ^ (-d.exponent).toNat := Nat.pow_pos (by decide)
  rw [toNat]
  split
  · exact Nat.mul_pos hcoefficient (Nat.pow_pos (by decide))
  · rename_i h
    simp only [isIntegral, h, decide_false, Bool.false_or, decide_eq_true_eq] at hintegral
    exact Nat.div_pos (Nat.le_of_dvd hcoefficient (Nat.dvd_of_mod_eq_zero hintegral)) hunit

end Decimal

end Kit
