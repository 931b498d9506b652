import Mathlib.Data.Nat.Log
import Mathlib.Tactic.Ring

/-!
# Binary floats of exact arithmetic

Rounding to a precision, ties to even, over the natural numbers: a float that
is not negative is a whole number of units, where the unit is the smallest
float above zero. Products by an integer are exact in units, so rounding them
is `roundTo`; rounding to an integer is `divHalfEven` by the units of one.

What rounds to more than a power of two, and what rounds up to one, is known
exactly (`two_pow_lt_roundTo_iff`, `two_pow_le_roundTo_iff`).
-/

namespace Kit

/-! ## Quotients -/

/-- `n / d` to the nearest integer, ties to the even one. -/
def divHalfEven (n d : Nat) : Nat :=
  if d < 2 * (n % d) ∨ (2 * (n % d) = d ∧ n / d % 2 = 1) then n / d + 1 else n / d

/-- A quotient rounds to more than `k` above the middle of `k` and `k + 1`; the middle itself
goes to the even one. -/
theorem lt_divHalfEven_iff {n d k : Nat} (hd : 0 < d) :
    k < divHalfEven n d
      ↔ (2 * k + 1) * d < 2 * n ∨ ((2 * k + 1) * d = 2 * n ∧ k % 2 = 1) := by
  have hn : d * (n / d) + n % d = n := Nat.div_add_mod n d
  have hr : n % d < d := Nat.mod_lt n hd
  have hk : (2 * k + 1) * d = 2 * (d * k) + d := by ring
  rw [hk, divHalfEven]
  generalize n / d = q at hn ⊢
  generalize n % d = r at hn hr ⊢
  rcases Nat.lt_trichotomy k q with hlt | rfl | hgt
  · have hle : d * (k + 1) ≤ d * q := Nat.mul_le_mul_left d hlt
    rw [Nat.mul_succ] at hle
    split <;> omega
  · split <;> omega
  · have hle : d * (q + 1) ≤ d * k := Nat.mul_le_mul_left d hgt
    rw [Nat.mul_succ] at hle
    split <;> omega

theorem divHalfEven_le {n d k : Nat} (hd : 0 < d) (h : n ≤ k * d) : divHalfEven n d ≤ k := by
  apply Nat.not_lt.mp
  rw [lt_divHalfEven_iff hd]
  have hk : (2 * k + 1) * d = 2 * (k * d) + d := by ring
  omega

theorem le_divHalfEven {n d k : Nat} (hd : 0 < d) (h : k * d ≤ n) : k ≤ divHalfEven n d := by
  cases k with
  | zero => exact Nat.zero_le _
  | succ k =>
      refine (lt_divHalfEven_iff hd).mpr (.inl ?_)
      have hk : (k + 1) * d = k * d + d := Nat.succ_mul k d
      have hk2 : (2 * k + 1) * d = 2 * (k * d) + d := by ring
      omega

/-! ## Rounding to a precision -/

/-- How many low bits of `n` do not fit the precision. -/
def excess (precision n : Nat) : Nat := n.log2 + 1 - precision

/-- `n` to the nearest number of that many bits, ties to even. -/
def roundTo (precision n : Nat) : Nat :=
  divHalfEven n (2 ^ excess precision n) * 2 ^ excess precision n

/-- `n` has that many bits between its first and its last one. -/
def Representable (precision n : Nat) : Prop := ∃ m s, m < 2 ^ precision ∧ n = m * 2 ^ s

variable {precision n k : Nat}

/-- Above `2 ^ k` the representable numbers lie `2 ^ (k + 1 - precision)` apart. -/
theorem Representable.dvd (h : Representable precision n) (hk : 2 ^ k ≤ n) :
    2 ^ (k + 1 - precision) ∣ n := by
  obtain ⟨m, s, hm, rfl⟩ := h
  refine Dvd.dvd.mul_left (Nat.pow_dvd_pow 2 ?_) m
  by_contra hs
  have hlt : m * 2 ^ s < 2 ^ precision * 2 ^ s := Nat.mul_lt_mul_of_pos_right hm (Nat.two_pow_pos s)
  have hle : 2 ^ (precision + s) ≤ 2 ^ k := Nat.pow_le_pow_right (by omega) (by omega)
  rw [Nat.pow_add] at hle
  omega

theorem excess_of_log2 (hlow : 2 ^ k ≤ n) (hhigh : n < 2 ^ (k + 1)) :
    excess precision n = k + 1 - precision := by
  have hpos := Nat.two_pow_pos k
  rw [excess, (Nat.log2_eq_iff (by omega)).mpr ⟨hlow, hhigh⟩]

/-- Rounding does not pass a power of two from below. -/
theorem roundTo_le_two_pow (h : n ≤ 2 ^ k) (hp : 0 < precision) : roundTo precision n ≤ 2 ^ k := by
  have hexcess : excess precision n ≤ k := by
    rcases Nat.eq_zero_or_pos n with rfl | hn
    · rw [excess, Nat.log2_zero]
      omega
    · have hlog : n.log2 ≤ k := by
        have hlt : n < 2 ^ (k + 1) := by
          rw [Nat.pow_succ]
          have := Nat.two_pow_pos k
          omega
        have := (Nat.log2_lt (by omega)).mpr hlt
        omega
      rw [excess]
      omega
  have hsplit : 2 ^ k = 2 ^ (k - excess precision n) * 2 ^ excess precision n := by
    rw [← Nat.pow_add, Nat.sub_add_cancel hexcess]
  rw [roundTo, hsplit]
  refine Nat.mul_le_mul_right _ (divHalfEven_le (Nat.two_pow_pos _) ?_)
  rwa [← hsplit]

theorem two_pow_le_roundTo (h : 2 ^ k ≤ n) (hp : 0 < precision) : 2 ^ k ≤ roundTo precision n := by
  have hpos := Nat.two_pow_pos k
  have hn : n ≠ 0 := by omega
  have hlog : k ≤ n.log2 := (Nat.le_log2 hn).mpr h
  have hself : 2 ^ n.log2 ≤ n := Nat.log2_self_le hn
  have hexcess : excess precision n ≤ n.log2 := by
    rw [excess]
    omega
  have hsplit : 2 ^ n.log2 = 2 ^ (n.log2 - excess precision n) * 2 ^ excess precision n := by
    rw [← Nat.pow_add, Nat.sub_add_cancel hexcess]
  calc 2 ^ k ≤ 2 ^ n.log2 := Nat.pow_le_pow_right (by omega) hlog
    _ = 2 ^ (n.log2 - excess precision n) * 2 ^ excess precision n := hsplit
    _ ≤ roundTo precision n := by
      refine Nat.mul_le_mul_right _ (le_divHalfEven (Nat.two_pow_pos _) ?_)
      rwa [← hsplit]

/-- A number rounds to more than `2 ^ k` past half of the first step above it. -/
theorem two_pow_lt_roundTo_iff (hp : 2 ≤ precision) (hk : precision ≤ k) :
    2 ^ k < roundTo precision n ↔ 2 ^ k + 2 ^ (k - precision) < n := by
  have hdouble : 2 ^ (k + 1) = 2 * 2 ^ k := by ring
  have hstep := Nat.two_pow_pos (k - precision)
  rcases Nat.lt_or_ge n (2 ^ k) with hlow | hlow
  · have hle := roundTo_le_two_pow (Nat.le_of_lt hlow) (by omega : 0 < precision)
    omega
  rcases Nat.lt_or_ge n (2 ^ (k + 1)) with hhigh | hhigh
  · -- the same binade: compare the quotients
    have hexcess : excess precision n = k - precision + 1 := by
      rw [excess_of_log2 hlow hhigh]
      omega
    have hs : 2 ^ (k - precision + 1) = 2 * 2 ^ (k - precision) := by ring
    have hsplit : 2 ^ k = 2 ^ (precision - 1) * 2 ^ (k - precision + 1) := by
      rw [← Nat.pow_add]
      congr 1
      omega
    have heven : 2 ^ (precision - 1) % 2 = 0 := by
      obtain ⟨p, rfl⟩ : ∃ p, precision = p + 2 := ⟨precision - 2, by omega⟩
      rw [show p + 2 - 1 = p + 1 from rfl, Nat.pow_succ]
      exact Nat.mul_mod_left _ 2
    have hmiddle : (2 * 2 ^ (precision - 1) + 1) * 2 ^ (k - precision + 1)
        = 2 * (2 ^ k + 2 ^ (k - precision)) := by
      rw [Nat.add_mul, Nat.mul_assoc, ← hsplit, hs]
      ring
    rw [roundTo, hexcess]
    conv_lhs => rw [hsplit]
    rw [Nat.mul_lt_mul_right (Nat.two_pow_pos _), lt_divHalfEven_iff (Nat.two_pow_pos _), hmiddle,
      heven]
    omega
  · have hle := two_pow_le_roundTo hhigh (by omega : 0 < precision)
    have hlt : 2 ^ (k - precision) < 2 ^ k := Nat.pow_lt_pow_right (by omega) (by omega)
    have hpos := Nat.two_pow_pos k
    omega

/-- A number rounds to `2 ^ k` or more from half of the last step below it on. -/
theorem two_pow_le_roundTo_iff (hp : 0 < precision) (hk : precision < k) :
    2 ^ k ≤ roundTo precision n ↔ 2 ^ k ≤ n + 2 ^ (k - precision - 1) := by
  have hdouble : 2 ^ k = 2 * 2 ^ (k - 1) := by
    rw [← Nat.pow_succ', Nat.succ_eq_add_one, Nat.sub_add_cancel (by omega)]
  have hpos := Nat.two_pow_pos (k - 1)
  have hstep := Nat.two_pow_pos (k - precision - 1)
  rcases Nat.lt_or_ge n (2 ^ (k - 1)) with hlow | hlow
  · have hle := roundTo_le_two_pow (Nat.le_of_lt hlow) hp
    have hsmall : 2 ^ (k - precision - 1) ≤ 2 ^ (k - 1) :=
      Nat.pow_le_pow_right (by omega) (by omega)
    omega
  rcases Nat.lt_or_ge n (2 ^ k) with hhigh | hhigh
  · have hexcess : excess precision n = k - precision - 1 + 1 := by
      rw [excess_of_log2 hlow (by rwa [Nat.sub_add_cancel (by omega)])]
      omega
    have hs : 2 ^ (k - precision - 1 + 1) = 2 * 2 ^ (k - precision - 1) := by ring
    have hsplit : 2 ^ k = 2 ^ precision * 2 ^ (k - precision - 1 + 1) := by
      rw [← Nat.pow_add]
      congr 1
      omega
    obtain ⟨m, hm⟩ : ∃ m, 2 ^ precision = m + 1 := ⟨2 ^ precision - 1, by
      have := Nat.two_pow_pos precision
      omega⟩
    have hodd : m % 2 = 1 := by
      have : 2 ^ precision % 2 = 0 := by
        obtain ⟨p, rfl⟩ : ∃ p, precision = p + 1 := ⟨precision - 1, by omega⟩
        rw [Nat.pow_succ]
        exact Nat.mul_mod_left _ 2
      omega
    have hmiddle : (2 * m + 1) * 2 ^ (k - precision - 1 + 1) + 2 * 2 ^ (k - precision - 1)
        = 2 * 2 ^ k := by
      rw [hsplit, hm, ← hs]
      ring
    rw [roundTo, hexcess]
    conv_lhs => rw [hsplit]
    rw [Nat.mul_le_mul_right_iff (Nat.two_pow_pos _), hm, Nat.succ_le_iff,
      lt_divHalfEven_iff (Nat.two_pow_pos _)]
    omega
  · have hle := two_pow_le_roundTo hhigh hp
    omega

/-- What was rounded is representable, also where it was carried to the next power of two. -/
theorem representable_roundTo (hp : 0 < precision) :
    Representable precision (roundTo precision n) := by
  have hpos := Nat.two_pow_pos (excess precision n)
  have hle : divHalfEven n (2 ^ excess precision n) ≤ 2 ^ precision := by
    refine divHalfEven_le hpos ?_
    rw [← Nat.pow_add]
    have hlt : n < 2 ^ (n.log2 + 1) := Nat.lt_log2_self
    exact Nat.le_of_lt (Nat.lt_of_lt_of_le hlt (Nat.pow_le_pow_right (by omega) (by
      rw [excess]
      omega)))
  rcases Nat.lt_or_eq_of_le hle with hlt | heq
  · exact ⟨_, excess precision n, hlt, rfl⟩
  · refine ⟨1, precision + excess precision n, Nat.one_lt_two_pow (by omega), ?_⟩
    rw [roundTo, heq, Nat.one_mul, Nat.pow_add]

/-! ## The binary64 format -/

/-- `2 ^ oneExponent` units make one; a unit is the smallest float above zero, `2 ^ -1074`. -/
def oneExponent : Nat := 1074

/-- Floats end at `2 ^ infExponent` units, `2 ^ 1024`. -/
def infExponent : Nat := 2098

/-- A finite float of the binary64 format that is not negative. -/
structure Binary64 where
  units : Nat
  representable : Representable 53 units
  finite : units < 2 ^ infExponent

namespace Binary64

/-- The float `m * 2 ^ s` units. -/
def ofParts (m s : Nat) (hm : m < 2 ^ 53) (hs : s + 53 ≤ infExponent) : Binary64 where
  units := m * 2 ^ s
  representable := ⟨m, s, hm, rfl⟩
  finite := by
    refine Nat.lt_of_lt_of_le (Nat.mul_lt_mul_of_pos_right hm (Nat.two_pow_pos s)) ?_
    rw [← Nat.pow_add]
    exact Nat.pow_le_pow_right (by omega) (by omega)

/-- `x * k` for an integer `k`; `none` where the product is infinite. -/
def mulNat (x : Binary64) (k : Nat) : Option Binary64 :=
  if h : roundTo 53 (x.units * k) < 2 ^ infExponent then
    some ⟨roundTo 53 (x.units * k), representable_roundTo (by omega), h⟩
  else none

/-- `round(x)` -/
def round (x : Binary64) : Nat := divHalfEven x.units (2 ^ oneExponent)

theorem units_of_mulNat {x y : Binary64} {k : Nat} (h : x.mulNat k = some y) :
    y.units = roundTo 53 (x.units * k) := by
  rw [mulNat] at h
  split at h
  · cases h
    rfl
  · cases h

/-- A product is finite below half of the last step before `2 ^ infExponent`. -/
theorem mulNat_isSome_iff {x : Binary64} {k : Nat} :
    (x.mulNat k).isSome = true ↔ x.units * k + 2 ^ (infExponent - 53 - 1) < 2 ^ infExponent := by
  have hiff : 2 ^ infExponent ≤ roundTo 53 (x.units * k)
      ↔ 2 ^ infExponent ≤ x.units * k + 2 ^ (infExponent - 53 - 1) :=
    two_pow_le_roundTo_iff (by omega) (by decide)
  rw [← Nat.not_le, ← hiff, Nat.not_le, mulNat]
  split
  · exact iff_of_true rfl ‹_›
  · exact iff_of_false Bool.noConfusion ‹_›

/-- A float above one half rounds to one or more. -/
theorem round_pos_iff {x : Binary64} : 0 < x.round ↔ 2 ^ (oneExponent - 1) < x.units := by
  have hdouble : 2 ^ oneExponent = 2 * 2 ^ (oneExponent - 1) := by
    rw [← Nat.pow_succ', Nat.succ_eq_add_one, Nat.sub_add_cancel (by decide)]
  rw [round, lt_divHalfEven_iff (Nat.two_pow_pos _), hdouble]
  omega

end Binary64

end Kit
