import BrandSniper.Kit.Binary64
import BrandSniper.Kit.Json
import BrandSniper.Kit.Results
import Mathlib.Algebra.Order.Ring.Rat

/-!
# Conversions that raise

What Python's `int`, `str`, `float` and the division of integers do at their
limits: an integer of more than 4300 digits has no text and is read from none,
a digit need not be a decimal one, and a float has an end.
-/

namespace Kit

/-- Why a conversion raises. -/
inductive ConversionError where
  | valueError
  | overflowError
  /-- `decimal.Overflow` -/
  | decimalOverflow
  | memoryError
  | recursionError
  deriving DecidableEq, Repr

/-! ## Digits -/

/-- The zeros of the runs of ten decimal digits. -/
def decimalZeros : List Nat :=
  [0x30, 0x660, 0x6F0, 0x7C0, 0x966, 0x9E6, 0xA66, 0xAE6, 0xB66, 0xBE6, 0xC66, 0xCE6, 0xD66,
    0xDE6, 0xE50, 0xED0, 0xF20, 0x1040, 0x1090, 0x17E0, 0x1810, 0x1946, 0x19D0, 0x1A80, 0x1A90,
    0x1B50, 0x1BB0, 0x1C40, 0x1C50, 0xA620, 0xA8D0, 0xA900, 0xA9D0, 0xA9F0, 0xAA50, 0xABF0,
    0xFF10, 0x104A0, 0x10D30, 0x11066, 0x110F0, 0x11136, 0x111D0, 0x112F0, 0x11450, 0x114D0,
    0x11650, 0x116C0, 0x11730, 0x118E0, 0x11950, 0x11C50, 0x11D50, 0x11DA0, 0x11F50, 0x16A60,
    0x16AC0, 0x16B50, 0x1D7CE, 0x1D7D8, 0x1D7E2, 0x1D7EC, 0x1D7F6, 0x1E140, 0x1E2F0, 0x1E4F0,
    0x1E950, 0x1FBF0]

/-- The other characters that `str.isdigit` accepts. -/
def otherDigits : List (Nat × Nat) :=
  [(0xB2, 0xB3), (0xB9, 0xB9), (0x1369, 0x1371), (0x19DA, 0x19DA), (0x2070, 0x2070), (0x2074,
    0x2079), (0x2080, 0x2089), (0x2460, 0x2468), (0x2474, 0x247C), (0x2488, 0x2490), (0x24EA,
    0x24EA), (0x24F5, 0x24FD), (0x24FF, 0x24FF), (0x2776, 0x277E), (0x2780, 0x2788), (0x278A,
    0x2792), (0x10A40, 0x10A43), (0x10E60, 0x10E68), (0x11052, 0x1105A), (0x1F100, 0x1F10A)]

/-- The value of a decimal digit. -/
def decimalValue? (c : Char) : Option Nat :=
  (decimalZeros.find? fun first => first ≤ c.toNat && c.toNat < first + 10).map
    fun first => c.toNat - first

/-- `text.isdigit()` -/
def isDigitText (cs : List Char) : Bool :=
  cs ≠ [] && cs.all fun c => (decimalValue? c).isSome ||
    otherDigits.any fun range => range.1 ≤ c.toNat && c.toNat ≤ range.2

/-- `sys.get_int_max_str_digits()` -/
def maxStrDigits : Nat := 4300

/-- The number a row of decimal digits writes. -/
def ofDigitValues (digits : List Nat) : Nat := digits.foldl (fun n d => 10 * n + d) 0

/-- `int(text)` for a text of digits. -/
def intOfDigits (cs : List Char) : Except ConversionError Nat :=
  if cs.length ≤ maxStrDigits then
    match cs.mapM decimalValue? with
    | some digits => .ok (ofDigitValues digits)
    | none => .error .valueError
  else .error .valueError

theorem succeeds_intOfDigits_iff {cs : List Char} :
    Succeeds (intOfDigits cs)
      ↔ cs.length ≤ maxStrDigits ∧ ∀ c ∈ cs, (decimalValue? c).isSome = true := by
  have hmapM : (cs.mapM decimalValue?).isSome = true
      ↔ ∀ c ∈ cs, (decimalValue? c).isSome = true := by
    induction cs with
    | nil => simp
    | cons c rest ih =>
        rw [List.mapM_cons, List.forall_mem_cons, ← ih]
        cases decimalValue? c with
        | none => simp
        | some d => cases rest.mapM decimalValue? <;> simp
  rw [intOfDigits, ← hmapM]
  split
  · rename_i hlen
    cases cs.mapM decimalValue? with
    | none => simp [not_succeeds_error]
    | some digits => simp [succeeds_ok, hlen]
  · rename_i hlen
    simp [not_succeeds_error, hlen]

theorem decimalValue_lt {c : Char} {d : Nat} (h : decimalValue? c = some d) : d < 10 := by
  obtain ⟨first, hfind, rfl⟩ := Option.map_eq_some_iff.mp h
  have hrange := List.find?_some hfind
  rw [Bool.and_eq_true, decide_eq_true_eq, decide_eq_true_eq] at hrange
  omega

theorem foldl_digits_lt {digits : List Nat} (h : ∀ d ∈ digits, d < 10) (n k : Nat) (hn : n < 10 ^ k) :
    digits.foldl (fun n d => 10 * n + d) n < 10 ^ (k + digits.length) := by
  induction digits generalizing n k with
  | nil => exact hn
  | cons d rest ih =>
      have hd := h d List.mem_cons_self
      have hnext : 10 * n + d < 10 ^ (k + 1) := by
        rw [Nat.pow_succ]
        omega
      have hlen : k + (d :: rest).length = (k + 1) + rest.length := by
        rw [List.length_cons]
        omega
      rw [List.foldl_cons, hlen]
      exact ih (fun d' hd' => h d' (List.mem_cons_of_mem d hd')) _ _ hnext

theorem mapM_decimalValue {cs : List Char} {digits : List Nat}
    (h : cs.mapM decimalValue? = some digits) :
    digits.length = cs.length ∧ ∀ d ∈ digits, d < 10 := by
  induction cs generalizing digits with
  | nil =>
      cases h
      exact ⟨rfl, List.forall_mem_nil _⟩
  | cons c rest ih =>
      rw [List.mapM_cons] at h
      obtain ⟨d, hd, h⟩ := Option.bind_eq_some_iff.mp h
      obtain ⟨ds, hds, h⟩ := Option.bind_eq_some_iff.mp h
      cases h
      obtain ⟨hlen, hall⟩ := ih hds
      exact ⟨by rw [List.length_cons, hlen, List.length_cons],
        List.forall_mem_cons.mpr ⟨decimalValue_lt hd, hall⟩⟩

/-- A row of digits writes a number below the power of ten with as many zeros. -/
theorem intOfDigits_lt {cs : List Char} {n : Nat} (h : intOfDigits cs = .ok n) :
    n < 10 ^ cs.length := by
  rw [intOfDigits] at h
  split at h
  · cases hdigits : cs.mapM decimalValue? with
    | none =>
        rw [hdigits] at h
        cases h
    | some digits =>
        rw [hdigits] at h
        obtain ⟨hlen, hall⟩ := mapM_decimalValue hdigits
        have hlt := foldl_digits_lt hall 0 0 Nat.one_pos
        rw [Nat.zero_add, hlen] at hlt
        cases h
        exact hlt
  · cases h

/-! ## Texts of values -/

/-- `str(z)` does not raise. -/
def printableInt (z : Int) : Bool := z.natAbs < 10 ^ maxStrDigits

section
variable {F : Type}

mutual

/-- `str` of the value does not raise. -/
def printable : Json F → Bool
  | .null => true
  | .bool _ => true
  | .int z => printableInt z
  | .float _ => true
  | .str _ => true
  | .arr items => printableItems items
  | .obj fields => printableFields fields
termination_by structural j => j

def printableItems : List (Json F) → Bool
  | [] => true
  | j :: rest => printable j && printableItems rest
termination_by structural items => items

def printableFields : List (String × Json F) → Bool
  | [] => true
  | field :: rest => printableField field && printableFields rest
termination_by structural fields => fields

def printableField : String × Json F → Bool
  | (_, j) => printable j
termination_by structural field => field

end

end

/-! ## Floats -/

/-- A float of a JSON text. -/
inductive JsonFloat where
  | finite (q : ℚ)
  | infinity (negative : Bool)
  | nan
  deriving DecidableEq, Repr

namespace Binary64

/-- The units of `n / d`, rounded. -/
def divUnits (n d : Nat) : Nat :=
  let exponent := excess 53 (n * 2 ^ oneExponent / d)
  divHalfEven (n * 2 ^ oneExponent) (d * 2 ^ exponent) * 2 ^ exponent

theorem representable_divUnits {d : Nat} (hd : 0 < d) (n : Nat) :
    Representable 53 (divUnits n d) := by
  rw [divUnits]
  generalize hscaled : n * 2 ^ oneExponent = scaled
  generalize hexponent : excess 53 (scaled / d) = exponent
  have hpos := Nat.two_pow_pos exponent
  have hlog : (scaled / d).log2 + 1 ≤ 53 + exponent := by
    rw [← hexponent, excess]
    omega
  have hbound : scaled ≤ 2 ^ 53 * (d * 2 ^ exponent) := by
    have hquotient : scaled / d < 2 ^ (53 + exponent) :=
      Nat.lt_of_lt_of_le Nat.lt_log2_self (Nat.pow_le_pow_right (by omega) hlog)
    have hlt := Nat.lt_mul_of_div_lt hquotient hd
    rw [Nat.pow_add] at hlt
    calc scaled ≤ 2 ^ 53 * 2 ^ exponent * d := Nat.le_of_lt hlt
      _ = 2 ^ 53 * (d * 2 ^ exponent) := by ring
  have hle := divHalfEven_le (Nat.mul_pos hd hpos) hbound
  rcases Nat.lt_or_eq_of_le hle with hlt | heq
  · exact ⟨_, exponent, hlt, rfl⟩
  · exact ⟨1, 53 + exponent, by decide, by rw [heq, Nat.one_mul, Nat.pow_add]⟩

/-- Rounding a quotient does not pass a power of two, from below or from above. -/
theorem divUnits_le_two_pow {n d k : Nat} (hd : 0 < d) (h : n * 2 ^ oneExponent ≤ 2 ^ k * d) :
    divUnits n d ≤ 2 ^ k := by
  rw [divUnits]
  generalize n * 2 ^ oneExponent = scaled at h ⊢
  have hquotient : scaled / d ≤ 2 ^ k := by
    rw [Nat.div_le_iff_le_mul_add_pred hd]
    rw [Nat.mul_comm] at h
    omega
  have hexcess : excess 53 (scaled / d) ≤ k := by
    rcases Nat.eq_zero_or_pos (scaled / d) with hzero | hpos
    · rw [hzero, excess, Nat.log2_zero]
      omega
    · have hlog : (scaled / d).log2 < k + 1 := by
        rw [Nat.log2_lt (by omega), Nat.pow_succ]
        have := Nat.two_pow_pos k
        omega
      rw [excess]
      omega
  generalize excess 53 (scaled / d) = exponent at hexcess ⊢
  have hsplit : 2 ^ k = 2 ^ (k - exponent) * 2 ^ exponent := by
    rw [← Nat.pow_add, Nat.sub_add_cancel hexcess]
  rw [hsplit]
  refine Nat.mul_le_mul_right _ (divHalfEven_le (Nat.mul_pos hd (Nat.two_pow_pos _)) ?_)
  calc scaled ≤ 2 ^ k * d := h
    _ = 2 ^ (k - exponent) * (d * 2 ^ exponent) := by
      rw [hsplit]
      ring

theorem two_pow_le_divUnits {n d k : Nat} (hd : 0 < d) (h : 2 ^ k * d ≤ n * 2 ^ oneExponent) :
    2 ^ k ≤ divUnits n d := by
  rw [divUnits]
  generalize n * 2 ^ oneExponent = scaled at h ⊢
  have hquotient : 2 ^ k ≤ scaled / d := (Nat.le_div_iff_mul_le hd).mpr h
  have hne : scaled / d ≠ 0 := by
    have := Nat.two_pow_pos k
    omega
  have hlog : k ≤ (scaled / d).log2 := (Nat.le_log2 hne).mpr hquotient
  have hself : 2 ^ (scaled / d).log2 ≤ scaled / d := Nat.log2_self_le hne
  have hexcess : excess 53 (scaled / d) ≤ (scaled / d).log2 := by
    rw [excess]
    omega
  generalize (scaled / d).log2 = l at hlog hself hexcess
  generalize excess 53 (scaled / d) = exponent at hexcess ⊢
  have hsplit : 2 ^ l = 2 ^ (l - exponent) * 2 ^ exponent := by
    rw [← Nat.pow_add, Nat.sub_add_cancel hexcess]
  calc 2 ^ k ≤ 2 ^ l := Nat.pow_le_pow_right (by omega) hlog
    _ = 2 ^ (l - exponent) * 2 ^ exponent := hsplit
    _ ≤ divHalfEven scaled (d * 2 ^ exponent) * 2 ^ exponent := by
      refine Nat.mul_le_mul_right _ (le_divHalfEven (Nat.mul_pos hd (Nat.two_pow_pos _)) ?_)
      calc 2 ^ (l - exponent) * (d * 2 ^ exponent) = 2 ^ l * d := by
            rw [hsplit]
            ring
        _ ≤ scaled / d * d := Nat.mul_le_mul_right d hself
        _ ≤ scaled := Nat.div_mul_le_self scaled d

/-- `n / d` of integers; it raises where the quotient is infinite. -/
@[irreducible] def ofDiv (n d : Nat) (hd : 0 < d) : Except ConversionError Binary64 :=
  if h : divUnits n d < 2 ^ infExponent then
    .ok ⟨divUnits n d, representable_divUnits hd n, h⟩
  else .error .overflowError

theorem ofDiv_error {n d : Nat} {hd : 0 < d} {e : ConversionError}
    (h : ofDiv n d hd = .error e) : e = .overflowError := by
  unfold ofDiv at h
  split at h
  · simp at h
  · exact (Except.error.inj h).symm

/-- No quotient up to one is infinite. -/
theorem succeeds_ofDiv_of_le {n d : Nat} (hd : 0 < d) (h : n ≤ d) : Succeeds (ofDiv n d hd) := by
  have hle : divUnits n d ≤ 2 ^ oneExponent := by
    apply divUnits_le_two_pow hd
    rw [Nat.mul_comm]
    exact Nat.mul_le_mul_left _ h
  have hlt : divUnits n d < 2 ^ infExponent :=
    Nat.lt_of_le_of_lt hle (Nat.pow_lt_pow_right (by decide) (by decide))
  unfold ofDiv
  rw [dif_pos hlt]
  exact succeeds_ok _

/-- `float(n)` -/
def ofNat (n : Nat) : Except ConversionError Binary64 := ofDiv n 1 Nat.one_pos

/-- `int(x)` -/
def toNat (x : Binary64) : Nat := x.units / 2 ^ oneExponent

end Binary64

end Kit
