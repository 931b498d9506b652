import Mathlib.Data.List.Basic
import Mathlib.Data.Nat.Notation

/-!
# Base64

`base64.b64encode`, and `base64.b64decode` with `validate=True` and the URL
safe alphabet (`-` and `_`) read beside the usual one. A digit is a number
under 64. Decoding gives back what was encoded (`decode_encode`).
-/

namespace Kit.Base64

/-- The character of a digit. -/
def digitChar (d : Nat) : Char :=
  if d < 26 then Char.ofNat ('A'.toNat + d)
  else if d < 52 then Char.ofNat ('a'.toNat + (d - 26))
  else if d < 62 then Char.ofNat ('0'.toNat + (d - 52))
  else if d = 62 then '+'
  else '/'

def digit? (c : Char) : Option Nat :=
  if 'A' ≤ c ∧ c ≤ 'Z' then some (c.toNat - 'A'.toNat)
  else if 'a' ≤ c ∧ c ≤ 'z' then some (c.toNat - 'a'.toNat + 26)
  else if '0' ≤ c ∧ c ≤ '9' then some (c.toNat - '0'.toNat + 52)
  else if c = '+' ∨ c = '-' then some 62
  else if c = '/' ∨ c = '_' then some 63
  else none

theorem digit?_digitChar {d : Nat} (h : d < 64) : digit? (digitChar d) = some d := by
  have hall : ∀ d < 64, digit? (digitChar d) = some d := by decide
  exact hall d h

theorem digit?_pad : digit? '=' = none := by decide

/-! ## Digits of bytes -/

/-- Three bytes are four digits; one or two bytes at the end leave the last digits unfilled. -/
def digits : List UInt8 → List Nat
  | a :: b :: c :: rest =>
      a.toNat / 4 :: (a.toNat % 4 * 16 + b.toNat / 16) :: (b.toNat % 16 * 4 + c.toNat / 64)
        :: c.toNat % 64 :: digits rest
  | [a, b] => [a.toNat / 4, a.toNat % 4 * 16 + b.toNat / 16, b.toNat % 16 * 4]
  | [a] => [a.toNat / 4, a.toNat % 4 * 16]
  | [] => []

def bytes : List Nat → List UInt8
  | p :: q :: r :: s :: rest =>
      UInt8.ofNat (p * 4 + q / 16) :: UInt8.ofNat (q % 16 * 16 + r / 4)
        :: UInt8.ofNat (r % 4 * 64 + s) :: bytes rest
  | [p, q, r] => [UInt8.ofNat (p * 4 + q / 16), UInt8.ofNat (q % 16 * 16 + r / 4)]
  | [p, q] => [UInt8.ofNat (p * 4 + q / 16)]
  | _ => []

theorem ofNat_eq_of_toNat {a : UInt8} {n : Nat} (h : n = a.toNat) : UInt8.ofNat n = a := by
  rw [h, UInt8.ofNat_toNat]

theorem bytes_digits : ∀ l : List UInt8, bytes (digits l) = l
  | [] => rfl
  | [a] => by
      have ha := a.toNat_lt
      rw [digits, bytes, ofNat_eq_of_toNat (a := a) (by omega)]
  | [a, b] => by
      have ha := a.toNat_lt
      have hb := b.toNat_lt
      rw [digits, bytes, ofNat_eq_of_toNat (a := a) (by omega),
        ofNat_eq_of_toNat (a := b) (by omega)]
  | a :: b :: c :: rest => by
      have ha := a.toNat_lt
      have hb := b.toNat_lt
      have hc := c.toNat_lt
      rw [digits, bytes, ofNat_eq_of_toNat (a := a) (by omega),
        ofNat_eq_of_toNat (a := b) (by omega), ofNat_eq_of_toNat (a := c) (by omega),
        bytes_digits rest]

theorem digits_lt : ∀ l : List UInt8, ∀ d ∈ digits l, d < 64
  | [] => by simp [digits]
  | [a] => by
      have ha := a.toNat_lt
      simp only [digits, List.mem_cons, List.not_mem_nil, or_false, forall_eq_or_imp, forall_eq]
      omega
  | [a, b] => by
      have ha := a.toNat_lt
      have hb := b.toNat_lt
      simp only [digits, List.mem_cons, List.not_mem_nil, or_false, forall_eq_or_imp, forall_eq]
      omega
  | a :: b :: c :: rest => by
      have ha := a.toNat_lt
      have hb := b.toNat_lt
      have hc := c.toNat_lt
      have hrest := digits_lt rest
      simp only [digits, List.mem_cons, forall_eq_or_imp]
      exact ⟨by omega, by omega, by omega, by omega, hrest⟩

theorem length_digits_mod : ∀ l : List UInt8, (digits l).length % 4 ≠ 1
  | [] => by simp [digits]
  | [a] => by simp [digits]
  | [a, b] => by simp [digits]
  | a :: b :: c :: rest => by
      have hrest := length_digits_mod rest
      simp only [digits, List.length_cons]
      omega

/-! ## Texts -/

/-- How many `=` fill the last group. -/
def padding (length : Nat) : Nat := (4 - length % 4) % 4

/-- `base64.b64encode(data)` -/
def encode (data : List UInt8) : List Char :=
  (digits data).map digitChar ++ List.replicate (padding (digits data).length) '='

/-- `base64.b64decode(text, altchars=b"-_", validate=True)` -/
def decode? (text : List Char) : Option (List UInt8) :=
  let data := text.takeWhile fun c => c ≠ '='
  let pads := text.dropWhile fun c => c ≠ '='
  if data.length % 4 ≠ 1 ∧ pads = List.replicate (padding data.length) '=' then
    (data.mapM digit?).map bytes
  else none

theorem mapM_digit? {l : List Nat} (h : ∀ d ∈ l, d < 64) :
    (l.map digitChar).mapM digit? = some l := by
  induction l with
  | nil => rfl
  | cons d rest ih =>
      rw [List.map_cons, List.mapM_cons, digit?_digitChar (h d List.mem_cons_self),
        ih fun d hd => h d (List.mem_cons_of_mem _ hd)]
      rfl

theorem digitChar_ne_pad {d : Nat} (h : d < 64) : digitChar d ≠ '=' := by
  intro heq
  have hdigit := digit?_digitChar h
  rw [heq, digit?_pad] at hdigit
  cases hdigit

theorem decode_encode (data : List UInt8) : decode? (encode data) = some data := by
  have hdata : ∀ c ∈ (digits data).map digitChar, (decide (c ≠ '=')) = true := by
    intro c hc
    obtain ⟨d, hd, rfl⟩ := List.mem_map.mp hc
    exact decide_eq_true (digitChar_ne_pad (digits_lt data d hd))
  have hpads : ∀ n, (List.replicate n '=').takeWhile (fun c => decide (c ≠ '=')) = [] ∧
      (List.replicate n '=').dropWhile (fun c => decide (c ≠ '=')) = List.replicate n '=' := by
    intro n
    cases n with
    | zero => exact ⟨rfl, rfl⟩
    | succ n => exact ⟨rfl, rfl⟩
  unfold decode? encode
  rw [List.takeWhile_append_of_pos hdata, List.dropWhile_append_of_pos hdata, (hpads _).1,
    (hpads _).2, List.append_nil]
  dsimp only
  rw [List.length_map, if_pos ⟨length_digits_mod data, rfl⟩, mapM_digit? (digits_lt data),
    Option.map_some, bytes_digits]

/-- An encoded text has whole groups. -/
theorem length_encode (data : List UInt8) : (encode data).length % 4 = 0 := by
  have hmod := length_digits_mod data
  rw [encode, List.length_append, List.length_map, List.length_replicate, padding]
  omega

end Kit.Base64
