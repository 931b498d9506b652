import BrandSniper.Kit.Text

/-!
# JSON texts

JSON values, the compact text `json.dumps` writes of them (ASCII only, no
blanks), and `json.loads`, which reads a text or rejects it. Reading the text
of a value gives the value back (`parse_dumps`), so the text determines it
(`dumps_inj`).

Objects are lists of fields in the order of the text. `loads` makes
dictionaries of them: a repeated key keeps its first place and its last
value. `sortKeys` puts the fields of every object in the order of their keys.

A float is whatever the type `F` says it is: `PyFloat` gives its shortest
text and the float of a literal.
-/

namespace Kit

inductive Json (F : Type) where
  | null
  | bool (b : Bool)
  | int (z : Int)
  | float (x : F)
  | str (s : String)
  | arr (items : List (Json F))
  | obj (fields : List (String × Json F))

/-- Characters of number literals, `NaN` and `Infinity` included. -/
def isNumberChar (c : Char) : Bool :=
  c.isDigit || ['-', '+', '.', 'e', 'E', 'N', 'a', 'I', 'n', 'f', 'i', 't', 'y'].contains c

/-- The integer of a literal without leading zeros. -/
def intLiteral? : List Char → Option Int
  | '-' :: digits => (Text.natOfText? digits).bind fun n =>
      if (toString n).toList = digits then some (-(n : Int)) else none
  | digits => (Text.natOfText? digits).bind fun n =>
      if (toString n).toList = digits then some (n : Int) else none

/-- Floats as `float.__repr__` and `float` write and read them. -/
class PyFloat (F : Type) where
  repr : F → List Char
  ofText : List Char → Option F

/-- The text of a float is a literal of that float and of no integer. It starts with no letter
that starts a word. -/
class LawfulPyFloat (F : Type) [PyFloat F] : Prop where
  ofText_repr : ∀ x : F, PyFloat.ofText (PyFloat.repr x) = some x
  isNumberChar_repr : ∀ x : F, ∀ c ∈ PyFloat.repr x, isNumberChar c = true
  intLiteral?_repr : ∀ x : F, intLiteral? (PyFloat.repr x) = none
  head_repr : ∀ x : F, ∃ c rest, PyFloat.repr x = c :: rest ∧ c ≠ 'n' ∧ c ≠ 't' ∧ c ≠ 'f'

/-! ## Strings -/

def hexDigit (d : Nat) : Char :=
  if d < 10 then Char.ofNat ('0'.toNat + d) else Char.ofNat ('a'.toNat + (d - 10))

def hexValue? (c : Char) : Option Nat :=
  if '0' ≤ c ∧ c ≤ '9' then some (c.toNat - '0'.toNat)
  else if 'a' ≤ c ∧ c ≤ 'f' then some (c.toNat - 'a'.toNat + 10)
  else if 'A' ≤ c ∧ c ≤ 'F' then some (c.toNat - 'A'.toNat + 10)
  else none

/-- `\uXXXX` -/
def unicodeEscape (n : Nat) : List Char :=
  ['\\', 'u', hexDigit (n / 4096 % 16), hexDigit (n / 256 % 16), hexDigit (n / 16 % 16),
    hexDigit (n % 16)]

/-- A character inside the quotes. -/
def escapeChar (c : Char) : List Char :=
  if c = '"' then ['\\', '"']
  else if c = '\\' then ['\\', '\\']
  else if c = '\n' then ['\\', 'n']
  else if c = '\r' then ['\\', 'r']
  else if c = '\t' then ['\\', 't']
  else if c = '\x0c' then ['\\', 'f']
  else if c = '\x08' then ['\\', 'b']
  else if ' ' ≤ c ∧ c ≤ '~' then [c]
  else if c.toNat < 65536 then unicodeEscape c.toNat
  -- a surrogate pair
  else unicodeEscape (55296 + (c.toNat - 65536) / 1024)
    ++ unicodeEscape (56320 + (c.toNat - 65536) % 1024)

def escapeChars (cs : List Char) : List Char := cs.flatMap escapeChar

def quote (s : String) : List Char := '"' :: escapeChars s.toList ++ ['"']

def hex4? (a b c d : Char) : Option Nat := do
  let a ← hexValue? a
  let b ← hexValue? b
  let c ← hexValue? c
  let d ← hexValue? d
  some (((a * 16 + b) * 16 + c) * 16 + d)

/-- What follows a high surrogate: its pair, if there is one. -/
def lowSurrogate? : List Char → Option (Nat × List Char)
  | '\\' :: 'u' :: a :: b :: c :: d :: rest =>
      (hex4? a b c d).bind fun n => if 56320 ≤ n ∧ n < 57344 then some (n, rest) else none
  | _ => none

/-- The character of an escape after the backslash, and the rest. A lone surrogate is no
character; it reads as the replacement character. -/
def unescape? : List Char → Option (Char × List Char)
  | '"' :: rest => some ('"', rest)
  | '\\' :: rest => some ('\\', rest)
  | '/' :: rest => some ('/', rest)
  | 'n' :: rest => some ('\n', rest)
  | 'r' :: rest => some ('\r', rest)
  | 't' :: rest => some ('\t', rest)
  | 'f' :: rest => some ('\x0c', rest)
  | 'b' :: rest => some ('\x08', rest)
  | 'u' :: a :: b :: c :: d :: rest =>
      (hex4? a b c d).map fun n =>
        if 55296 ≤ n ∧ n < 56320 then
          match lowSurrogate? rest with
          | some (low, rest) => (Char.ofNat (65536 + (n - 55296) * 1024 + (low - 56320)), rest)
          | none => ('\ufffd', rest)
        else if 56320 ≤ n ∧ n < 57344 then ('\ufffd', rest)
        else (Char.ofNat n, rest)
  | _ => none

/-- The rest of a string after its opening quote. The fuel bounds the number of characters. -/
def parseString : Nat → List Char → Option (List Char × List Char)
  | 0, _ => none
  | _ + 1, [] => none
  | fuel + 1, c :: rest =>
      if c = '"' then some ([], rest)
      else if c = '\\' then
        (unescape? rest).bind fun (c, rest) =>
          (parseString fuel rest).map fun (cs, rest) => (c :: cs, rest)
      -- control characters have to be escaped
      else if c < ' ' then none
      else (parseString fuel rest).map fun (cs, rest) => (c :: cs, rest)

theorem hexValue?_hexDigit {d : Nat} (h : d < 16) : hexValue? (hexDigit d) = some d := by
  have hall : ∀ d, d < 16 → hexValue? (hexDigit d) = some d := by decide
  exact hall d h

theorem hex4?_hexDigit {n : Nat} (h : n < 65536) :
    hex4? (hexDigit (n / 4096 % 16)) (hexDigit (n / 256 % 16)) (hexDigit (n / 16 % 16))
      (hexDigit (n % 16)) = some n := by
  rw [hex4?, hexValue?_hexDigit (by omega), hexValue?_hexDigit (by omega),
    hexValue?_hexDigit (by omega), hexValue?_hexDigit (by omega)]
  simp only [Option.bind_eq_bind, Option.bind_some, Option.some.injEq]
  omega

/-- No character is a surrogate. -/
theorem toNat_not_surrogate (c : Char) : c.toNat < 55296 ∨ 57343 < c.toNat := by
  rcases c.valid with h | h
  · exact .inl h
  · exact .inr h.1

/-- A `\uXXXX` that is no surrogate. -/
theorem unescape?_unicodeEscape {n : Nat} (h : n < 55296 ∨ 57343 < n) (hn : n < 65536)
    (rest : List Char) :
    unescape? ('u' :: hexDigit (n / 4096 % 16) :: hexDigit (n / 256 % 16) ::
      hexDigit (n / 16 % 16) :: hexDigit (n % 16) :: rest) = some (Char.ofNat n, rest) := by
  rw [unescape?, hex4?_hexDigit hn, Option.map_some, if_neg (by omega), if_neg (by omega)]

/-- A surrogate pair. -/
theorem unescape?_surrogates {n : Nat} (h : n < 1048576) (rest : List Char) :
    unescape? ((unicodeEscape (55296 + n / 1024)).tail ++
      (unicodeEscape (56320 + n % 1024) ++ rest)) = some (Char.ofNat (65536 + n), rest) := by
  have hhigh : 55296 + n / 1024 < 65536 := by omega
  have hlow : 56320 + n % 1024 < 65536 := by omega
  have hvalue : 65536 + (55296 + n / 1024 - 55296) * 1024 + (56320 + n % 1024 - 56320)
      = 65536 + n := by omega
  have hpair : lowSurrogate? (unicodeEscape (56320 + n % 1024) ++ rest)
      = some (56320 + n % 1024, rest) := by
    rw [unicodeEscape]
    simp only [List.cons_append, List.nil_append]
    rw [lowSurrogate?, hex4?_hexDigit hlow, Option.bind_some, if_pos (by omega)]
  rw [unicodeEscape, List.tail_cons]
  simp only [List.cons_append, List.nil_append]
  rw [unescape?, hex4?_hexDigit hhigh, Option.map_some, if_pos (by omega), hpair]
  simp only [hvalue]

theorem parseString_escape {c : Char} {fuel : Nat} {escape rest : List Char}
    (h : unescape? escape = some (c, rest)) :
    parseString (fuel + 1) ('\\' :: escape)
      = (parseString fuel rest).map fun (cs, rest) => (c :: cs, rest) := by
  rw [parseString, if_neg (by decide), if_pos rfl, h, Option.bind_some]

/-- How a character is written: by its letter, as it is, or by its number. -/
inductive Escaped (c : Char) : List Char → Prop where
  | short {e : Char} (hletter : e ∈ ['"', '\\', 'n', 'r', 't', 'f', 'b'])
      (hread : ∀ rest, unescape? (e :: rest) = some (c, rest)) : Escaped c ['\\', e]
  | plain (hquote : c ≠ '"') (hbackslash : c ≠ '\\') (hprintable : ' ' ≤ c ∧ c ≤ '~') :
      Escaped c [c]
  | basic (hsmall : c.toNat < 65536) : Escaped c (unicodeEscape c.toNat)
  | pair (hlarge : ¬ c.toNat < 65536) :
      Escaped c (unicodeEscape (55296 + (c.toNat - 65536) / 1024)
        ++ unicodeEscape (56320 + (c.toNat - 65536) % 1024))

theorem escaped_escapeChar (c : Char) : Escaped c (escapeChar c) := by
  unfold escapeChar
  apply iteInduction
  · rintro rfl; exact .short (by decide) fun _ => rfl
  intro hquote
  apply iteInduction
  · rintro rfl; exact .short (by decide) fun _ => rfl
  intro hbackslash
  apply iteInduction
  · rintro rfl; exact .short (by decide) fun _ => rfl
  intro _
  apply iteInduction
  · rintro rfl; exact .short (by decide) fun _ => rfl
  intro _
  apply iteInduction
  · rintro rfl; exact .short (by decide) fun _ => rfl
  intro _
  apply iteInduction
  · rintro rfl; exact .short (by decide) fun _ => rfl
  intro _
  apply iteInduction
  · rintro rfl; exact .short (by decide) fun _ => rfl
  intro _
  apply iteInduction
  · intro hprintable
    exact .plain hquote hbackslash hprintable
  intro _
  apply iteInduction
  · intro hsmall
    exact .basic hsmall
  · intro hlarge
    exact .pair hlarge

theorem escapeChar_ne_nil (c : Char) : escapeChar c ≠ [] := by
  cases hescaped : escapeChar c with
  | nil =>
      have h := escaped_escapeChar c
      rw [hescaped] at h
      cases h
  | cons d ds => exact List.cons_ne_nil d ds

/-- An escaped character reads as itself. -/
theorem parseString_escapeChar (c : Char) (fuel : Nat) (rest : List Char) :
    parseString (fuel + 1) (escapeChar c ++ rest)
      = (parseString fuel rest).map fun (cs, rest) => (c :: cs, rest) := by
  have h := escaped_escapeChar c
  generalize escapeChar c = escaped at h
  cases h with
  | short hletter hread => exact parseString_escape (hread rest)
  | plain hquote hbackslash hprintable =>
      rw [List.cons_append, List.nil_append, parseString, if_neg hquote, if_neg hbackslash,
        if_neg (not_lt.mpr hprintable.1)]
  | basic hsmall =>
      have hread := unescape?_unicodeEscape (toNat_not_surrogate c) hsmall rest
      rw [Char.ofNat_toNat] at hread
      exact parseString_escape hread
  | pair hlarge =>
      have hvalid : c.toNat < 1114112 := by
        rcases c.valid with h | h
        · have hnat : c.toNat < 55296 := h
          omega
        · exact h.2
      have hread := unescape?_surrogates (n := c.toNat - 65536) (by omega) rest
      rw [show 65536 + (c.toNat - 65536) = c.toNat by omega, Char.ofNat_toNat] at hread
      rw [List.append_assoc]
      exact parseString_escape hread

theorem parseString_escapeChars (cs : List Char) {fuel : Nat} (h : cs.length < fuel)
    (rest : List Char) :
    parseString fuel (escapeChars cs ++ '"' :: rest) = some (cs, rest) := by
  induction cs generalizing fuel with
  | nil =>
      cases fuel with
      | zero => omega
      | succ fuel => rfl
  | cons c cs ih =>
      cases fuel with
      | zero => omega
      | succ fuel =>
          rw [List.length_cons] at h
          rw [escapeChars, List.flatMap_cons, List.append_assoc, parseString_escapeChar]
          rw [show cs.flatMap escapeChar = escapeChars cs from rfl, ih (by omega)]
          rfl

/-! ## Values -/

namespace Json

variable {F : Type}

/-- Blanks between tokens. -/
def skipBlanks : List Char → List Char
  | [] => []
  | c :: rest =>
      if c = ' ' ∨ c = '\n' ∨ c = '\r' ∨ c = '\t' then skipBlanks rest else c :: rest

section
variable [PyFloat F]

mutual

/-- The text with a gap after every comma and colon. -/
def dumpsWith (gap : List Char) : Json F → List Char
  | .null => ['n', 'u', 'l', 'l']
  | .bool true => ['t', 'r', 'u', 'e']
  | .bool false => ['f', 'a', 'l', 's', 'e']
  | .int z => (toString z).toList
  | .float x => PyFloat.repr x
  | .str s => quote s
  | .arr items => '[' :: (dumpsWithItems gap items ++ [']'])
  | .obj fields => '{' :: (dumpsWithFields gap fields ++ ['}'])
termination_by structural j => j

def dumpsWithItems (gap : List Char) : List (Json F) → List Char
  | [] => []
  | j :: rest =>
      dumpsWith gap j ++ if rest.isEmpty then [] else ',' :: (gap ++ dumpsWithItems gap rest)
termination_by structural items => items

def dumpsWithFields (gap : List Char) : List (String × Json F) → List Char
  | [] => []
  | field :: rest =>
      dumpsWithField gap field
        ++ if rest.isEmpty then [] else ',' :: (gap ++ dumpsWithFields gap rest)
termination_by structural fields => fields

def dumpsWithField (gap : List Char) : String × Json F → List Char
  | (key, j) => quote key ++ ':' :: (gap ++ dumpsWith gap j)
termination_by structural field => field

end

/-- `json.dumps(value, separators=(",", ":"))` -/
def dumps (j : Json F) : List Char := dumpsWith [] j

/-- `json.dumps(value)` -/
def dumpsSpaced (j : Json F) : List Char := dumpsWith [' '] j

/-- A number literal and the rest. -/
def parseNumber (cs : List Char) : Option (Json F × List Char) :=
  let literal := cs.takeWhile isNumberChar
  let rest := cs.dropWhile isNumberChar
  match intLiteral? literal with
  | some z => some (.int z, rest)
  | none => (PyFloat.ofText literal).map fun x => (.float x, rest)

mutual

/-- A value and the rest of the text. The fuel bounds the depth. -/
def parseValue : Nat → List Char → Option (Json F × List Char)
  | 0, _ => none
  | fuel + 1, cs =>
      match skipBlanks cs with
      | '"' :: rest =>
          (parseString (rest.length + 1) rest).map fun (s, rest) => (.str (String.ofList s), rest)
      | '[' :: rest =>
          match skipBlanks rest with
          | ']' :: rest => some (.arr [], rest)
          | rest => (parseItems fuel rest).map fun (items, rest) => (.arr items, rest)
      | '{' :: rest =>
          match skipBlanks rest with
          | '}' :: rest => some (.obj [], rest)
          | rest => (parseFields fuel rest).map fun (fields, rest) => (.obj fields, rest)
      | 'n' :: 'u' :: 'l' :: 'l' :: rest => some (.null, rest)
      | 't' :: 'r' :: 'u' :: 'e' :: rest => some (.bool true, rest)
      | 'f' :: 'a' :: 'l' :: 's' :: 'e' :: rest => some (.bool false, rest)
      | rest => parseNumber rest

/-- One item or more, and the closing bracket. -/
def parseItems : Nat → List Char → Option (List (Json F) × List Char)
  | 0, _ => none
  | fuel + 1, cs =>
      (parseValue fuel cs).bind fun (j, rest) =>
        match skipBlanks rest with
        | ',' :: rest => (parseItems fuel rest).map fun (items, rest) => (j :: items, rest)
        | ']' :: rest => some ([j], rest)
        | _ => none

/-- One field or more, and the closing brace. -/
def parseFields : Nat → List Char → Option (List (String × Json F) × List Char)
  | 0, _ => none
  | fuel + 1, cs =>
      match skipBlanks cs with
      | '"' :: rest =>
          (parseString (rest.length + 1) rest).bind fun (key, rest) =>
            match skipBlanks rest with
            | ':' :: rest =>
                (parseValue fuel rest).bind fun (j, rest) =>
                  match skipBlanks rest with
                  | ',' :: rest => (parseFields fuel rest).map fun (fields, rest) =>
                      ((String.ofList key, j) :: fields, rest)
                  | '}' :: rest => some ([(String.ofList key, j)], rest)
                  | _ => none
            | _ => none
      | _ => none

end

/-- The value of a whole text. -/
def parse (cs : List Char) : Option (Json F) :=
  (parseValue (cs.length + 1) cs).bind fun (j, rest) =>
    if skipBlanks rest = [] then some j else none

end

/-! ## Reading back -/

mutual

/-- The fuel that a value needs. -/
def size : Json F → Nat
  | .arr items => sizeItems items + 1
  | .obj fields => sizeFields fields + 1
  | _ => 1
termination_by structural j => j

def sizeItems : List (Json F) → Nat
  | [] => 0
  | j :: rest => size j + sizeItems rest + 1
termination_by structural items => items

def sizeFields : List (String × Json F) → Nat
  | [] => 0
  | field :: rest => sizeField field + sizeFields rest + 1
termination_by structural fields => fields

def sizeField : String × Json F → Nat
  | (_, j) => size j
termination_by structural field => field

end

/-- What follows a value in a text: no more of a number. -/
def EndsNumber (rest : List Char) : Prop := ∀ c tail, rest = c :: tail → isNumberChar c = false

theorem endsNumber_nil : EndsNumber [] := by
  intro c tail h
  cases h

theorem endsNumber_cons {c : Char} {tail : List Char} (h : isNumberChar c = false) :
    EndsNumber (c :: tail) := by
  intro c' tail' heq
  obtain ⟨rfl, rfl⟩ := List.cons.inj heq
  exact h

theorem span_number {literal rest : List Char} (h : ∀ c ∈ literal, isNumberChar c = true)
    (hrest : EndsNumber rest) :
    (literal ++ rest).takeWhile isNumberChar = literal ∧
      (literal ++ rest).dropWhile isNumberChar = rest := by
  induction literal with
  | nil =>
      cases rest with
      | nil => exact ⟨rfl, rfl⟩
      | cons c tail =>
          have hc := hrest c tail rfl
          constructor
          · rw [List.nil_append, List.takeWhile_cons, if_neg (by simp [hc])]
          · rw [List.nil_append, List.dropWhile_cons, if_neg (by simp [hc])]
  | cons c literal ih =>
      have hc := h c List.mem_cons_self
      obtain ⟨htake, hdrop⟩ := ih fun d hd => h d (List.mem_cons_of_mem c hd)
      constructor
      · rw [List.cons_append, List.takeWhile_cons, if_pos hc, htake]
      · rw [List.cons_append, List.dropWhile_cons, if_pos hc, hdrop]

theorem isNumberChar_of_isDigit {c : Char} (h : c.isDigit = true) : isNumberChar c = true := by
  simp [isNumberChar, h]

theorem isDigit_natText (n : Nat) : ∀ c ∈ (toString n).toList, c.isDigit = true := by
  intro c hc
  by_contra hnot
  exact Text.not_mem_natText (by simpa using hnot) n hc

theorem minus_or_isDigit_intText (z : Int) :
    ∀ c ∈ (toString z).toList, c = '-' ∨ c.isDigit = true := by
  intro c hc
  cases z with
  | ofNat n => exact .inr (isDigit_natText n c hc)
  | negSucc n =>
      rw [Text.intText_negSucc] at hc
      exact (List.mem_cons.mp hc).imp_right (isDigit_natText _ c)

theorem isNumberChar_intText (z : Int) : ∀ c ∈ (toString z).toList, isNumberChar c = true := by
  intro c hc
  rcases minus_or_isDigit_intText z c hc with rfl | hdigit
  · decide
  · exact isNumberChar_of_isDigit hdigit

theorem intLiteral?_intText (z : Int) : intLiteral? (toString z).toList = some z := by
  cases z with
  | ofNat n =>
      have hread : intLiteral? (toString n).toList
          = (Text.natOfText? (toString n).toList).bind fun m =>
            if (toString m).toList = (toString n).toList then some (m : Int) else none := by
        unfold intLiteral?
        split
        · rename_i digits heq
          exact absurd (isDigit_natText n '-' (heq ▸ List.mem_cons_self)) (by decide)
        · rfl
      rw [show (toString (Int.ofNat n)).toList = (toString n).toList from rfl, hread,
        Text.natOfText?_natText, Option.bind_some, if_pos rfl]
      rfl
  | negSucc n =>
      rw [Text.intText_negSucc, intLiteral?, Text.natOfText?_natText, Option.bind_some, if_pos rfl]
      rfl

section
variable [PyFloat F]

/-- The characters a value starts with. -/
def StartsValue (c : Char) : Prop :=
  c = '"' ∨ c = '[' ∨ c = '{' ∨ c = 'n' ∨ c = 't' ∨ c = 'f' ∨ isNumberChar c = true

theorem StartsValue.ne_bracket {c : Char} (h : StartsValue c) : c ≠ ']' := by
  intro heq
  subst heq
  revert h
  unfold StartsValue
  decide

theorem StartsValue.skipBlanks {c : Char} (h : StartsValue c) (rest : List Char) :
    skipBlanks (c :: rest) = c :: rest := by
  have hblank : ¬ (c = ' ' ∨ c = '\n' ∨ c = '\r' ∨ c = '\t') := by
    intro heq
    rcases heq with rfl | rfl | rfl | rfl <;> revert h <;> unfold StartsValue <;> decide
  rw [Json.skipBlanks, if_neg hblank]

theorem intText_ne_nil (z : Int) : (toString z).toList ≠ [] := by
  cases z with
  | ofNat n => exact Text.natText_ne_nil n
  | negSucc n => rw [Text.intText_negSucc]; exact List.cons_ne_nil _ _

theorem startsValue_dumpsWith [LawfulPyFloat F] (gap : List Char) (j : Json F) :
    ∃ c rest, dumpsWith gap j = c :: rest ∧ StartsValue c := by
  unfold StartsValue
  cases j with
  | null => exact ⟨_, _, by rw [dumpsWith], by simp⟩
  | bool b =>
      cases b with
      | true => exact ⟨_, _, by rw [dumpsWith], by simp⟩
      | false => exact ⟨_, _, by rw [dumpsWith], by simp⟩
  | int z =>
      have hchars := isNumberChar_intText z
      rw [dumpsWith]
      cases htext : (toString z).toList with
      | nil => exact absurd htext (intText_ne_nil z)
      | cons c rest => exact ⟨c, rest, rfl, by simp [hchars c (htext ▸ List.mem_cons_self)]⟩
  | float x =>
      have hchars := LawfulPyFloat.isNumberChar_repr x
      obtain ⟨c, rest, htext, -⟩ := LawfulPyFloat.head_repr x
      rw [dumpsWith, htext]
      exact ⟨c, rest, rfl, by simp [hchars c (htext ▸ List.mem_cons_self)]⟩
  | str s => exact ⟨_, _, by rw [dumpsWith, quote, List.cons_append], by simp⟩
  | arr items => exact ⟨_, _, by rw [dumpsWith], by simp⟩
  | obj fields => exact ⟨_, _, by rw [dumpsWith], by simp⟩

theorem startsValue_dumps [LawfulPyFloat F] (j : Json F) :
    ∃ c rest, dumps j = c :: rest ∧ StartsValue c :=
  startsValue_dumpsWith [] j

/-- A number is read once no other kind of value starts with its first character. -/
theorem parseValue_number {c : Char} (hc : isNumberChar c = true)
    (hword : c ≠ 'n' ∧ c ≠ 't' ∧ c ≠ 'f') (fuel : Nat) (rest : List Char) :
    parseValue (F := F) (fuel + 1) (c :: rest) = parseNumber (c :: rest) := by
  have hstart : StartsValue c := by simp [StartsValue, hc]
  obtain ⟨hn, ht, hf⟩ := hword
  rw [parseValue, hstart.skipBlanks]
  split
  · rename_i heq; rw [(List.cons.inj heq).1] at hc; exact absurd hc (by decide)
  · rename_i heq; rw [(List.cons.inj heq).1] at hc; exact absurd hc (by decide)
  · rename_i heq; rw [(List.cons.inj heq).1] at hc; exact absurd hc (by decide)
  · rename_i heq; exact absurd (List.cons.inj heq).1 hn
  · rename_i heq; exact absurd (List.cons.inj heq).1 ht
  · rename_i heq; exact absurd (List.cons.inj heq).1 hf
  · rfl

theorem parseNumber_dumps_int (z : Int) {rest : List Char} (hrest : EndsNumber rest) :
    parseNumber (F := F) ((toString z).toList ++ rest) = some (.int z, rest) := by
  obtain ⟨htake, hdrop⟩ := span_number (isNumberChar_intText z) hrest
  simp only [parseNumber, htake, hdrop, intLiteral?_intText]

theorem parseNumber_dumps_float [LawfulPyFloat F] (x : F) {rest : List Char}
    (hrest : EndsNumber rest) :
    parseNumber (PyFloat.repr x ++ rest) = some (.float x, rest) := by
  obtain ⟨htake, hdrop⟩ := span_number (LawfulPyFloat.isNumberChar_repr x) hrest
  simp only [parseNumber, htake, hdrop, LawfulPyFloat.intLiteral?_repr,
    LawfulPyFloat.ofText_repr, Option.map_some]

/-- A string is read with the fuel of the text after its opening quote. -/
theorem parseString_quote (s : String) (rest : List Char) :
    ∃ tail, quote s ++ rest = '"' :: tail ∧
      parseString (tail.length + 1) tail = some (s.toList, rest) := by
  refine ⟨escapeChars s.toList ++ '"' :: rest, by simp [quote], ?_⟩
  refine parseString_escapeChars s.toList ?_ rest
  have hlength : ∀ cs : List Char, cs.length ≤ (escapeChars cs).length := by
    intro cs
    induction cs with
    | nil => exact Nat.le_refl 0
    | cons c cs ih =>
        have hpos : 1 ≤ (escapeChar c).length := List.length_pos_iff.mpr (escapeChar_ne_nil c)
        rw [escapeChars, List.flatMap_cons, List.length_append, List.length_cons]
        unfold escapeChars at ih
        omega
  have := hlength s.toList
  rw [List.length_append]
  omega

theorem parseValue_gap {gap : List Char} (hgap : ∀ cs, skipBlanks (gap ++ cs) = skipBlanks cs)
    (fuel : Nat) (cs : List Char) :
    parseValue (F := F) fuel (gap ++ cs) = parseValue fuel cs := by
  cases fuel with
  | zero => rfl
  | succ fuel => rw [parseValue, parseValue, hgap]

theorem parseItems_gap {gap : List Char} (hgap : ∀ cs, skipBlanks (gap ++ cs) = skipBlanks cs)
    (fuel : Nat) (cs : List Char) :
    parseItems (F := F) fuel (gap ++ cs) = parseItems fuel cs := by
  cases fuel with
  | zero => rfl
  | succ fuel => rw [parseItems, parseItems, parseValue_gap hgap]

theorem parseFields_gap {gap : List Char} (hgap : ∀ cs, skipBlanks (gap ++ cs) = skipBlanks cs)
    (fuel : Nat) (cs : List Char) :
    parseFields (F := F) fuel (gap ++ cs) = parseFields fuel cs := by
  cases fuel with
  | zero => rfl
  | succ fuel => rw [parseFields, parseFields, hgap]

mutual

/-- Reading the text of a value, with more text after it. -/
theorem parseValue_dumpsWith [LawfulPyFloat F] {gap : List Char}
    (hgap : ∀ cs, skipBlanks (gap ++ cs) = skipBlanks cs) : ∀ (j : Json F) (fuel : Nat)
    (rest : List Char), size j ≤ fuel → EndsNumber rest →
    parseValue fuel (dumpsWith gap j ++ rest) = some (j, rest)
  | .null, 0, _, h, _ => by simp [size] at h
  | .null, fuel + 1, rest, _, _ => by simp [dumpsWith, parseValue, skipBlanks]
  | .bool _, 0, _, h, _ => by simp [size] at h
  | .bool true, fuel + 1, rest, _, _ => by simp [dumpsWith, parseValue, skipBlanks]
  | .bool false, fuel + 1, rest, _, _ => by simp [dumpsWith, parseValue, skipBlanks]
  | .int _, 0, _, h, _ => by simp [size] at h
  | .int z, fuel + 1, rest, _, hrest => by
      have hchars := isNumberChar_intText z
      have hread := parseNumber_dumps_int (F := F) z hrest
      rw [dumpsWith]
      cases htext : (toString z).toList with
      | nil => exact absurd htext (intText_ne_nil z)
      | cons c tail =>
          have hword : c ≠ 'n' ∧ c ≠ 't' ∧ c ≠ 'f' := by
            have hc := minus_or_isDigit_intText z c (htext ▸ List.mem_cons_self)
            refine ⟨?_, ?_, ?_⟩ <;> (intro heq; subst heq; revert hc; decide)
          rw [htext] at hread
          rw [List.cons_append, parseValue_number (hchars c (htext ▸ List.mem_cons_self)) hword]
          exact hread
  | .float _, 0, _, h, _ => by simp [size] at h
  | .float x, fuel + 1, rest, _, hrest => by
      have hchars := LawfulPyFloat.isNumberChar_repr x
      have hread := parseNumber_dumps_float x hrest
      obtain ⟨c, tail, htext, hword⟩ := LawfulPyFloat.head_repr x
      rw [htext] at hread
      rw [dumpsWith, htext, List.cons_append,
        parseValue_number (hchars c (htext ▸ List.mem_cons_self)) hword]
      exact hread
  | .str _, 0, _, h, _ => by simp [size] at h
  | .str s, fuel + 1, rest, _, _ => by
      obtain ⟨tail, htext, hread⟩ := parseString_quote s rest
      rw [dumpsWith, htext, parseValue]
      simp [skipBlanks, hread]
  | .arr _, 0, _, h, _ => by simp [size] at h
  | .arr [], fuel + 1, rest, _, _ => by simp [dumpsWith, dumpsWithItems, parseValue, skipBlanks]
  | .arr (j :: items), fuel + 1, rest, h, _ => by
      rw [size] at h
      have hread := parseItems_dumpsWith hgap (j :: items) fuel rest (by simp) (by omega)
      obtain ⟨c, tail, htext, hc⟩ := startsValue_dumpsWith gap j
      rw [dumpsWith, List.cons_append, List.append_assoc, List.singleton_append, parseValue]
      rw [dumpsWithItems, htext, List.cons_append, List.cons_append] at hread ⊢
      rw [show ∀ cs, skipBlanks ('[' :: cs) = '[' :: cs from fun cs => rfl]
      simp only [hc.skipBlanks]
      split
      · rename_i heq
        exact absurd (List.cons.inj heq).1 hc.ne_bracket
      · rw [hread]
        rfl
  | .obj _, 0, _, h, _ => by simp [size] at h
  | .obj [], fuel + 1, rest, _, _ => by simp [dumpsWith, dumpsWithFields, parseValue, skipBlanks]
  | .obj (field :: fields), fuel + 1, rest, h, _ => by
      rw [size] at h
      have hread := parseFields_dumpsWith hgap (field :: fields) fuel rest (by simp) (by omega)
      obtain ⟨key, j⟩ := field
      rw [dumpsWith, List.cons_append, List.append_assoc, List.singleton_append, parseValue]
      rw [dumpsWithFields, dumpsWithField, quote, List.cons_append, List.cons_append,
        List.cons_append, List.cons_append] at hread ⊢
      rw [show ∀ cs, skipBlanks ('{' :: cs) = '{' :: cs from fun cs => rfl]
      simp only [show ∀ cs, skipBlanks ('"' :: cs) = '"' :: cs from fun cs => rfl]
      exact congrArg (Option.map fun x => (Json.obj x.1, x.2)) hread

theorem parseItems_dumpsWith [LawfulPyFloat F] {gap : List Char}
    (hgap : ∀ cs, skipBlanks (gap ++ cs) = skipBlanks cs) : ∀ (items : List (Json F))
    (fuel : Nat) (rest : List Char), items ≠ [] → sizeItems items ≤ fuel →
    parseItems fuel (dumpsWithItems gap items ++ ']' :: rest) = some (items, rest)
  | [], _, _, h, _ => absurd rfl h
  | _ :: _, 0, _, _, h => by simp [sizeItems] at h
  | j :: items, fuel + 1, rest, _, h => by
      rw [sizeItems] at h
      rw [dumpsWithItems, List.append_assoc, parseItems]
      cases items with
      | nil =>
          rw [List.isEmpty_nil, if_pos rfl, List.nil_append,
            parseValue_dumpsWith hgap j fuel _ (by omega) (endsNumber_cons (by decide))]
          rfl
      | cons next items =>
          have hread := parseItems_dumpsWith hgap (next :: items) fuel rest (by simp) (by omega)
          rw [if_neg (by simp), List.cons_append,
            parseValue_dumpsWith hgap j fuel _ (by omega) (endsNumber_cons (by decide)),
            Option.bind_some]
          simp only [show ∀ cs, skipBlanks (',' :: cs) = ',' :: cs from fun cs => rfl]
          rw [List.append_assoc, parseItems_gap hgap, hread]
          rfl

theorem parseFields_dumpsWith [LawfulPyFloat F] {gap : List Char}
    (hgap : ∀ cs, skipBlanks (gap ++ cs) = skipBlanks cs) : ∀ (fields : List (String × Json F))
    (fuel : Nat) (rest : List Char), fields ≠ [] → sizeFields fields ≤ fuel →
    parseFields fuel (dumpsWithFields gap fields ++ '}' :: rest) = some (fields, rest)
  | [], _, _, h, _ => absurd rfl h
  | _ :: _, 0, _, _, h => by simp [sizeFields] at h
  | (key, j) :: fields, fuel + 1, rest, _, h => by
      rw [sizeFields, sizeField] at h
      obtain ⟨tail, htext, hkey⟩ := parseString_quote key (':' :: (gap ++ (dumpsWith gap j ++
        ((if fields.isEmpty then [] else ',' :: (gap ++ dumpsWithFields gap fields))
          ++ '}' :: rest))))
      rw [dumpsWithFields, dumpsWithField, List.append_assoc, List.append_assoc, List.cons_append,
        List.append_assoc, htext, parseFields]
      simp only [show ∀ cs, skipBlanks ('"' :: cs) = '"' :: cs from fun cs => rfl, hkey,
        Option.bind_some, show ∀ cs, skipBlanks (':' :: cs) = ':' :: cs from fun cs => rfl,
        String.ofList_toList, parseValue_gap hgap]
      cases fields with
      | nil =>
          rw [List.isEmpty_nil, if_pos rfl, List.nil_append,
            parseValue_dumpsWith hgap j fuel _ (by omega) (endsNumber_cons (by decide))]
          rfl
      | cons next fields =>
          have hread := parseFields_dumpsWith hgap (next :: fields) fuel rest (by simp) (by omega)
          rw [if_neg (by simp), List.cons_append,
            parseValue_dumpsWith hgap j fuel _ (by omega) (endsNumber_cons (by decide)),
            Option.bind_some]
          simp only [show ∀ cs, skipBlanks (',' :: cs) = ',' :: cs from fun cs => rfl]
          rw [List.append_assoc, parseFields_gap hgap, hread]
          rfl

end

theorem repr_ne_nil [LawfulPyFloat F] (x : F) : PyFloat.repr x ≠ [] := by
  obtain ⟨c, rest, htext, -⟩ := LawfulPyFloat.head_repr x
  rw [htext]
  exact List.cons_ne_nil c rest

mutual

/-- The text of a value is as long as the fuel it needs. -/
theorem size_le_length [LawfulPyFloat F] (gap : List Char) :
    ∀ j : Json F, size j ≤ (dumpsWith gap j).length
  | .null => by simp [size, dumpsWith]
  | .bool true => by simp [size, dumpsWith]
  | .bool false => by simp [size, dumpsWith]
  | .int z => by
      rw [size, dumpsWith]
      · exact List.length_pos_iff.mpr (intText_ne_nil z)
      all_goals simp
  | .float x => by
      rw [size, dumpsWith]
      · exact List.length_pos_iff.mpr (repr_ne_nil x)
      all_goals simp
  | .str s => by simp [size, dumpsWith, quote]
  | .arr items => by
      have hitems := sizeItems_le_length gap items
      simp only [size, dumpsWith, List.length_cons, List.length_append, List.length_nil]
      omega
  | .obj fields => by
      have hfields := sizeFields_le_length gap fields
      simp only [size, dumpsWith, List.length_cons, List.length_append, List.length_nil]
      omega

theorem sizeItems_le_length [LawfulPyFloat F] (gap : List Char) : ∀ items : List (Json F),
    sizeItems items ≤ (dumpsWithItems gap items).length + 1
  | [] => by simp [sizeItems]
  | [j] => by
      have hj := size_le_length gap j
      simp only [sizeItems, dumpsWithItems, List.isEmpty_nil, if_true, List.append_nil]
      omega
  | j :: next :: items => by
      have hj := size_le_length gap j
      have hrest := sizeItems_le_length gap (next :: items)
      rw [sizeItems, dumpsWithItems, if_neg (by simp), List.length_append, List.length_cons,
        List.length_append]
      omega

theorem sizeFields_le_length [LawfulPyFloat F] (gap : List Char) : ∀ fields : List (String × Json F),
    sizeFields fields ≤ (dumpsWithFields gap fields).length + 1
  | [] => by simp [sizeFields]
  | [(key, j)] => by
      have hj := size_le_length gap j
      simp only [sizeFields, sizeField, dumpsWithFields, dumpsWithField, List.isEmpty_nil,
        if_true, List.append_nil, List.length_append, List.length_cons]
      omega
  | (key, j) :: next :: fields => by
      have hj := size_le_length gap j
      have hrest := sizeFields_le_length gap (next :: fields)
      rw [sizeFields, sizeField, dumpsWithFields, dumpsWithField, if_neg (by simp),
        List.length_append, List.length_append, List.length_cons, List.length_cons,
        List.length_append, List.length_append]
      omega

end

/-- Reading the text of a value gives the value. -/
theorem parse_dumpsWith [LawfulPyFloat F] {gap : List Char}
    (hgap : ∀ cs, skipBlanks (gap ++ cs) = skipBlanks cs) (j : Json F) :
    parse (dumpsWith gap j) = some j := by
  have hsize : size j ≤ (dumpsWith gap j).length + 1 :=
    Nat.le_succ_of_le (size_le_length gap j)
  have hread := parseValue_dumpsWith hgap j ((dumpsWith gap j).length + 1) [] hsize endsNumber_nil
  rw [List.append_nil] at hread
  rw [parse, hread]
  rfl

theorem parse_dumps [LawfulPyFloat F] (j : Json F) : parse (dumps j) = some j :=
  parse_dumpsWith (fun _ => rfl) j

end

end Json

/-! ## Floats by their text -/

/-- Whether a text is that of a float. -/
def isFloatText (text : List Char) : Bool :=
  text.all isNumberChar && (intLiteral? text).isNone &&
    text.head?.any fun c => c ≠ 'n' && c ≠ 't' && c ≠ 'f'

/-- A float given by its shortest text. -/
structure FloatText where
  text : List Char
  isFloat : isFloatText text = true
  deriving DecidableEq

instance : PyFloat FloatText where
  repr x := x.text
  ofText text := if h : isFloatText text = true then some ⟨text, h⟩ else none

theorem FloatText.spec (x : FloatText) : (∀ c ∈ x.text, isNumberChar c = true) ∧
    intLiteral? x.text = none ∧ ∃ c rest, x.text = c :: rest ∧ c ≠ 'n' ∧ c ≠ 't' ∧ c ≠ 'f' := by
  obtain ⟨text, isFloat⟩ := x
  simp only [isFloatText, Bool.and_eq_true, List.all_eq_true, Option.isNone_iff_eq_none] at isFloat
  obtain ⟨⟨numberChars, notInt⟩, head⟩ := isFloat
  refine ⟨numberChars, notInt, ?_⟩
  cases text with
  | nil => cases head
  | cons c rest => exact ⟨c, rest, rfl, by simpa [and_assoc] using head⟩

instance : LawfulPyFloat FloatText where
  ofText_repr x := dif_pos x.isFloat
  isNumberChar_repr x := x.spec.1
  intLiteral?_repr x := x.spec.2.1
  head_repr x := x.spec.2.2

end Kit
