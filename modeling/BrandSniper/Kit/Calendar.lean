import BrandSniper.Kit.Text

/-!
# Dates and times of day

A proleptic Gregorian date with its validity as fields, and a moment as a
date and a time of day. Moments compare field by field. The day of a moment
is the half-open interval from its midnight to the next one
(`sameDay_iff`), and the ISO text of a date determines it (`isoformat_inj`).
-/

namespace Kit

/-! ## Dates -/

def isLeap (year : Nat) : Bool :=
  year % 4 = 0 && (year % 100 ≠ 0 || year % 400 = 0)

def daysInMonth (year month : Nat) : Nat :=
  if month = 2 then (if isLeap year then 29 else 28)
  else if month = 4 ∨ month = 6 ∨ month = 9 ∨ month = 11 then 30
  else 31

theorem daysInMonth_bounds (year month : Nat) :
    28 ≤ daysInMonth year month ∧ daysInMonth year month ≤ 31 := by
  unfold daysInMonth
  split
  · split <;> omega
  · split <;> omega

/-- A date of the Gregorian calendar. -/
structure Date where
  year : Nat
  month : Nat
  day : Nat
  month_valid : 1 ≤ month ∧ month ≤ 12
  day_valid : 1 ≤ day ∧ day ≤ daysInMonth year month
  deriving DecidableEq

namespace Date

theorem ext_iff {a b : Date} :
    a = b ↔ a.year = b.year ∧ a.month = b.month ∧ a.day = b.day := by
  constructor
  · intro h
    subst h
    exact ⟨rfl, rfl, rfl⟩
  · rintro ⟨hy, hm, hd⟩
    cases a
    cases b
    cases hy
    cases hm
    cases hd
    rfl

/-- Year, month and day as one number, in the order of the calendar. -/
def key (d : Date) : Nat := (d.year * 12 + (d.month - 1)) * 31 + (d.day - 1)

theorem key_inj {a b : Date} (h : a.key = b.key) : a = b := by
  have ha := a.day_valid
  have hb := b.day_valid
  have hma := a.month_valid
  have hmb := b.month_valid
  have hda := (daysInMonth_bounds a.year a.month).2
  have hdb := (daysInMonth_bounds b.year b.month).2
  unfold key at h
  exact ext_iff.mpr ⟨by omega, by omega, by omega⟩

/-- The day after. -/
def next (d : Date) : Date :=
  if h : d.day < daysInMonth d.year d.month then
    { d with
      day := d.day + 1
      day_valid := ⟨by omega, by omega⟩ }
  else if h' : d.month < 12 then
    { year := d.year
      month := d.month + 1
      day := 1
      month_valid := ⟨by omega, by omega⟩
      day_valid := ⟨le_refl 1, by have := daysInMonth_bounds d.year (d.month + 1); omega⟩ }
  else
    { year := d.year + 1
      month := 1
      day := 1
      month_valid := ⟨le_refl 1, by omega⟩
      day_valid := ⟨le_refl 1, by have := daysInMonth_bounds (d.year + 1) 1; omega⟩ }

/-- The day before; there is none before the year 0. -/
def previous (d : Date) : Date :=
  if h : 1 < d.day then
    { d with
      day := d.day - 1
      day_valid := ⟨by omega, by have := d.day_valid; omega⟩ }
  else if h' : 1 < d.month then
    { year := d.year
      month := d.month - 1
      day := daysInMonth d.year (d.month - 1)
      month_valid := ⟨by omega, by have := d.month_valid; omega⟩
      day_valid := ⟨by have := daysInMonth_bounds d.year (d.month - 1); omega, le_refl _⟩ }
  else
    { year := d.year - 1
      month := 12
      day := daysInMonth (d.year - 1) 12
      month_valid := ⟨by omega, le_refl 12⟩
      day_valid := ⟨by have := daysInMonth_bounds (d.year - 1) 12; omega, le_refl _⟩ }

theorem key_lt_next (d : Date) : d.key < d.next.key := by
  have hd := d.day_valid
  have hm := d.month_valid
  have hb := (daysInMonth_bounds d.year d.month).2
  unfold next
  split
  · simp only [key]; omega
  · split
    · simp only [key]; omega
    · simp only [key]; omega

/-- No date lies between a day and the day after. -/
theorem eq_of_key_between {a d : Date} (h : d.key ≤ a.key) (h' : a.key < d.next.key) :
    a = d := by
  have hd := d.day_valid
  have hm := d.month_valid
  have ha := a.day_valid
  have hma := a.month_valid
  have hda := (daysInMonth_bounds a.year a.month).2
  have hdd := (daysInMonth_bounds d.year d.month).2
  apply key_inj
  unfold next at h'
  split at h'
  · simp only [key] at h h' ⊢
    omega
  · rename_i hlast
    -- the last day of its month: a later day of the same month is not valid
    have hmonth : a.year = d.year → a.month = d.month → a.day ≤ d.day := by
      intro hy hmo
      rw [hy, hmo] at ha
      omega
    split at h'
    · simp only [key] at h h' ⊢
      by_cases hy : a.year = d.year
      · by_cases hmo : a.month = d.month
        · have := hmonth hy hmo
          omega
        · omega
      · omega
    · simp only [key] at h h' ⊢
      by_cases hy : a.year = d.year
      · by_cases hmo : a.month = d.month
        · have := hmonth hy hmo
          omega
        · omega
      · omega

end Date

/-! ## Moments -/

def microsPerDay : Nat := 86400000000

/-- A date and a time of day, in microseconds. -/
structure Moment where
  date : Date
  micros : Nat
  micros_valid : micros < microsPerDay
  deriving DecidableEq

namespace Moment

/-- Moments compare date first, then time of day. -/
def le (a b : Moment) : Bool :=
  decide (a.date.key < b.date.key) || (decide (a.date.key = b.date.key) && decide (a.micros ≤ b.micros))

def lt (a b : Moment) : Bool := !b.le a

theorem le_iff {a b : Moment} : a.le b = true ↔
    a.date.key < b.date.key ∨ (a.date.key = b.date.key ∧ a.micros ≤ b.micros) := by
  simp [le]

theorem lt_iff {a b : Moment} : a.lt b = true ↔
    a.date.key < b.date.key ∨ (a.date.key = b.date.key ∧ a.micros < b.micros) := by
  rw [lt, Bool.not_eq_true', ← Bool.not_eq_true, le_iff]
  omega

/-- The start of a date. -/
def midnight (d : Date) : Moment := ⟨d, 0, by decide⟩

/-- The moments from a midnight up to the next one are those of its date. -/
theorem sameDay_iff (a : Moment) (d : Date) :
    ((midnight d).le a && a.lt (midnight d.next)) = true ↔ a.date = d := by
  rw [Bool.and_eq_true, le_iff, lt_iff]
  simp only [midnight]
  constructor
  · intro h
    exact Date.eq_of_key_between (by omega) (by omega)
  · intro h
    subst h
    have hnext := a.date.key_lt_next
    omega

/-- The date so many days from 1970-01-01. -/
def epochDate : Int → Date
  | .ofNat days => Nat.iterate Date.next days ⟨1970, 1, 1, by decide, by decide⟩
  | .negSucc days => Nat.iterate Date.previous (days + 1) ⟨1970, 1, 1, by decide, by decide⟩

/-- The moment so many seconds from 1970-01-01. -/
def ofEpochSeconds (seconds : Int) : Moment where
  date := epochDate (seconds / 86400)
  micros := (seconds % 86400).toNat * 1000000
  micros_valid := by unfold microsPerDay; omega

/-- The moment so many milliseconds from 1970-01-01. -/
def ofEpochMillis (millis : Int) : Moment where
  date := epochDate (millis / 86400000)
  micros := (millis % 86400000).toNat * 1000
  micros_valid := by unfold microsPerDay; omega

/-- The moment so many microseconds from 1970-01-01. -/
def ofEpochMicros (micros : Int) : Moment where
  date := epochDate (micros / 86400000000)
  micros := (micros % 86400000000).toNat
  micros_valid := by unfold microsPerDay; omega

example : (ofEpochSeconds (-1)).date = ⟨1969, 12, 31, by decide, by decide⟩ ∧
    (ofEpochSeconds 5097600).date = ⟨1970, 3, 1, by decide, by decide⟩ := by
  decide +kernel

end Moment

/-! ## ISO texts -/

/-- A number in decimal, with zeros in front up to the width. -/
def padded (width n : Nat) : List Char :=
  List.replicate (width - (toString n).toList.length) '0' ++ (toString n).toList

theorem padded_inj {width m n : Nat} (h : padded width m = padded width n) : m = n := by
  have hvalue : ∀ k, Nat.ofDigitChars 10 (padded width k) 0 = k := by
    intro k
    rw [padded, Nat.ofDigitChars_append, Nat.ofDigitChars_replicate_zero]
    simp
  rw [← hvalue m, ← hvalue n, h]

theorem not_mem_padded {c : Char} (hc : c.isDigit = false) (width n : Nat) :
    c ∉ padded width n := by
  rw [padded, List.mem_append, not_or]
  refine ⟨fun h => ?_, Text.not_mem_natText hc n⟩
  rw [List.eq_of_mem_replicate h] at hc
  revert hc
  decide

/-- `date.isoformat()` -/
def Date.isoformat (d : Date) : String :=
  String.ofList (padded 4 d.year ++ '-' :: (padded 2 d.month ++ '-' :: padded 2 d.day))

theorem Date.isoformat_inj {a b : Date} (h : a.isoformat = b.isoformat) : a = b := by
  have hlist := congrArg String.toList h
  simp only [isoformat, String.toList_ofList] at hlist
  obtain ⟨hyear, hrest⟩ := Text.sep_left_inj (not_mem_padded (by decide) 4 _)
    (not_mem_padded (by decide) 4 _) hlist
  obtain ⟨hmonth, hday⟩ := Text.sep_left_inj (not_mem_padded (by decide) 2 _)
    (not_mem_padded (by decide) 2 _) hrest
  exact Date.ext_iff.mpr ⟨padded_inj hyear, padded_inj hmonth, padded_inj hday⟩

/-- An ISO date is digits and hyphens. -/
theorem Date.not_mem_isoformat {c : Char} (hc : c.isDigit = false) (hhyphen : c ≠ '-')
    (d : Date) : c ∉ d.isoformat.toList := by
  rw [isoformat, String.toList_ofList, List.mem_append, List.mem_cons, List.mem_append,
    List.mem_cons, not_or, not_or, not_or, not_or]
  exact ⟨not_mem_padded hc 4 _, hhyphen, not_mem_padded hc 2 _, hhyphen, not_mem_padded hc 2 _⟩

/-- `datetime.isoformat()` of a naive datetime: the fraction only when it is not zero. -/
def Moment.isoformat (m : Moment) : String :=
  let seconds := m.micros / 1000000
  let fraction := m.micros % 1000000
  m.date.isoformat ++ "T" ++ String.ofList
    (padded 2 (seconds / 3600) ++ ':' :: (padded 2 (seconds / 60 % 60)
      ++ ':' :: (padded 2 (seconds % 60)
        ++ if fraction = 0 then [] else '.' :: padded 6 fraction)))

example : (Moment.ofEpochMicros 5133318000).isoformat = "1970-01-01T01:25:33.318000" := by
  decide +kernel

end Kit
