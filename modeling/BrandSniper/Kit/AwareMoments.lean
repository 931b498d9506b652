import BrandSniper.Kit.Calendar
import BrandSniper.Kit.Text
import Mathlib.Tactic.IntervalCases

/-!
# Moments with an offset

What Python's `datetime` holds: a date of the years 1 to 9999, a time of the
day, and an offset from UTC of less than a day. `ofIso?` reads one from its ISO
text, as `datetime.fromisoformat` does.
-/

namespace Kit

namespace Date

/-- The days of a year before a month. -/
def daysBeforeMonth (year : Nat) : Nat → Nat
  | 0 => 0
  | 1 => 0
  | month + 2 => daysBeforeMonth year (month + 1) + daysInMonth year (month + 1)

/-- The number of a date; 0001-01-01 has the number one. -/
def ordinal (d : Date) : Nat :=
  (d.year - 1) * 365 + (d.year - 1) / 4 - (d.year - 1) / 100 + (d.year - 1) / 400
    + daysBeforeMonth d.year d.month + d.day

theorem daysBeforeMonth_le {year month : Nat} (hfirst : 1 ≤ month) (hlast : month ≤ 12) :
    daysBeforeMonth year month + daysInMonth year month ≤ if isLeap year then 366 else 365 := by
  have hfebruary : daysInMonth year 2 = if isLeap year then 29 else 28 := rfl
  interval_cases month <;> simp only [daysBeforeMonth, hfebruary] <;> split <;>
    simp [daysInMonth]

/-- The dates of the years 1 to 9999. -/
theorem ordinal_bounds {d : Date} (hfirst : 1 ≤ d.year) (hlast : d.year ≤ 9999) :
    1 ≤ d.ordinal ∧ d.ordinal ≤ 3652059 := by
  have hmonth := @daysBeforeMonth_le d.year d.month d.month_valid.1 d.month_valid.2
  have hday := d.day_valid
  rw [ordinal]
  rcases Nat.lt_or_eq_of_le hlast with hlt | heq
  · have hyear : daysBeforeMonth d.year d.month + daysInMonth d.year d.month ≤ 366 := by
      split at hmonth <;> omega
    omega
  · rw [heq, if_neg (by decide)] at hmonth
    rw [heq] at hday ⊢
    omega

end Date

/-- The first and the last second of a `datetime`. -/
def minTimestamp : Int := -62135596800

def maxTimestamp : Int := 253402300799

structure AwareMoment where
  date : Date
  /-- The second of the day. -/
  second : Nat
  offset : Int
  year_valid : 1 ≤ date.year ∧ date.year ≤ 9999
  second_valid : second < 86400
  offset_valid : -86400 < offset ∧ offset < 86400

namespace AwareMoment

/-- `int(moment.timestamp())` -/
def timestamp (m : AwareMoment) : Int := (m.date.ordinal - 719163) * 86400 + m.second - m.offset

theorem local_bounds (m : AwareMoment) :
    minTimestamp ≤ m.timestamp + m.offset ∧ m.timestamp + m.offset ≤ maxTimestamp := by
  have hdate := Date.ordinal_bounds m.year_valid.1 m.year_valid.2
  have hsecond := m.second_valid
  rw [timestamp, minTimestamp, maxTimestamp]
  omega

/-- The number in a part of a text. -/
def numberAt (cs : List Char) (start count : Nat) : Option Nat :=
  Text.natOfText? ((cs.drop start).take count)

/-- `+hh:mm`, in seconds. -/
def zoneOffset? : List Char → Option Int
  | [] => none
  | sign :: rest =>
      match numberAt rest 0 2, numberAt rest 3 2 with
      | some hours, some minutes =>
          if sign = '-' then some (-(hours * 3600 + minutes * 60 : Nat))
          else some (hours * 3600 + minutes * 60 : Nat)
      | _, _ => none

/-- `hh:mm:ss`, in seconds. -/
def secondOfDay? (cs : List Char) : Option Nat :=
  match numberAt cs 0 2, numberAt cs 3 2, numberAt cs 6 2 with
  | some hour, some minute, some second =>
      if hour < 24 ∧ minute < 60 ∧ second < 60 then some (hour * 3600 + minute * 60 + second)
      else none
  | _, _, _ => none

/-- `yyyy-mm-dd` -/
def date? (cs : List Char) : Option Date :=
  match numberAt cs 0 4, numberAt cs 5 2, numberAt cs 8 2 with
  | some year, some month, some day =>
      if h : (1 ≤ month ∧ month ≤ 12) ∧ 1 ≤ day ∧ day ≤ daysInMonth year month then
        some ⟨year, month, day, h.1, h.2⟩
      else none
  | _, _, _ => none

/-- `datetime.fromisoformat`, of `yyyy-mm-ddThh:mm:ss` and a zone. -/
def ofIso? (whole zone : List Char) : Option AwareMoment :=
  match date? whole, secondOfDay? (whole.drop 11), zoneOffset? zone with
  | some date, some second, some offset =>
      if h : (1 ≤ date.year ∧ date.year ≤ 9999) ∧ second < 86400 ∧ -86400 < offset ∧ offset < 86400 then
        some ⟨date, second, offset, h.1, h.2.1, h.2.2⟩
      else none
  | _, _, _ => none

end AwareMoment

end Kit
