import Mathlib.Algebra.Order.Field.Basic
import Mathlib.Data.Finset.Max
import Mathlib.Tactic.Linarith

/-!
# Rounding to a finite grid

A grid is a finite set of points of an ordered field, with a rule that picks a
nearest point for every number. How the rule breaks ties is left open.

Comparing a point with a number is comparing it with a point: with the rounded
number if that is not above the number, and otherwise with the point below it.
-/

namespace Kit

/-- The points, and a nearest one for every number. -/
structure NearestGrid (K : Type) [Field K] [LinearOrder K] where
  points : Finset K
  round : K → K
  round_mem : ∀ t, round t ∈ points
  nearest : ∀ t, ∀ x ∈ points, |t - round t| ≤ |t - x|

namespace NearestGrid

variable {K : Type} [Field K] [LinearOrder K]

/-- The greatest point below a bound; `⊥` if there is none. -/
def below (grid : NearestGrid K) (bound : WithBot K) : WithBot K :=
  (grid.points.filter fun x : K => (x : WithBot K) < bound).max

theorem le_below_iff (grid : NearestGrid K) {bound : WithBot K} {x : K} (hx : x ∈ grid.points) :
    (x : WithBot K) ≤ grid.below bound ↔ (x : WithBot K) < bound := by
  constructor
  · intro h
    cases hbelow : grid.below bound with
    | bot =>
        rw [hbelow, WithBot.le_bot_iff] at h
        exact absurd h (WithBot.coe_ne_bot)
    | coe y =>
        rw [hbelow] at h
        have hy := Finset.mem_of_max hbelow
        exact h.trans_lt (Finset.mem_filter.mp hy).2
  · intro h
    exact Finset.le_max (Finset.mem_filter.mpr ⟨hx, h⟩)

variable [IsStrictOrderedRing K] (grid : NearestGrid K) {t x : K}

/-- No point lies between a number and its rounding. -/
theorem not_between (hx : x ∈ grid.points) :
    ¬ (grid.round t < x ∧ x ≤ t) ∧ ¬ (t ≤ x ∧ x < grid.round t) := by
  have hnearest := grid.nearest t x hx
  constructor
  · rintro ⟨hlow, hhigh⟩
    rw [abs_of_nonneg (by linarith), abs_of_nonneg (by linarith)] at hnearest
    linarith
  · rintro ⟨hlow, hhigh⟩
    rw [abs_of_nonpos (by linarith), abs_of_nonpos (by linarith)] at hnearest
    linarith

theorem le_round_iff (hround : grid.round t ≤ t) (hx : x ∈ grid.points) :
    x ≤ grid.round t ↔ x ≤ t := by
  refine ⟨fun h => h.trans hround, fun h => ?_⟩
  by_contra hlt
  exact (grid.not_between hx).1 ⟨not_le.mp hlt, h⟩

theorem lt_round_iff (hround : t < grid.round t) (hx : x ∈ grid.points) :
    x < grid.round t ↔ x ≤ t := by
  refine ⟨fun h => ?_, fun h => h.trans_lt hround⟩
  by_contra hlt
  exact (grid.not_between hx).2 ⟨(not_le.mp hlt).le, h⟩

end NearestGrid

end Kit
