import Mathlib.Algebra.Order.Floor.Ring
import Mathlib.Tactic.Linarith
import Mathlib.Tactic.Positivity
import Mathlib.Tactic.Ring

/-!
# The fractional part towards zero

The fractional part of a number with the sign of the number, and the phase that a
counter of equal steps keeps by it.
-/

namespace MybipedalDeploy.FractionalPart

variable {K : Type*} [Field K] [LinearOrder K] [FloorRing K]

def frac (x : K) : K := if 0 ≤ x then Int.fract x else -Int.fract (-x)

theorem frac_of_nonneg {x : K} (h : 0 ≤ x) : frac x = Int.fract x := if_pos h

variable [IsStrictOrderedRing K]

theorem frac_zero : frac (0 : K) = 0 := (frac_of_nonneg le_rfl).trans Int.fract_zero

theorem frac_neg (x : K) : frac (-x) = -frac x := by
  rcases lt_trichotomy x 0 with h | rfl | h
  · rw [frac_of_nonneg (by linarith), frac, if_neg (not_le.mpr h), neg_neg]
  · rw [neg_zero, frac_zero, neg_zero]
  · rw [frac_of_nonneg h.le, frac, if_neg (by linarith), neg_neg]

theorem fract_fract_add (x y : K) : Int.fract (Int.fract x + y) = Int.fract (x + y) := by
  apply Int.fract_eq_fract.mpr
  refine ⟨-⌊x⌋, ?_⟩
  have hx := Int.floor_add_fract x
  push_cast
  linarith

theorem frac_step (n : ℕ) (step : K) :
    frac (frac (n * step) + step) = frac ((n + 1 : ℕ) * step) := by
  have hforward : ∀ s : K, 0 ≤ s → frac (frac (n * s) + s) = frac ((n + 1 : ℕ) * s) := by
    intro s hs
    have hns : 0 ≤ (n : K) * s := by positivity
    have hsum : (n : K) * s + s = (n + 1 : ℕ) * s := by
      push_cast
      ring
    have hpart : 0 ≤ Int.fract ((n : K) * s) + s := add_nonneg (Int.fract_nonneg _) hs
    rw [frac_of_nonneg hns, frac_of_nonneg hpart, fract_fract_add, hsum,
      frac_of_nonneg (by positivity)]
  rcases le_total 0 step with h | h
  · exact hforward step h
  · have hback := hforward (-step) (by linarith)
    rw [mul_neg, frac_neg, ← neg_add, frac_neg, mul_neg, frac_neg] at hback
    exact neg_injective hback

end MybipedalDeploy.FractionalPart
