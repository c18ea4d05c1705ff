import Mathlib.Algebra.BigOperators.Field
import Mathlib.Algebra.BigOperators.Fin
import Mathlib.Algebra.Order.BigOperators.Group.Finset
import Mathlib.Algebra.Order.Field.Basic
import Mathlib.Tactic.Linarith
import Mathlib.Tactic.Ring
import MybipedalDeploy.Library.Clamp

/-!
# Quadratic programs over a box

Where the matrix is a positive multiple of the identity, the minimiser is the
unconstrained one cut to the box, coordinate by coordinate.
-/

namespace MybipedalDeploy.BoxProgram
open Clamp (clamp)

variable {K : Type*} [Field K] {n : ℕ}

def objective (H : Fin n → Fin n → K) (g x : Fin n → K) : K :=
  (∑ i, ∑ j, x i * H i j * x j) / ((2 : ℕ) : K) + ∑ i, g i * x i

def scaled (h : K) : Fin n → Fin n → K := fun i j => if i = j then h else 0

theorem objective_scaled (h : K) (g x : Fin n → K) :
    objective (scaled h) g x = ∑ i, (h * (x i * x i) / 2 + g i * x i) := by
  unfold objective
  rw [Nat.cast_ofNat, Finset.sum_add_distrib, Finset.sum_div]
  refine congrArg (· + _) ?_
  refine Finset.sum_congr rfl fun i _ => ?_
  rw [Finset.sum_eq_single i]
  · simp only [scaled, if_true]
    ring
  · intro j _ hj
    simp [scaled, hj.symm]
  · simp

variable [LinearOrder K]

def InBox (lb ub x : Fin n → K) : Prop := ∀ i, lb i ≤ x i ∧ x i ≤ ub i

def IsMinimiser (H : Fin n → Fin n → K) (g lb ub x : Fin n → K) : Prop :=
  InBox lb ub x ∧ ∀ y, InBox lb ub y → objective H g x ≤ objective H g y

variable [IsStrictOrderedRing K]

/-- On one coordinate: the cut point is better than any other by the square of the
distance at least. -/
theorem clamp_optimal {h g lb ub y : K} (hpos : 0 < h) (hlb : lb ≤ y) (hub : y ≤ ub) :
    let x := clamp lb ub (-g / h)
    h * (x * x) / 2 + g * x + h * ((y - x) * (y - x)) / 2 ≤ h * (y * y) / 2 + g * y := by
  intro x
  have hslope : 0 ≤ (y - x) * (h * x + g) := by
    have hzero : h * (-g / h) = -g := mul_div_cancel₀ _ hpos.ne'
    rcases le_total (-g / h) lb with hlow | hlow
    · have hx : x = lb := Clamp.clamp_of_le hlow
      have hrise := mul_le_mul_of_nonneg_left hlow hpos.le
      rw [hx]
      exact mul_nonneg (by linarith) (by linarith)
    · rcases le_total (-g / h) ub with hhigh | hhigh
      · have hx : x = -g / h := Clamp.clamp_eq_self hlow hhigh
        rw [hx, hzero]
        simp
      · have hx : x = ub := Clamp.clamp_of_ge (hlb.trans hub) hhigh
        have hfall := mul_le_mul_of_nonneg_left hhigh hpos.le
        rw [hx]
        exact mul_nonneg_of_nonpos_of_nonpos (by linarith) (by linarith)
  have hexpand : h * (y * y) / 2 + g * y =
      h * (x * x) / 2 + g * x + h * ((y - x) * (y - x)) / 2 + (y - x) * (h * x + g) := by
    ring
  linarith

theorem isMinimiser_iff {h : K} (hpos : 0 < h) {g lb ub x : Fin n → K} (hbox : ∀ i, lb i ≤ ub i) :
    IsMinimiser (scaled h) g lb ub x ↔ x = fun i => clamp (lb i) (ub i) (-g i / h) := by
  have hc : InBox lb ub fun i => clamp (lb i) (ub i) (-g i / h) :=
    fun i => ⟨Clamp.le_clamp, Clamp.clamp_le (hbox i)⟩
  have hbest : ∀ y, InBox lb ub y →
      objective (scaled h) g (fun i => clamp (lb i) (ub i) (-g i / h)) +
        ∑ i, h * ((y i - clamp (lb i) (ub i) (-g i / h)) *
          (y i - clamp (lb i) (ub i) (-g i / h))) / 2 ≤ objective (scaled h) g y := by
    intro y hy
    rw [objective_scaled, objective_scaled, ← Finset.sum_add_distrib]
    exact Finset.sum_le_sum fun i _ => clamp_optimal hpos (hy i).1 (hy i).2
  have hnonneg : ∀ a : K, 0 ≤ h * (a * a) / 2 := fun a =>
    div_nonneg (mul_nonneg hpos.le (mul_self_nonneg a)) zero_le_two
  constructor
  · rintro ⟨hx, hmin⟩
    have hsum := Finset.sum_nonneg fun i (_ : i ∈ Finset.univ) =>
      hnonneg (x i - clamp (lb i) (ub i) (-g i / h))
    have hzero := le_antisymm (by linarith [hbest x hx, hmin _ hc]) hsum
    funext i
    have hi := (Finset.sum_eq_zero_iff_of_nonneg fun i _ => hnonneg _).mp hzero i (Finset.mem_univ i)
    have hsquare : (x i - clamp (lb i) (ub i) (-g i / h)) *
        (x i - clamp (lb i) (ub i) (-g i / h)) = 0 := by
      simpa [hpos.ne'] using hi
    exact sub_eq_zero.mp (mul_self_eq_zero.mp hsquare)
  · rintro rfl
    refine ⟨hc, fun y hy => ?_⟩
    have hsum := Finset.sum_nonneg fun i (_ : i ∈ Finset.univ) =>
      hnonneg (y i - clamp (lb i) (ub i) (-g i / h))
    linarith [hbest y hy]

end MybipedalDeploy.BoxProgram
