import Mathlib.Algebra.Order.Field.Basic
import Mathlib.Analysis.Complex.Norm
import Mathlib.Analysis.Real.Sqrt
import Mathlib.Analysis.SpecificLimits.Basic
import Mathlib.Tactic.LinearCombination

/-!
# Recurrences of the second order with complex poles

Of `y` and the value before it a quadratic form is multiplied by the constant coefficient
at every step without input. Where the poles are complex the form is definite and bounds
the values; an input adds to it no more than a multiple of its square.
-/

namespace MybipedalDeploy.SecondOrder

section Field
variable {K : Type*} [Field K] (a b : K)

/-- The next value of `y'' = a y' - b y + u`. -/
def next (y₁ y₀ u : K) : K := a * y₁ - b * y₀ + u

def energy (y₁ y₀ : K) : K := y₁ * y₁ - a * y₁ * y₀ + b * (y₀ * y₀)

theorem energy_next_free (y₁ y₀ : K) :
    energy a b (next a b y₁ y₀ 0) y₁ = b * energy a b y₁ y₀ := by
  unfold energy next
  ring

variable {a b} [LinearOrder K] [IsStrictOrderedRing K]

theorem mul_le_weighted {ε : K} (hε : 0 < ε) (u w : K) : u * w ≤ ε / 4 * (w * w) + u * u / ε := by
  have hscaled : ε * (u * w) ≤ ε * (ε / 4 * (w * w) + u * u / ε) := by
    rw [mul_add, mul_div_cancel₀ _ hε.ne']
    linarith [mul_self_nonneg (ε * w / 2 - u)]
  exact le_of_mul_le_mul_left hscaled hε

theorem exists_energy_bound (hstable : b < 1) (E U : K) :
    ∃ M, E ≤ M ∧ (1 + b) / (1 - b) * (U * U) ≤ (1 - b) / 2 * M := by
  have hgap : 0 < (1 - b) / 2 := half_pos (sub_pos.mpr hstable)
  refine ⟨max E ((1 + b) / (1 - b) * (U * U) / ((1 - b) / 2)), le_max_left _ _, ?_⟩
  rw [mul_comm ((1 - b) / 2), ← div_le_iff₀ hgap]
  exact le_max_right _ _

variable (hosc : a * a < 4 * b)
include hosc

theorem coeff_pos : 0 < b := by
  nlinarith [mul_self_nonneg a]

theorem mul_self_le_energy (y₁ y₀ : K) :
    y₁ * y₁ ≤ 4 * b / (4 * b - a * a) * energy a b y₁ y₀ := by
  have hpos : 0 < 4 * b - a * a := sub_pos.mpr hosc
  have hsquare : 4 * b * energy a b y₁ y₀ =
      (2 * b * y₀ - a * y₁) * (2 * b * y₀ - a * y₁) + (4 * b - a * a) * (y₁ * y₁) := by
    unfold energy
    ring
  rw [div_mul_eq_mul_div, le_div_iff₀ hpos]
  linarith [mul_self_nonneg (2 * b * y₀ - a * y₁)]

/-- One step with an input: the form shrinks, but for the square of the input. -/
theorem energy_next_le (hstable : b < 1) (y₁ y₀ u : K) :
    energy a b (next a b y₁ y₀ u) y₁ ≤
      (1 + b) / 2 * energy a b y₁ y₀ + (1 + b) / (1 - b) * (u * u) := by
  have hb := coeff_pos hosc
  have hgap : 0 < 1 - b := sub_pos.mpr hstable
  have hfree := energy_next_free a b y₁ y₀
  have hstep : energy a b (next a b y₁ y₀ u) y₁ = energy a b (next a b y₁ y₀ 0) y₁ +
      u * (2 * next a b y₁ y₀ 0 - a * y₁) + u * u := by
    unfold energy next
    ring
  -- the part that is linear in the input, by the form before it
  have hlinear : (2 * next a b y₁ y₀ 0 - a * y₁) * (2 * next a b y₁ y₀ 0 - a * y₁) ≤
      4 * (b * energy a b y₁ y₀) := by
    have hdef := mul_nonneg (sub_nonneg.mpr hosc.le) (mul_self_nonneg y₁)
    have hsquare : 4 * energy a b (next a b y₁ y₀ 0) y₁ =
        (2 * next a b y₁ y₀ 0 - a * y₁) * (2 * next a b y₁ y₀ 0 - a * y₁) +
          (4 * b - a * a) * (y₁ * y₁) := by
      unfold energy
      ring
    rw [hfree] at hsquare
    linarith
  have hmixed : u * (2 * next a b y₁ y₀ 0 - a * y₁) ≤
      (1 - b) / 2 * energy a b y₁ y₀ + 2 * b / (1 - b) * (u * u) := by
    have hε : 0 < (1 - b) / (2 * b) := by positivity
    have hscaled := mul_le_mul_of_nonneg_left hlinear (by positivity : 0 ≤ (1 - b) / (2 * b) / 4)
    refine (mul_le_weighted hε u _).trans ?_
    have henergy : (1 - b) / (2 * b) / 4 * (4 * (b * energy a b y₁ y₀)) =
        (1 - b) / 2 * energy a b y₁ y₀ := by
      field_simp
    have hinput : u * u / ((1 - b) / (2 * b)) = 2 * b / (1 - b) * (u * u) := by
      field_simp
    linarith
  have hsum : (1 + b) / (1 - b) * (u * u) = 2 * b / (1 - b) * (u * u) + u * u := by
    field_simp
    ring
  rw [hstep, hfree, hsum]
  linarith

theorem energy_next_le_of_le (hstable : b < 1) {y₁ y₀ u U M : K} (hu : u * u ≤ U * U)
    (hM : (1 + b) / (1 - b) * (U * U) ≤ (1 - b) / 2 * M) (hy : energy a b y₁ y₀ ≤ M) :
    energy a b (next a b y₁ y₀ u) y₁ ≤ M := by
  have hb := coeff_pos hosc
  have hgap : 0 < 1 - b := sub_pos.mpr hstable
  have hstep := energy_next_le hosc hstable y₁ y₀ u
  have hshrunk := mul_le_mul_of_nonneg_left hy (by positivity : 0 ≤ (1 + b) / 2)
  have hinput := mul_le_mul_of_nonneg_left hu (by positivity : 0 ≤ (1 + b) / (1 - b))
  linarith

end Field

section Real
variable {a b : ℝ} (hosc : a * a < 4 * b) (hstable : b < 1)
include hosc hstable

theorem norm_pole_lt_one {z : ℂ} (hz : z * z = a * z - b) : ‖z‖ < 1 := by
  have hre := congrArg Complex.re hz
  have him := congrArg Complex.im hz
  simp only [Complex.mul_re, Complex.mul_im, Complex.sub_re, Complex.sub_im, Complex.ofReal_re,
    Complex.ofReal_im] at hre him
  have hnorm : Complex.normSq z = b := by
    rw [Complex.normSq_apply]
    -- a real pole would make the discriminant a square
    have hdouble : z.im * (2 * z.re - a) = 0 := by linarith
    rcases mul_eq_zero.mp hdouble with hreal | hhalf
    · rw [hreal] at hre
      linarith [mul_self_nonneg (2 * z.re - a)]
    · have hz : z.re * (2 * z.re - a) = 0 := by rw [hhalf, mul_zero]
      linarith
  have hsq : ‖z‖ ^ 2 < 1 := by
    rw [← Complex.normSq_eq_norm_sq, hnorm]
    exact hstable
  exact (sq_lt_one_iff₀ (norm_nonneg z)).mp hsq

theorem tendsto_zero {e : ℕ → ℝ} (he : ∀ n, e (n + 2) = next a b (e (n + 1)) (e n) 0) :
    Filter.Tendsto e Filter.atTop (nhds 0) := by
  have hb := coeff_pos hosc
  have henergy : ∀ n, energy a b (e (n + 1)) (e n) = b ^ n * energy a b (e 1) (e 0) := by
    intro n
    induction n with
    | zero => simp
    | succ n ih => rw [he n, energy_next_free, ih, pow_succ]; ring
  have hpow : Filter.Tendsto (fun n => b ^ n) Filter.atTop (nhds 0) :=
    tendsto_pow_atTop_nhds_zero_of_lt_one hb.le hstable
  have hsquare : Filter.Tendsto (fun n => e (n + 1) * e (n + 1)) Filter.atTop (nhds 0) := by
    have hbound := (hpow.mul_const (energy a b (e 1) (e 0))).const_mul (4 * b / (4 * b - a * a))
    rw [zero_mul, mul_zero] at hbound
    refine squeeze_zero (fun n => mul_self_nonneg _) (fun n => ?_) hbound
    rw [← henergy n]
    exact mul_self_le_energy hosc _ _
  have habs : Filter.Tendsto (fun n => |e (n + 1)|) Filter.atTop (nhds 0) := by
    have hsqrt := (Real.continuous_sqrt.tendsto 0).comp hsquare
    simpa [Function.comp_def, Real.sqrt_mul_self_eq_abs] using hsqrt
  exact (Filter.tendsto_add_atTop_iff_nat 1).mp ((tendsto_zero_iff_abs_tendsto_zero _).mpr habs)

end Real
end MybipedalDeploy.SecondOrder
