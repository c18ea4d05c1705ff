import MybipedalDeploy.Control.LowPass

/-!
# How far the filter overshoots

A filter that starts at rest within a bound and whose inputs stay within it gives outputs
within a multiple of it. For tunings up to two radians a sample the factor does not
depend on the tuning.
-/

namespace MybipedalDeploy.Control
namespace DigitalLpFilter
open SecondOrder (energy)

noncomputable def overshoot (wc ts : ℝ) : ℝ :=
  max (((11 : ℕ) : ℝ) / ((5 : ℕ) : ℝ)) (wc * ts * (wc * ts))

noncomputable def ceiling (wc ts C : ℝ) : ℝ :=
  (1 + -(new wc ts).lpfOut2) / (1 - -(new wc ts).lpfOut2) *
    ((new wc ts).inputGain * C * ((new wc ts).inputGain * C)) /
    ((1 - -(new wc ts).lpfOut2) / ((2 : ℕ) : ℝ))

theorem overshoot_eq (wc ts : ℝ) : overshoot wc ts = max (11 / 5) (wc * ts * (wc * ts)) := by
  simp only [overshoot, Nat.cast_ofNat]

theorem overshoot_nonneg (wc ts : ℝ) : 0 ≤ overshoot wc ts := by
  rw [overshoot_eq]
  exact (by norm_num : (0 : ℝ) ≤ 11 / 5).trans (le_max_left _ _)

theorem quartic_le_overshoot {wc ts : ℝ} (h : 0 < wc * ts) :
    400000000 * ((2500 * (wc * ts * (wc * ts)) - 7071 * (wc * ts) + 10000) *
      (10000 * (wc * ts * (wc * ts)) + 40000)) ≤
        39999999985285104 * (overshoot wc ts * overshoot wc ts) := by
  rw [overshoot_eq]
  generalize wc * ts = τ at h
  have hsquare : 0 < τ * τ := mul_pos h h
  rcases le_total τ 2 with hle | hge
  · have hfactor : (11 / 5 : ℝ) * (11 / 5) ≤ max (11 / 5) (τ * τ) * max (11 / 5) (τ * τ) :=
      mul_self_le_mul_self (by norm_num) (le_max_left _ _)
    have hquartic : (2500 * (τ * τ) - 7071 * τ + 10000) * (10000 * (τ * τ) + 40000) ≤
        483999999 := by
      nlinarith [mul_nonneg h.le (sub_nonneg.mpr hle), mul_nonneg hsquare.le (sub_nonneg.mpr hle),
        mul_nonneg h.le (sq_nonneg (τ - 1))]
    linarith
  · have hfactor : τ * τ * (τ * τ) ≤ max (11 / 5) (τ * τ) * max (11 / 5) (τ * τ) :=
      mul_self_le_mul_self hsquare.le (le_max_right _ _)
    have hquadratic : 2500 * (τ * τ) - 7071 * τ + 10000 ≤ 2500 * (τ * τ) := by linarith
    have hfour : 10000 * (τ * τ) + 40000 ≤ 20000 * (τ * τ) := by
      linarith [mul_self_le_mul_self zero_le_two hge]
    have hquartic := mul_le_mul hquadratic hfour (by positivity) (by positivity)
    linarith [mul_self_nonneg (τ * τ)]

section Overshoot
variable {wc ts C : ℝ} (hwc : 0 < wc) (hts : 0 < ts)
include hwc hts

theorem one_sub_eq : 1 - -(new wc ts).lpfOut2 = 14142 * (wc * ts) / den wc ts := by
  have hden := (den_pos hwc hts).ne'
  have hnew : Tuned wc ts (new wc ts) := rfl
  rw [hnew.values.2.2.2.2]
  field_simp
  unfold den
  ring

theorem one_add_eq : 1 + -(new wc ts).lpfOut2 =
    (5000 * (wc * ts * (wc * ts)) + 20000) / den wc ts := by
  have hden := (den_pos hwc hts).ne'
  have hnew : Tuned wc ts (new wc ts) := rfl
  rw [hnew.values.2.2.2.2]
  field_simp
  unfold den
  ring

theorem inputGain_eq : (new wc ts).inputGain = 10000 * (wc * ts * (wc * ts)) / den wc ts := by
  have hden := (den_pos hwc hts).ne'
  have hnew : Tuned wc ts (new wc ts) := rfl
  obtain ⟨hin1, hin2, hin3, -⟩ := hnew.values
  rw [inputGain, hin1, hin2, hin3]
  field_simp
  ring

theorem ceiling_eq : ceiling wc ts C = 100000000 * (wc * ts * (wc * ts)) *
    (10000 * (wc * ts * (wc * ts)) + 40000) / (199996164 * den wc ts) * (C * C) := by
  have hden := (den_pos hwc hts).ne'
  have hpos := (mul_pos hwc hts).ne'
  rw [ceiling, Nat.cast_ofNat, one_add_eq hwc hts, one_sub_eq hwc hts, inputGain_eq hwc hts]
  field_simp
  ring

theorem energy_self_le {x : ℝ} (hx : |x| ≤ C) :
    energy (new wc ts).lpfOut1 (-(new wc ts).lpfOut2) x x ≤ ceiling wc ts C := by
  have hden := den_pos hwc hts
  have hpos := mul_pos hwc hts
  have hnew : Tuned wc ts (new wc ts) := rfl
  have hsum := hnew.sum_eq_one hwc hts
  have hgain : energy (new wc ts).lpfOut1 (-(new wc ts).lpfOut2) x x =
      (new wc ts).inputGain * (x * x) := by
    unfold energy inputGain
    linear_combination x * x * -hsum
  have hsquare : x * x ≤ C * C := by
    rw [← abs_mul_abs_self x]
    exact mul_self_le_mul_self (abs_nonneg x) hx
  have hle : (new wc ts).inputGain ≤ 100000000 * (wc * ts * (wc * ts)) *
      (10000 * (wc * ts * (wc * ts)) + 40000) / (199996164 * den wc ts) := by
    rw [inputGain_eq hwc hts, div_le_div_iff₀ hden (by positivity)]
    have hnonneg : 0 ≤ wc * ts * (wc * ts) * (wc * ts * (wc * ts)) * den wc ts := by positivity
    have hnonneg' : 0 ≤ wc * ts * (wc * ts) * den wc ts := by positivity
    linarith
  rw [hgain, ceiling_eq hwc hts]
  exact mul_le_mul hle hsquare (mul_self_nonneg x) (by positivity)

theorem Within.abs_output_le (hC : 0 ≤ C) {g : DigitalLpFilter ℝ}
    (hg : Within wc ts C (ceiling wc ts C) g) : |g.lpfOutPrev0| ≤ overshoot wc ts * C := by
  have hnew : Tuned wc ts (new wc ts) := rfl
  have hosc := hnew.oscillating hwc hts
  have hden := den_pos hwc hts
  have hpos := mul_pos hwc hts
  have hfactor : 4 * -(new wc ts).lpfOut2 /
      (4 * -(new wc ts).lpfOut2 - (new wc ts).lpfOut1 * (new wc ts).lpfOut1) * ceiling wc ts C =
        400000000 * ((2500 * (wc * ts * (wc * ts)) - 7071 * (wc * ts) + 10000) *
          (10000 * (wc * ts * (wc * ts)) + 40000)) / 39999999985285104 * (C * C) := by
    have hgap : 4 * -(new wc ts).lpfOut2 - (new wc ts).lpfOut1 * (new wc ts).lpfOut1 =
        200003836 * (wc * ts * (wc * ts)) / (den wc ts * den wc ts) := by
      rw [hnew.values.2.2.2.1, hnew.values.2.2.2.2]
      field_simp
      unfold den
      ring
    rw [hgap, ceiling_eq hwc hts, hnew.values.2.2.2.2]
    field_simp
    ring
  have hsquare := (SecondOrder.mul_self_le_energy hosc g.lpfOutPrev0 g.lpfOutPrev1).trans
    (mul_le_mul_of_nonneg_left hg.form
      (div_nonneg (by linarith [SecondOrder.coeff_pos hosc]) (sub_nonneg.mpr hosc.le)))
  rw [hfactor] at hsquare
  have hquartic := quartic_le_overshoot hpos
  have hbound : 400000000 * ((2500 * (wc * ts * (wc * ts)) - 7071 * (wc * ts) + 10000) *
      (10000 * (wc * ts * (wc * ts)) + 40000)) / 39999999985285104 * (C * C) ≤
        overshoot wc ts * C * (overshoot wc ts * C) := by
    rw [mul_mul_mul_comm (overshoot wc ts)]
    refine mul_le_mul_of_nonneg_right ?_ (mul_self_nonneg C)
    rw [div_le_iff₀ (by norm_num)]
    linarith
  exact abs_le_of_sq_le_sq (by linarith) (mul_nonneg (overshoot_nonneg wc ts) hC)

theorem Within.step {g : DigitalLpFilter ℝ} (hg : Within wc ts C (ceiling wc ts C) g) {u : ℝ}
    (hu : |u| ≤ C) : Within wc ts C (ceiling wc ts C) (g.input u) := by
  have hnew : Tuned wc ts (new wc ts) := rfl
  refine hg.input hwc hts hu le_rfl (le_of_eq ?_)
  have hstable := sub_pos.mpr (hnew.stable hwc hts)
  rw [ceiling, Nat.cast_ofNat, mul_div_cancel₀ _ (half_pos hstable).ne']

theorem Within.init {g : DigitalLpFilter ℝ} (hg : Within wc ts C (ceiling wc ts C) g) {x : ℝ}
    (hx : |x| ≤ C) : Within wc ts C (ceiling wc ts C) (g.init x) :=
  ⟨hg.tuned.init x, hx, hx, energy_self_le hwc hts hx⟩

theorem within_new (hC : 0 ≤ C) : Within wc ts C (ceiling wc ts C) (new wc ts) := by
  have hzero : |(0 : ℝ)| ≤ C := by rwa [abs_zero]
  exact ⟨rfl, hzero, hzero, energy_self_le hwc hts hzero⟩

end Overshoot
end DigitalLpFilter
end MybipedalDeploy.Control
