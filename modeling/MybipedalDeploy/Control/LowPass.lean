import MybipedalDeploy.Control.RLController
import MybipedalDeploy.Library.Runs
import MybipedalDeploy.Library.SecondOrder

/-!
# The low pass filter of the actions

For every tuning the filter is a recurrence of the second order with complex poles
inside the unit circle, and the weights of the inputs and the outputs sum to one.
-/

namespace MybipedalDeploy.Control
namespace DigitalLpFilter
open SecondOrder (energy next)

section Coefficients
variable {K : Type*} [Field K]

def coefficients (f : DigitalLpFilter K) : Fin 5 → K :=
  ![f.lpfIn1, f.lpfIn2, f.lpfIn3, f.lpfOut1, f.lpfOut2]

def Tuned (wc ts : K) (f : DigitalLpFilter K) : Prop := f.coefficients = (new wc ts).coefficients

theorem Tuned.input {wc ts : K} {f : DigitalLpFilter K} (h : Tuned wc ts f) (x : K) :
    Tuned wc ts (f.input x) := h

theorem Tuned.init {wc ts : K} {f : DigitalLpFilter K} (h : Tuned wc ts f) (x : K) :
    Tuned wc ts (f.init x) := h

theorem Tuned.values {wc ts : K} {f : DigitalLpFilter K} (h : Tuned wc ts f) :
    f.lpfIn1 = 2500 * ts * ts * wc * wc / den wc ts ∧
      f.lpfIn2 = 5000 * ts * ts * wc * wc / den wc ts ∧
      f.lpfIn3 = 2500 * ts * ts * wc * wc / den wc ts ∧
      f.lpfOut1 = -(5000 * ts * ts * wc * wc - 20000) / den wc ts ∧
      f.lpfOut2 = -(2500 * ts * ts * wc * wc - 7071 * ts * wc + 10000) / den wc ts :=
  ⟨congrFun h 0, congrFun h 1, congrFun h 2, congrFun h 3, congrFun h 4⟩

def drive (f : DigitalLpFilter K) (x : K) : K :=
  f.lpfIn1 * x + f.lpfIn2 * f.lpfInPrev0 + f.lpfIn3 * f.lpfInPrev1

theorem lpfOut_input (f : DigitalLpFilter K) (x : K) :
    (f.input x).lpfOut = next f.lpfOut1 (-f.lpfOut2) f.lpfOutPrev0 f.lpfOutPrev1 (f.drive x) := by
  simp only [DigitalLpFilter.input, next, drive]
  ring

def inputGain (f : DigitalLpFilter K) : K := f.lpfIn1 + f.lpfIn2 + f.lpfIn3

variable {wc ts : K} [LinearOrder K] [IsStrictOrderedRing K] (hwc : 0 < wc) (hts : 0 < ts)
include hwc hts

theorem den_pos : 0 < den wc ts := by
  unfold den
  positivity

namespace Tuned
variable {f : DigitalLpFilter K} (h : Tuned wc ts f)
include h

/-- The gain for a constant input is one. -/
theorem sum_eq_one : f.lpfIn1 + f.lpfIn2 + f.lpfIn3 + f.lpfOut1 + f.lpfOut2 = 1 := by
  have hden := den_pos hwc hts
  obtain ⟨hin1, hin2, hin3, hout1, hout2⟩ := h.values
  rw [hin1, hin2, hin3, hout1, hout2, ← add_div, ← add_div, ← add_div, ← add_div,
    div_eq_one_iff_eq hden.ne', den]
  ring

theorem stable : -f.lpfOut2 < 1 := by
  have hden := den_pos hwc hts
  have hpos : 0 < ts * wc := mul_pos hts hwc
  rw [h.values.2.2.2.2, ← neg_div, div_lt_one hden, den]
  linarith

/-- The discriminant is negative: the factor 7071 is less than a half of the root of two. -/
theorem oscillating : f.lpfOut1 * f.lpfOut1 < 4 * -f.lpfOut2 := by
  have hden := den_pos hwc hts
  have hpos : 0 < ts * wc * (ts * wc) := mul_pos (mul_pos hts hwc) (mul_pos hts hwc)
  have hgap : 4 * -f.lpfOut2 - f.lpfOut1 * f.lpfOut1 =
      200003836 * (ts * wc * (ts * wc)) / (den wc ts * den wc ts) := by
    rw [h.values.2.2.2.1, h.values.2.2.2.2]
    field_simp
    unfold den
    ring
  have hquotient := div_pos (mul_pos (by norm_num : (0 : K) < 200003836) hpos) (mul_pos hden hden)
  linarith

theorem inputs_pos : 0 < f.lpfIn1 ∧ 0 < f.lpfIn2 ∧ 0 < f.lpfIn3 := by
  have hden := den_pos hwc hts
  obtain ⟨hin1, hin2, hin3, -⟩ := h.values
  rw [hin1, hin2, hin3]
  exact ⟨by positivity, by positivity, by positivity⟩

theorem input_settled {x : K} (hin : f.lpfInPrev0 = x ∧ f.lpfInPrev1 = x)
    (hout : f.lpfOutPrev0 = x ∧ f.lpfOutPrev1 = x) : (f.input x).lpfOut = x := by
  have hsum := h.sum_eq_one hwc hts
  simp only [DigitalLpFilter.input, hin, hout]
  linear_combination x * hsum

end Tuned

theorem settled_init (x : K) (n : ℕ) :
    let g := (fun g => input g x)^[n] ((new wc ts).init x)
    Tuned wc ts g ∧ (g.lpfInPrev0 = x ∧ g.lpfInPrev1 = x) ∧
      g.lpfOutPrev0 = x ∧ g.lpfOutPrev1 = x := by
  induction n with
  | zero => exact ⟨rfl, ⟨rfl, rfl⟩, rfl, rfl⟩
  | succ n ih =>
    obtain ⟨htuned, hin, hout⟩ := ih
    rw [Function.iterate_succ_apply']
    exact ⟨htuned.input x, ⟨rfl, hin.1⟩, htuned.input_settled hwc hts hin hout, hout.1⟩

end Coefficients

structure Within (wc ts B M : ℝ) (g : DigitalLpFilter ℝ) : Prop where
  tuned : Tuned wc ts g
  in0 : |g.lpfInPrev0| ≤ B
  in1 : |g.lpfInPrev1| ≤ B
  form : energy (new wc ts).lpfOut1 (-(new wc ts).lpfOut2) g.lpfOutPrev0 g.lpfOutPrev1 ≤ M

section Runs
variable {wc ts : ℝ} (hwc : 0 < wc) (hts : 0 < ts) {f : DigitalLpFilter ℝ} (h : Tuned wc ts f)
include hwc hts h

theorem tendsto_output (x : ℝ) :
    Filter.Tendsto (fun n => ((fun g => input g x)^[n] f).lpfOut) Filter.atTop (nhds x) := by
  let g : ℕ → DigitalLpFilter ℝ := fun n => (fun g => input g x)^[n] f
  have hg : ∀ n, g (n + 1) = (g n).input x := fun n => Function.iterate_succ_apply' _ n f
  have htuned : ∀ n, Tuned wc ts (g n) := by
    intro n
    induction n with
    | zero => exact h
    | succ n ih => rw [hg]; exact ih.input x
  have hcoeff : ∀ n, (g n).coefficients = f.coefficients := fun n => (htuned n).trans h.symm
  -- after two inputs the memory of the inputs is full
  have herror : ∀ n, (g (n + 2 + 2)).lpfOutPrev0 - x =
      next f.lpfOut1 (-f.lpfOut2) ((g (n + 2 + 1)).lpfOutPrev0 - x)
        ((g (n + 2)).lpfOutPrev0 - x) 0 := by
    intro n
    have hsum := (htuned (n + 3)).sum_eq_one hwc hts
    have hout1 := congrFun (hcoeff (n + 3)) 3
    have hout2 := congrFun (hcoeff (n + 3)) 4
    have hout : (g (n + 2 + 2)).lpfOutPrev0 = ((g (n + 3)).input x).lpfOut := by
      rw [hg (n + 3)]
      rfl
    have hin0 : (g (n + 3)).lpfInPrev0 = x := by rw [hg]; rfl
    have hin1 : (g (n + 3)).lpfInPrev1 = x := by rw [hg, hg]; rfl
    have hprev : (g (n + 3)).lpfOutPrev1 = (g (n + 2)).lpfOutPrev0 := by rw [hg]; rfl
    simp only [coefficients, Matrix.cons_val] at hout1 hout2
    rw [hout, lpfOut_input, drive, hin0, hin1, hprev, ← hout1, ← hout2]
    unfold next
    linear_combination x * hsum
  have herror0 := SecondOrder.tendsto_zero (e := fun n => (g (n + 2)).lpfOutPrev0 - x)
    (h.oscillating hwc hts) (h.stable hwc hts) herror
  have houtput : Filter.Tendsto (fun n => (g (n + 2)).lpfOut) Filter.atTop (nhds x) := by
    have hshift := herror0.add_const x
    simp only [sub_add_cancel, zero_add] at hshift
    refine hshift.congr fun n => ?_
    rw [hg]
    rfl
  exact (Filter.tendsto_add_atTop_iff_nat 2).mp houtput

end Runs

section Bounded
variable {wc ts : ℝ} (hwc : 0 < wc) (hts : 0 < ts)
include hwc hts

theorem abs_drive_le {B M u : ℝ} {g : DigitalLpFilter ℝ} (hg : Within wc ts B M g) (hu : |u| ≤ B) :
    |g.drive u| ≤ g.inputGain * B := by
  obtain ⟨hpos1, hpos2, hpos3⟩ := hg.tuned.inputs_pos hwc hts
  have hu' := abs_le.mp hu
  have hin0 := abs_le.mp hg.in0
  have hin1 := abs_le.mp hg.in1
  rw [abs_le, drive, inputGain]
  constructor
  · linarith [mul_le_mul_of_nonneg_left hu'.1 hpos1.le, mul_le_mul_of_nonneg_left hin0.1 hpos2.le,
      mul_le_mul_of_nonneg_left hin1.1 hpos3.le]
  · linarith [mul_le_mul_of_nonneg_left hu'.2 hpos1.le, mul_le_mul_of_nonneg_left hin0.2 hpos2.le,
      mul_le_mul_of_nonneg_left hin1.2 hpos3.le]

theorem Within.input {B U M u : ℝ} {g : DigitalLpFilter ℝ} (hg : Within wc ts B M g) (hu : |u| ≤ B)
    (hU : (new wc ts).inputGain * B ≤ U)
    (hM : (1 + -(new wc ts).lpfOut2) / (1 - -(new wc ts).lpfOut2) * (U * U) ≤
      (1 - -(new wc ts).lpfOut2) / 2 * M) : Within wc ts B M (g.input u) := by
  have hnew : Tuned wc ts (new wc ts) := rfl
  have hdrive := abs_drive_le hwc hts hg hu
  obtain ⟨hin1, hin2, hin3, hout1, hout2⟩ := hg.tuned.values
  have hgain : g.inputGain = (new wc ts).inputGain := by
    rw [inputGain, hin1, hin2, hin3]
    rfl
  have hsquare : g.drive u * g.drive u ≤ U * U := by
    rw [← abs_mul_abs_self (g.drive u)]
    have hle : |g.drive u| ≤ U := hdrive.trans (hgain ▸ hU)
    exact mul_self_le_mul_self (abs_nonneg _) hle
  refine ⟨hg.tuned.input u, hu, hg.in0, ?_⟩
  have hout : (g.input u).lpfOutPrev0 = next (new wc ts).lpfOut1 (-(new wc ts).lpfOut2)
      g.lpfOutPrev0 g.lpfOutPrev1 (g.drive u) := by
    refine (lpfOut_input g u).trans ?_
    rw [hout1, hout2]
    rfl
  rw [hout]
  exact SecondOrder.energy_next_le_of_le (hnew.oscillating hwc hts) (hnew.stable hwc hts) hsquare hM
    hg.form

theorem Within.run {B C M : ℝ} (hBC : B ≤ C) {f : DigitalLpFilter ℝ} (hf : Within wc ts C M f)
    (hM : (1 + -(new wc ts).lpfOut2) / (1 - -(new wc ts).lpfOut2) *
      ((new wc ts).inputGain * C * ((new wc ts).inputGain * C)) ≤
      (1 - -(new wc ts).lpfOut2) / 2 * M) {us : List ℝ} (hus : ∀ u ∈ us, |u| ≤ B) :
    Within wc ts C M (us.foldl DigitalLpFilter.input f) :=
  List.foldlRecOn us _ hf fun _ hg u hu => hg.input hwc hts ((hus u hu).trans hBC) le_rfl hM

theorem bounded_output {f : DigitalLpFilter ℝ} (h : Tuned wc ts f) (B : ℝ) :
    ∃ M, ∀ us : List ℝ, us ≠ [] → (∀ u ∈ us, |u| ≤ B) → |(us.foldl input f).lpfOut| ≤ M := by
  have hnew : Tuned wc ts (new wc ts) := rfl
  have hosc := hnew.oscillating hwc hts
  have hpos := SecondOrder.coeff_pos hosc
  obtain ⟨M, hstart, hM⟩ := SecondOrder.exists_energy_bound (hnew.stable hwc hts)
    (energy (new wc ts).lpfOut1 (-(new wc ts).lpfOut2) f.lpfOutPrev0 f.lpfOutPrev1)
    ((new wc ts).inputGain * max B (max |f.lpfInPrev0| |f.lpfInPrev1|))
  have hf : Within wc ts (max B (max |f.lpfInPrev0| |f.lpfInPrev1|)) M f :=
    ⟨h, (le_max_left _ _).trans (le_max_right _ _), (le_max_right _ _).trans (le_max_right _ _),
      hstart⟩
  have hfactor : 0 ≤ 4 * -(new wc ts).lpfOut2 /
      (4 * -(new wc ts).lpfOut2 - (new wc ts).lpfOut1 * (new wc ts).lpfOut1) :=
    div_nonneg (by linarith) (sub_nonneg.mpr hosc.le)
  refine ⟨1 + 4 * -(new wc ts).lpfOut2 /
    (4 * -(new wc ts).lpfOut2 - (new wc ts).lpfOut1 * (new wc ts).lpfOut1) * M, fun us hne hus => ?_⟩
  have hend := hf.run hwc hts (le_max_left _ _) hM hus
  have hout : (us.foldl input f).lpfOut = (us.foldl input f).lpfOutPrev0 := by
    obtain ⟨vs, u, rfl⟩ := (List.eq_nil_or_concat us).resolve_left hne
    rw [List.concat_eq_append, List.foldl_append]
    rfl
  have hsquare := SecondOrder.mul_self_le_energy hosc (us.foldl input f).lpfOutPrev0
    (us.foldl input f).lpfOutPrev1
  have hbound := mul_le_mul_of_nonneg_left hend.form hfactor
  rw [hout]
  refine le_trans ?_ (add_le_add_right (hsquare.trans hbound) 1)
  rw [← abs_mul_abs_self]
  linarith [mul_self_nonneg (|(us.foldl input f).lpfOutPrev0| - 1),
    abs_nonneg (us.foldl input f).lpfOutPrev0]

/-- The filter is sound for every tuning. -/
theorem low_pass_sound :
    den wc ts ≠ 0 ∧
      (new wc ts).lpfIn1 + (new wc ts).lpfIn2 + (new wc ts).lpfIn3 + (new wc ts).lpfOut1 +
        (new wc ts).lpfOut2 = 1 ∧
      (∀ z : ℂ, z * z = (new wc ts).lpfOut1 * z + (new wc ts).lpfOut2 → ‖z‖ < 1) ∧
      (∀ x n, ((fun g => input g x)^[n + 1] ((new wc ts).init x)).lpfOut = x) ∧
      (∀ f, Tuned wc ts f → ∀ x,
        Filter.Tendsto (fun n => ((fun g => input g x)^[n] f).lpfOut) Filter.atTop (nhds x)) ∧
      ∀ f, Tuned wc ts f → ∀ B, ∃ M, ∀ us : List ℝ, us ≠ [] → (∀ u ∈ us, |u| ≤ B) →
        |(us.foldl input f).lpfOut| ≤ M := by
  have hnew : Tuned wc ts (new wc ts) := rfl
  refine ⟨(den_pos hwc hts).ne', hnew.sum_eq_one hwc hts, fun z hz => ?_, fun x n => ?_,
    fun f hf => tendsto_output hwc hts hf, fun f hf => bounded_output hwc hts hf⟩
  · refine SecondOrder.norm_pole_lt_one (hnew.oscillating hwc hts) (hnew.stable hwc hts) ?_
    rw [hz]
    push_cast
    ring
  · obtain ⟨htuned, hin, hout⟩ := settled_init hwc hts x n
    rw [Function.iterate_succ_apply']
    exact htuned.input_settled hwc hts hin hout

end Bounded

theorem low_pass_step_response :
    Filter.Tendsto (fun n => ((fun g => input g 1)^[n] (new (20 : ℝ) (1 / 1000))).lpfOut)
      Filter.atTop (nhds 1) :=
  (low_pass_sound (by norm_num) (by norm_num)).2.2.2.2.1 _ rfl 1

end DigitalLpFilter
end MybipedalDeploy.Control
