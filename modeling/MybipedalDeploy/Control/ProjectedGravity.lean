import Mathlib.Analysis.SpecialFunctions.Complex.Arg
import Mathlib.Analysis.SpecialFunctions.Trigonometric.Inverse
import MybipedalDeploy.Control.RLController
import MybipedalDeploy.Imu.FrameChange

/-!
# Projected gravity

With the real functions for those of the mathematical library, the way through the Euler
angles ends where the orientation itself puts the direction of gravity. Where the pitch
is a right angle downwards both arguments of the roll's `atan2` are zero, and so is what
the roll is multiplied by.
-/

namespace MybipedalDeploy.Control
open Matrix Quaternion
open Imu (toQuaternion normSq_toQuaternion)
open Rotation (rotation)

namespace Platform

noncomputable def real : Platform ℝ where
  sin := Real.sin
  cos := Real.cos
  asin := Real.arcsin
  atan2 := fun y x => Complex.arg ⟨x, y⟩
  sqrt := Real.sqrt
  fmod := fun x y => x - y * if 0 ≤ x / y then ⌊x / y⌋ else ⌈x / y⌉
  pi := Real.pi

section Matrix
variable (z y x : ℝ)

theorem det_rotationMatrix :
    (real.getRotationMatrixFromZyxEulerAngles ![z, y, x]).det = 1 := by
  have hz := Real.sin_sq_add_cos_sq z
  have hy := Real.sin_sq_add_cos_sq y
  have hx := Real.sin_sq_add_cos_sq x
  rw [Matrix.det_fin_three]
  simp [getRotationMatrixFromZyxEulerAngles, real]
  linear_combination (Real.sin y ^ 2 + Real.cos y ^ 2) * (Real.sin x ^ 2 + Real.cos x ^ 2) * hz +
    (Real.sin x ^ 2 + Real.cos x ^ 2) * hy + hx

theorem inverse_rotationMatrix_down :
    inverse (real.getRotationMatrixFromZyxEulerAngles ![z, y, x]) *ᵥ ![0, 0, -1] =
      ![Real.sin y, -(Real.cos y * Real.sin x), -(Real.cos y * Real.cos x)] := by
  have hdown : real.getRotationMatrixFromZyxEulerAngles ![z, y, x] *ᵥ
      ![Real.sin y, -(Real.cos y * Real.sin x), -(Real.cos y * Real.cos x)] = ![0, 0, -1] := by
    have hy := Real.sin_sq_add_cos_sq y
    have hx := Real.sin_sq_add_cos_sq x
    ext i
    fin_cases i <;> simp [getRotationMatrixFromZyxEulerAngles, real, Matrix.mulVec, dotProduct,
      Fin.sum_univ_three]
    · linear_combination -(Real.cos z * Real.cos y * Real.sin y) * hx
    · linear_combination -(Real.sin z * Real.cos y * Real.sin y) * hx
    · linear_combination -hy - Real.cos y ^ 2 * hx
  have hdet : (real.getRotationMatrixFromZyxEulerAngles ![z, y, x]).det ≠ 0 := by
    rw [det_rotationMatrix]
    exact one_ne_zero
  rw [← hdown, Matrix.mulVec_mulVec, inverse_mul hdet, Matrix.one_mulVec]

end Matrix
section Angles

theorem cos_arcsin_mul {a b c : ℝ} (h : a ^ 2 + b ^ 2 + c ^ 2 = 1) :
    Real.cos (Real.arcsin a) * Real.sin (Complex.arg ⟨c, b⟩) = b ∧
      Real.cos (Real.arcsin a) * Real.cos (Complex.arg ⟨c, b⟩) = c := by
  have hnorm : Real.cos (Real.arcsin a) = ‖(⟨c, b⟩ : ℂ)‖ := by
    rw [Real.cos_arcsin, Complex.norm_def, Complex.normSq_mk]
    congr 1
    linarith
  rw [hnorm, Complex.norm_mul_sin_arg, Complex.norm_mul_cos_arg]
  exact ⟨rfl, rfl⟩

end Angles

theorem sphere {q : Msg.Quaternion ℝ} (hunit : normSq (toQuaternion q) = 1) :
    (2 * (q.w * q.y - q.x * q.z)) ^ 2 + (2 * (q.y * q.z + q.w * q.x)) ^ 2 +
      (q.w ^ 2 - q.x ^ 2 - q.y ^ 2 + q.z ^ 2) ^ 2 = 1 := by
  rw [normSq_toQuaternion] at hunit
  have hsquare : (q.w * q.w + q.x * q.x + q.y * q.y + q.z * q.z) ^ 2 = 1 := by
    rw [hunit, one_pow]
  linear_combination hsquare

theorem projectedGravity_eq {q : Msg.Quaternion ℝ} (hunit : normSq (toQuaternion q) = 1)
    (hpitch : 2 * (q.w * q.y - q.x * q.z) ≤ 0.99999) :
    real.projectedGravity q = (rotation (toQuaternion q))ᵀ *ᵥ ![0, 0, -1] := by
  have has : min (-2.0 * (q.x * q.z - q.w * q.y)) 0.99999 = 2 * (q.w * q.y - q.x * q.z) := by
    have hdouble : -2.0 * (q.x * q.z - q.w * q.y) = 2 * (q.w * q.y - q.x * q.z) := by
      norm_num
      ring
    rw [hdouble, min_eq_left hpitch]
  have hsphere : (2 * (q.w * q.y - q.x * q.z)) ^ 2 + (2.0 * (q.y * q.z + q.w * q.x)) ^ 2 +
      (square q.w - square q.x - square q.y + square q.z) ^ 2 = 1 := by
    norm_num [square]
    linear_combination sphere hunit
  rw [normSq_toQuaternion] at hunit
  have hlow : -1 ≤ 2 * (q.w * q.y - q.x * q.z) := by
    nlinarith [sq_nonneg (q.w + q.y), sq_nonneg (q.x - q.z)]
  have hsin : Real.sin (Real.arcsin (2 * (q.w * q.y - q.x * q.z))) =
      2 * (q.w * q.y - q.x * q.z) := Real.sin_arcsin hlow (by linarith)
  obtain ⟨hroll, hroll'⟩ := cos_arcsin_mul hsphere
  have hangles : real.quatToZyx q = ![real.quatToZyx q 0,
      Real.arcsin (2 * (q.w * q.y - q.x * q.z)), Complex.arg
        ⟨square q.w - square q.x - square q.y + square q.z, 2.0 * (q.y * q.z + q.w * q.x)⟩] := by
    ext i
    fin_cases i
    · rfl
    · exact congrArg Real.arcsin has
    · rfl
  rw [projectedGravity, hangles, inverse_rotationMatrix_down, hsin, hroll, hroll',
    Rotation.rotation_transpose_down]
  ext i
  fin_cases i <;> norm_num [square]

theorem projectedGravity_corrected {io : Imu.Platform ℝ} (hone : io.sqrt 1 = 1)
    {f : Imu.ImuFrameFix ℝ} (hf : f.Turning) {q : Msg.Quaternion ℝ}
    (hunit : normSq (toQuaternion q) = 1)
    (hpitch : 2 * ((f.applyQuat io q).w * (f.applyQuat io q).y -
      (f.applyQuat io q).x * (f.applyQuat io q).z) ≤ 0.99999) :
    real.projectedGravity (f.applyQuat io q) = Imu.ImuFrameFix.signs f.s *ᵥ
      ((rotation (toQuaternion (if f.quatInverse then Imu.ImuFrameFix.conj q else q)))ᵀ *ᵥ
        ((rotation (toQuaternion f.qW))ᵀ *ᵥ ![0, 0, -1])) := by
  rw [projectedGravity_eq (hf.rotation_corrected hone hunit).1 hpitch, hf.gravity hone hunit]

end Platform

section Yaw
open Imu.ImuFrameFix (mul toQuaternion_mul)
variable {turn q : Msg.Quaternion ℝ} (hturn : normSq (toQuaternion turn) = 1) (hx : turn.x = 0)
  (hy : turn.y = 0)
include hturn hx hy

theorem down_mul :
    (rotation (toQuaternion (mul turn q)))ᵀ *ᵥ ![0, 0, -1] =
      (rotation (toQuaternion q))ᵀ *ᵥ ![0, 0, -1] := by
  have hdown : (rotation (toQuaternion turn))ᵀ *ᵥ ![0, 0, -1] = ![0, 0, -1] := by
    rw [normSq_toQuaternion, hx, hy] at hturn
    rw [Rotation.rotation_transpose_down]
    ext i
    fin_cases i <;> simp [hx, hy]
    linarith
  rw [toQuaternion_mul, Rotation.rotation_mul, Matrix.transpose_mul, ← Matrix.mulVec_mulVec, hdown]

theorem pitch_mul : 2 * ((mul turn q).w * (mul turn q).y - (mul turn q).x * (mul turn q).z) =
    2 * (q.w * q.y - q.x * q.z) := by
  have h := congrFun (down_mul (q := q) hturn hx hy) 0
  rw [Rotation.rotation_transpose_down, Rotation.rotation_transpose_down] at h
  simpa using h

end Yaw

namespace RLController
open Imu.ImuFrameFix (mul toQuaternion_mul)

/-- The projected gravity of an update, for an orientation that is not pitched up to the
singularity: the direction of gravity in the body frame, a unit vector whatever the yaw. -/
theorem projected_gravity (c : RLController ℝ) {imu : Msg.Imu ℝ}
    (hunit : normSq (toQuaternion imu.orientation) = 1)
    (hpitch : 2 * (imu.orientation.w * imu.orientation.y -
      imu.orientation.x * imu.orientation.z) ≤ 0.99999) :
    let q := imu.orientation
    let g := (c.updateStateEstimation .real imu).propri.projectedGravity
    g = List.ofFn ((rotation (toQuaternion q))ᵀ *ᵥ ![0, 0, -1]) ∧
      g = [2 * (q.w * q.y - q.x * q.z), -(2 * (q.y * q.z + q.w * q.x)),
        -(q.w ^ 2 - q.x ^ 2 - q.y ^ 2 + q.z ^ 2)] ∧
      (g.map (· ^ 2)).sum = 1 ∧
      ∀ turn, normSq (toQuaternion turn) = 1 → turn.x = 0 → turn.y = 0 →
        (c.updateStateEstimation .real { imu with orientation := mul turn q }).propri.projectedGravity
          = g := by
  intro q g
  have hg : g = List.ofFn ((rotation (toQuaternion q))ᵀ *ᵥ ![0, 0, -1]) :=
    congrArg List.ofFn (Platform.projectedGravity_eq hunit hpitch)
  have hentries : g = [2 * (q.w * q.y - q.x * q.z), -(2 * (q.y * q.z + q.w * q.x)),
      -(q.w ^ 2 - q.x ^ 2 - q.y ^ 2 + q.z ^ 2)] := by
    rw [hg, Rotation.rotation_transpose_down]
    simp [sq]
  refine ⟨hg, hentries, ?_, fun turn hturn hx hy => ?_⟩
  · have hsphere := Platform.sphere hunit
    rw [hentries]
    simp only [List.map_cons, List.map_nil, List.sum_cons, List.sum_nil]
    linear_combination hsphere
  · have hyaw : normSq (toQuaternion (mul turn q)) = 1 := by
      rw [toQuaternion_mul, map_mul, hturn, hunit, mul_one]
    have hpitched := (pitch_mul (q := q) hturn hx hy).trans_le hpitch
    refine (congrArg List.ofFn (Platform.projectedGravity_eq hyaw hpitched)).trans ?_
    rw [hg, down_mul hturn hx hy]

noncomputable def standing : RLController ℝ :=
  .new (.new ["knee"] [0] [1] [1])
    { actionScale := 1, decimation := 10, swMode := true, cmdThreshold := 0, loopDt := 0,
      angVelScale := 1, dofPosScale := 1, dofVelScale := 1, actionsSize := 1,
      observationsSize := 15, numHist := 1, observationsClip := 1, actionsClip := 1,
      estSize := 1, gaitFreq := 1, gaitOffset := 0, gaitDuration := 0, gaitSwingHeight := 0,
      lpfWc := 1, lpfTs := 1, encoder := id, policy := id }

noncomputable def noseDown : Msg.Imu ℝ :=
  let half := √(1 / ((2 : ℕ) : ℝ))
  { Msg.Imu.default ℝ with orientation := { w := half, x := 0, y := -half, z := 0 } }

theorem projected_gravity_noseDown :
    (standing.updateStateEstimation .real noseDown).propri.projectedGravity = [-1, 0, 0] := by
  have hroot : √(1 / ((2 : ℕ) : ℝ)) * √(1 / ((2 : ℕ) : ℝ)) = 1 / 2 := by
    rw [Real.mul_self_sqrt (by norm_num), Nat.cast_ofNat]
  have hunit : normSq (toQuaternion noseDown.orientation) = 1 := by
    rw [normSq_toQuaternion]
    simp only [noseDown]
    linear_combination 2 * hroot
  have hpitch : 2 * (noseDown.orientation.w * noseDown.orientation.y -
      noseDown.orientation.x * noseDown.orientation.z) = -1 := by
    simp only [noseDown]
    linear_combination -2 * hroot
  refine (projected_gravity standing hunit (by rw [hpitch]; norm_num)).2.1.trans ?_
  rw [hpitch]
  simp [noseDown]

end RLController
end MybipedalDeploy.Control
