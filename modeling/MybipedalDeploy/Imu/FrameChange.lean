import Mathlib.Analysis.Real.Sqrt
import Mathlib.Tactic.LinearCombination
import MybipedalDeploy.Imu.ImuFrameFix
import MybipedalDeploy.Library.Rotation

/-!
# The correction as a change of frames

With signs that are exactly one or minus one the orientation and the vectors of a message
are turned by the same rotations: of the body by the signs, of the world by the exchange
of the north-east-down and the east-north-up frames.
-/

namespace MybipedalDeploy.Imu
open Matrix Quaternion
open Msg (Vector3)
open Rotation (rotation rotation_one rotation_mul rotation_star)

def toVec {K : Type} (v : Vector3 K) : Fin 3 → K := ![v.x, v.y, v.z]

variable {K : Type} [Field K]

def toQuaternion (q : Msg.Quaternion K) : ℍ[K] := ⟨q.w, q.x, q.y, q.z⟩

@[simp] theorem re_toQuaternion (q : Msg.Quaternion K) : (toQuaternion q).re = q.w := rfl
@[simp] theorem imI_toQuaternion (q : Msg.Quaternion K) : (toQuaternion q).imI = q.x := rfl
@[simp] theorem imJ_toQuaternion (q : Msg.Quaternion K) : (toQuaternion q).imJ = q.y := rfl
@[simp] theorem imK_toQuaternion (q : Msg.Quaternion K) : (toQuaternion q).imK = q.z := rfl

theorem normSq_toQuaternion (q : Msg.Quaternion K) :
    normSq (toQuaternion q) = q.w * q.w + q.x * q.x + q.y * q.y + q.z * q.z := by
  simp [normSq_def', sq]

namespace ImuFrameFix

theorem toQuaternion_identity : toQuaternion (identity : Msg.Quaternion K) = 1 := rfl

theorem toQuaternion_mul (a b : Msg.Quaternion K) :
    toQuaternion (mul a b) = toQuaternion a * toQuaternion b := by
  ext <;> simp [mul]

theorem toQuaternion_conj (q : Msg.Quaternion K) :
    toQuaternion (conj q) = star (toQuaternion q) := by
  ext <;> simp [conj]

def signs (s : Vector3 K) : Matrix (Fin 3) (Fin 3) K := Matrix.diagonal (toVec s)

theorem toVec_applyVec {f : ImuFrameFix K} (henabled : f.enabled = true) (v : Vector3 K) :
    toVec (f.applyVec v) = signs f.s *ᵥ toVec v := by
  ext i
  fin_cases i <;> simp [applyVec, henabled, toVec, signs, Matrix.mulVec_diagonal, mul_comm]

variable [LinearOrder K]

theorem init_eq_ok {io : Platform K} {bodySigns : Vector3 K} {zDown inverse : Bool}
    {f : ImuFrameFix K} (h : init io bodySigns zDown inverse = .ok f) :
    ¬bodySigns.x * bodySigns.y * bodySigns.z < 0 ∧
      f = ⟨true, bodySigns, zDown, inverse, bodyTurn bodySigns,
        if zDown then
          { w := 0, x := io.sqrt (1 / ((2 : ℕ) : K)), y := io.sqrt (1 / ((2 : ℕ) : K)), z := 0 }
        else identity⟩ := by
  simp only [init] at h
  split_ifs at h with hsign hproduct
  all_goals
    cases h
    exact ⟨hproduct, by simp_all⟩

structure Proper (s : Vector3 K) : Prop where
  x : s.x = 1 ∨ s.x = -1
  y : s.y = 1 ∨ s.y = -1
  z : s.z = 1 ∨ s.z = -1
  product : ¬s.x * s.y * s.z < 0

variable [IsStrictOrderedRing K]

theorem init_proper (io : Platform K) {s : Vector3 K} (h : Proper s) (zDown inverse : Bool) :
    ∃ f, init io s zDown inverse = .ok f := by
  have habs : ∀ {a : K}, a = 1 ∨ a = -1 → |(|a| - 1)| = 0 := by
    intro a ha
    rw [(abs_eq zero_le_one).mpr ha, sub_self, abs_zero]
  have hpos : ¬(1 : K) / ((1000000000 : ℕ) : K) < 0 := by
    rw [not_lt]
    positivity
  simp only [init, habs h.x, habs h.y, habs h.z, hpos, decide_false, Bool.or_self,
    Bool.false_eq_true, if_false, h.product]
  exact ⟨_, rfl⟩

theorem Proper.cases {s : Vector3 K} (h : Proper s) :
    s = ⟨1, 1, 1⟩ ∧ bodyTurn s = { w := 1, x := 0, y := 0, z := 0 } ∨
    s = ⟨1, -1, -1⟩ ∧ bodyTurn s = { w := 0, x := 1, y := 0, z := 0 } ∨
    s = ⟨-1, 1, -1⟩ ∧ bodyTurn s = { w := 0, x := 0, y := 1, z := 0 } ∨
    s = ⟨-1, -1, 1⟩ ∧ bodyTurn s = { w := 0, x := 0, y := 0, z := 1 } := by
  obtain ⟨hx, hy, hz, hproduct⟩ := h
  obtain ⟨x, y, z⟩ := s
  dsimp only at hx hy hz hproduct
  have hone : ¬(1 : K) < 0 := zero_lt_one.not_gt
  have hback : ¬(0 : K) < -1 := by simp
  rcases hx with rfl | rfl <;> rcases hy with rfl | rfl <;> rcases hz with rfl | rfl
  · exact .inl ⟨rfl, by simp [bodyTurn, identity]⟩
  · exact absurd (by simp) hproduct
  · exact absurd (by simp) hproduct
  · exact .inr (.inl ⟨rfl, by simp [bodyTurn, hback]⟩)
  · exact absurd (by simp) hproduct
  · exact .inr (.inr (.inl ⟨rfl, by simp [bodyTurn, hback, hone]⟩))
  · exact .inr (.inr (.inr ⟨rfl, by simp [bodyTurn, hback]⟩))
  · exact absurd (by simp) hproduct

theorem Proper.signs_mul_self {s : Vector3 K} (h : Proper s) : signs s * signs s = 1 := by
  have hone : ∀ i, toVec s i * toVec s i = 1 := by
    intro i
    fin_cases i
    · exact mul_self_eq_one_iff.mpr h.x
    · exact mul_self_eq_one_iff.mpr h.y
    · exact mul_self_eq_one_iff.mpr h.z
  rw [signs, Matrix.diagonal_mul_diagonal, funext hone, Matrix.diagonal_one]

theorem Proper.normSq_bodyTurn {s : Vector3 K} (h : Proper s) :
    normSq (toQuaternion (bodyTurn s)) = 1 := by
  obtain ⟨-, hturn⟩ | ⟨-, hturn⟩ | ⟨-, hturn⟩ | ⟨-, hturn⟩ := h.cases <;>
    rw [hturn, normSq_toQuaternion] <;> simp

theorem Proper.rotation_bodyTurn {s : Vector3 K} (h : Proper s) :
    rotation (toQuaternion (bodyTurn s)) = signs s := by
  obtain ⟨hs, hturn⟩ | ⟨hs, hturn⟩ | ⟨hs, hturn⟩ | ⟨hs, hturn⟩ := h.cases <;>
    rw [hturn, hs] <;> ext i j <;> fin_cases i <;> fin_cases j <;>
    simp [Rotation.rotation, signs, toVec]

theorem toQuaternion_applyQuat {io : Platform K} (hone : io.sqrt 1 = 1) {f : ImuFrameFix K}
    (henabled : f.enabled = true) {q : Msg.Quaternion K}
    (hunit : normSq (toQuaternion (mul (mul f.qW (if f.quatInverse then conj q else q)) f.qB)) = 1) :
    toQuaternion (f.applyQuat io q) =
      toQuaternion (mul (mul f.qW (if f.quatInverse then conj q else q)) f.qB) := by
  rw [normSq_toQuaternion] at hunit
  have hsmall : (1 : K) / ((1000000000 : ℕ) : K) < 1 := by norm_num
  simp only [applyQuat, henabled, if_true, hunit, hone, if_pos hsmall, div_one]

def worldMap (zDown : Bool) (v : Fin 3 → K) : Fin 3 → K :=
  if zDown then !![0, 1, 0; 1, 0, 0; 0, 0, -1] *ᵥ v else v

theorem worldTurn {r : K} (hr : ((2 : ℕ) : K) * r * r = 1) (zDown : Bool) {qW : Msg.Quaternion K}
    (h : qW = if zDown then { w := 0, x := r, y := r, z := 0 } else identity) :
    normSq (toQuaternion qW) = 1 ∧ ∀ v, rotation (toQuaternion qW) *ᵥ v = worldMap zDown v := by
  push_cast at hr
  cases zDown with
  | false =>
    rw [if_neg (by simp)] at h
    rw [h, toQuaternion_identity]
    exact ⟨map_one normSq, fun v => by simp [rotation_one, worldMap]⟩
  | true =>
    rw [if_pos rfl] at h
    refine ⟨?_, fun v => ?_⟩
    · rw [normSq_toQuaternion, h]
      linear_combination hr
    · ext i
      fin_cases i <;>
      simp [h, Rotation.rotation, worldMap, Matrix.mulVec, dotProduct, Fin.sum_univ_three]
      · linear_combination v 1 * hr
      · linear_combination v 0 * hr
      · linear_combination -v 2 * hr

/-- The corrected orientation: the body's half turn first, then the measured turn, then the
world's half turn. -/
theorem rotation_applyQuat {io : Platform K} (hone : io.sqrt 1 = 1) {f : ImuFrameFix K}
    (henabled : f.enabled = true) (hqW : normSq (toQuaternion f.qW) = 1)
    (hqB : normSq (toQuaternion f.qB) = 1) {q : Msg.Quaternion K}
    (hq : normSq (toQuaternion q) = 1) :
    normSq (toQuaternion (f.applyQuat io q)) = 1 ∧
      rotation (toQuaternion (f.applyQuat io q)) = rotation (toQuaternion f.qW) *
        rotation (toQuaternion (if f.quatInverse then conj q else q)) *
          rotation (toQuaternion f.qB) := by
  have hdirected : normSq (toQuaternion (if f.quatInverse then conj q else q)) = 1 := by
    split_ifs
    · rw [toQuaternion_conj, normSq_star, hq]
    · exact hq
  have hunit : normSq (toQuaternion
      (mul (mul f.qW (if f.quatInverse then conj q else q)) f.qB)) = 1 := by
    rw [toQuaternion_mul, toQuaternion_mul, map_mul, map_mul, hqW, hdirected, hqB]
    simp
  rw [toQuaternion_applyQuat hone henabled hunit]
  refine ⟨hunit, ?_⟩
  rw [toQuaternion_mul, toQuaternion_mul, rotation_mul, rotation_mul]

structure Turning (f : ImuFrameFix K) : Prop where
  enabled : f.enabled = true
  proper : Proper f.s
  body : f.qB = bodyTurn f.s
  unit : normSq (toQuaternion f.qW) = 1
  world : ∀ v, rotation (toQuaternion f.qW) *ᵥ v = worldMap f.worldZDown v

theorem turning_of_init {io : Platform K}
    (hroot : ((2 : ℕ) : K) * io.sqrt (1 / ((2 : ℕ) : K)) * io.sqrt (1 / ((2 : ℕ) : K)) = 1)
    {s : Vector3 K} {zDown inverse : Bool} {f : ImuFrameFix K}
    (h : init io s zDown inverse = .ok f) (hx : s.x = 1 ∨ s.x = -1) (hy : s.y = 1 ∨ s.y = -1)
    (hz : s.z = 1 ∨ s.z = -1) :
    f.Turning ∧ f.s = s ∧ f.worldZDown = zDown ∧ f.quatInverse = inverse := by
  obtain ⟨hproduct, rfl⟩ := init_eq_ok h
  obtain ⟨hunit, hworld⟩ := worldTurn hroot zDown rfl
  exact ⟨⟨rfl, ⟨hx, hy, hz, hproduct⟩, rfl, hunit, hworld⟩, rfl, rfl, rfl⟩

namespace Turning
variable {f : ImuFrameFix K} (h : f.Turning) {io : Platform K} (hone : io.sqrt 1 = 1)
  {q : Msg.Quaternion K} (hq : normSq (toQuaternion q) = 1)
include h hone hq

theorem rotation_corrected : normSq (toQuaternion (f.applyQuat io q)) = 1 ∧
    rotation (toQuaternion (f.applyQuat io q)) = rotation (toQuaternion f.qW) *
      rotation (toQuaternion (if f.quatInverse then conj q else q)) * signs f.s := by
  have hqB : normSq (toQuaternion f.qB) = 1 := by rw [h.body, h.proper.normSq_bodyTurn]
  rw [← h.proper.rotation_bodyTurn, ← h.body]
  exact rotation_applyQuat hone h.enabled h.unit hqB hq

theorem vectors (v : Vector3 K) :
    rotation (toQuaternion (f.applyQuat io q)) *ᵥ toVec (f.applyVec v) =
      worldMap f.worldZDown
        (rotation (toQuaternion (if f.quatInverse then conj q else q)) *ᵥ toVec v) := by
  rw [toVec_applyVec h.enabled, (h.rotation_corrected hone hq).2, Matrix.mulVec_mulVec,
    Matrix.mul_assoc, h.proper.signs_mul_self, Matrix.mul_one, ← Matrix.mulVec_mulVec, h.world]

theorem gravity :
    (rotation (toQuaternion (f.applyQuat io q)))ᵀ *ᵥ ![0, 0, -1] =
      signs f.s *ᵥ ((rotation (toQuaternion (if f.quatInverse then conj q else q)))ᵀ *ᵥ
        ((rotation (toQuaternion f.qW))ᵀ *ᵥ ![0, 0, -1])) := by
  rw [(h.rotation_corrected hone hq).2, Matrix.transpose_mul, Matrix.transpose_mul, signs,
    Matrix.diagonal_transpose, ← Matrix.mulVec_mulVec, ← Matrix.mulVec_mulVec]

end Turning

/-- The corrected message is the measured one seen from other frames: its orientation is
a unit quaternion that turns the corrected vectors as the measured one, followed by the turn
of the world, turns the measured vectors; and gravity is seen with the body's signs. -/
theorem change_of_frames {io : Platform ℝ} (hsqrt : io.sqrt = Real.sqrt) {s : Vector3 ℝ}
    {zDown inverse : Bool} {f : ImuFrameFix ℝ} (h : init io s zDown inverse = .ok f)
    (hx : s.x = 1 ∨ s.x = -1) (hy : s.y = 1 ∨ s.y = -1) (hz : s.z = 1 ∨ s.z = -1)
    {q : Msg.Quaternion ℝ} (hq : normSq (toQuaternion q) = 1) :
    normSq (toQuaternion (f.applyQuat io q)) = 1 ∧
      (∀ v, rotation (toQuaternion f.qW) *ᵥ v = worldMap zDown v) ∧
      (∀ v, rotation (toQuaternion (f.applyQuat io q)) *ᵥ toVec (f.applyVec v) =
        worldMap zDown (rotation (toQuaternion (if inverse then conj q else q)) *ᵥ toVec v)) ∧
      (rotation (toQuaternion (f.applyQuat io q)))ᵀ *ᵥ ![0, 0, -1] =
        signs s *ᵥ ((rotation (toQuaternion (if inverse then conj q else q)))ᵀ *ᵥ
          ((rotation (toQuaternion f.qW))ᵀ *ᵥ ![0, 0, -1])) := by
  have hroot : ((2 : ℕ) : ℝ) * io.sqrt (1 / ((2 : ℕ) : ℝ)) * io.sqrt (1 / ((2 : ℕ) : ℝ)) = 1 := by
    rw [hsqrt, mul_assoc, Real.mul_self_sqrt (by norm_num)]
    norm_num
  have hone : io.sqrt 1 = 1 := by rw [hsqrt, Real.sqrt_one]
  obtain ⟨hturning, rfl, rfl, rfl⟩ := turning_of_init hroot h hx hy hz
  exact ⟨(hturning.rotation_corrected hone hq).1, hturning.world, hturning.vectors hone hq,
    hturning.gravity hone hq⟩

noncomputable def exact : Platform ℝ := ⟨fun _ => 0, Real.sqrt, fun _ => 0⟩

noncomputable def tilted : Msg.Quaternion ℝ :=
  { w := ((3 : ℕ) : ℝ) / ((5 : ℕ) : ℝ), x := ((4 : ℕ) : ℝ) / ((5 : ℕ) : ℝ), y := 0, z := 0 }

theorem change_of_frames_tilted :
    ∃ f, init exact ⟨1, -1, -1⟩ true false = .ok f ∧
      ∀ v, rotation (toQuaternion (f.applyQuat exact tilted)) *ᵥ toVec (f.applyVec v) =
        worldMap true (rotation (toQuaternion tilted) *ᵥ toVec v) := by
  have hproper : Proper (⟨1, -1, -1⟩ : Vector3 ℝ) :=
    ⟨.inl rfl, .inr rfl, .inr rfl, by norm_num⟩
  obtain ⟨f, hf⟩ := init_proper exact hproper true false
  have hunit : normSq (toQuaternion tilted) = 1 := by
    norm_num [normSq_toQuaternion, tilted]
  exact ⟨f, hf, (change_of_frames rfl hf (.inl rfl) (.inr rfl) (.inr rfl) hunit).2.2.1⟩

end ImuFrameFix
end MybipedalDeploy.Imu
