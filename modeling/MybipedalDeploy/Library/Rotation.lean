import Mathlib.Algebra.Quaternion
import Mathlib.LinearAlgebra.Matrix.Notation

/-!
# Rotations by quaternions

The matrix of a quaternion, for vectors of three components. It is quadratic in the
quaternion, so the laws below hold of quaternions of any norm.
-/

namespace MybipedalDeploy.Rotation
open Matrix Quaternion

variable {K : Type*} [CommRing K]

def rotation (q : ℍ[K]) : Matrix (Fin 3) (Fin 3) K :=
  !![q.re * q.re + q.imI * q.imI - q.imJ * q.imJ - q.imK * q.imK,
      ((2 : ℕ) : K) * (q.imI * q.imJ - q.re * q.imK), ((2 : ℕ) : K) * (q.imI * q.imK + q.re * q.imJ);
    ((2 : ℕ) : K) * (q.imI * q.imJ + q.re * q.imK),
      q.re * q.re - q.imI * q.imI + q.imJ * q.imJ - q.imK * q.imK,
      ((2 : ℕ) : K) * (q.imJ * q.imK - q.re * q.imI);
    ((2 : ℕ) : K) * (q.imI * q.imK - q.re * q.imJ), ((2 : ℕ) : K) * (q.imJ * q.imK + q.re * q.imI),
      q.re * q.re - q.imI * q.imI - q.imJ * q.imJ + q.imK * q.imK]

theorem rotation_one : rotation (1 : ℍ[K]) = 1 := by
  ext i j
  fin_cases i <;> fin_cases j <;> simp [rotation]

theorem rotation_mul (a b : ℍ[K]) : rotation (a * b) = rotation a * rotation b := by
  ext i j
  fin_cases i <;> fin_cases j <;> simp [rotation, Matrix.mul_apply, Fin.sum_univ_three] <;> ring

theorem rotation_star (q : ℍ[K]) : rotation (star q) = (rotation q)ᵀ := by
  ext i j
  fin_cases i <;> fin_cases j <;> simp [rotation] <;> ring

theorem rotation_transpose_down (q : ℍ[K]) :
    (rotation q)ᵀ *ᵥ ![0, 0, -1] =
      ![((2 : ℕ) : K) * (q.re * q.imJ - q.imI * q.imK),
        -(((2 : ℕ) : K) * (q.imJ * q.imK + q.re * q.imI)),
        -(q.re * q.re - q.imI * q.imI - q.imJ * q.imJ + q.imK * q.imK)] := by
  ext i
  fin_cases i <;> simp [rotation, Matrix.mulVec, dotProduct, Fin.sum_univ_three]
  ring

end MybipedalDeploy.Rotation
