import Mathlib.Algebra.Order.Field.Basic
import Mathlib.LinearAlgebra.Matrix.Adjugate
import MybipedalDeploy.Messages

/-!
# Rotation tools

The direction of gravity in the body frame, through the Euler angles of the
measured orientation. The functions of the mathematical library are parameters.
-/

namespace MybipedalDeploy.Control
open Matrix

structure Platform (K : Type*) where
  sin : K → K
  cos : K → K
  asin : K → K
  atan2 : K → K → K
  sqrt : K → K
  fmod : K → K → K
  pi : K

def square {K : Type*} [Mul K] (a : K) : K := a * a

def inverse {K : Type*} [Field K] (m : Matrix (Fin 3) (Fin 3) K) : Matrix (Fin 3) (Fin 3) K :=
  m.det⁻¹ • m.adjugate

theorem inverse_mul {K : Type*} [Field K] {m : Matrix (Fin 3) (Fin 3) K} (h : m.det ≠ 0) :
    inverse m * m = 1 := by
  rw [inverse, Matrix.smul_mul, Matrix.adjugate_mul, smul_smul, inv_mul_cancel₀ h, one_smul]

namespace Platform
variable {K : Type*} [Field K] (io : Platform K)

def getRotationMatrixFromZyxEulerAngles (eulerAngles : Fin 3 → K) : Matrix (Fin 3) (Fin 3) K :=
  let c1 := io.cos (eulerAngles 0)
  let c2 := io.cos (eulerAngles 1)
  let c3 := io.cos (eulerAngles 2)
  let s1 := io.sin (eulerAngles 0)
  let s2 := io.sin (eulerAngles 1)
  let s3 := io.sin (eulerAngles 2)
  !![c1 * c2, c1 * (s2 * s3) - s1 * c3, c1 * (s2 * c3) + s1 * s3;
     s1 * c2, s1 * (s2 * s3) + c1 * c3, s1 * (s2 * c3) - c1 * s3;
     -s2, c2 * s3, c2 * c3]

variable [LinearOrder K]

def quatToZyx (q : Msg.Quaternion K) : Fin 3 → K :=
  let as := min (-2.0 * (q.x * q.z - q.w * q.y)) 0.99999
  ![io.atan2 (2.0 * (q.x * q.y + q.w * q.z)) (square q.w + square q.x - square q.y - square q.z),
    io.asin as,
    io.atan2 (2.0 * (q.y * q.z + q.w * q.x)) (square q.w - square q.x - square q.y + square q.z)]

def projectedGravity (orientation : Msg.Quaternion K) : Fin 3 → K :=
  inverse (io.getRotationMatrixFromZyxEulerAngles (io.quatToZyx orientation)) *ᵥ ![0, 0, -1]

end Platform
end MybipedalDeploy.Control
