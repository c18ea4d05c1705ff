import Mathlib.Algebra.Notation.Defs

/-!
# The messages on the channels

The fields the modules read. A new message holds zeros, but for the orientation,
whose default is the identity.
-/

namespace MybipedalDeploy.Msg

structure Vector3 (K : Type*) where
  x : K
  y : K
  z : K
  deriving DecidableEq

structure Quaternion (K : Type*) where
  x : K
  y : K
  z : K
  w : K
  deriving DecidableEq

structure Twist (K : Type*) where
  linear : Vector3 K
  angular : Vector3 K
  deriving DecidableEq

structure Imu (K : Type*) where
  orientation : Quaternion K
  angularVelocity : Vector3 K
  linearAcceleration : Vector3 K
  deriving DecidableEq

structure JointState (K : Type*) where
  name : List String
  position : List K
  velocity : List K
  effort : List K

/-- The arrays are parallel to the names; a read past their end is undefined and
taken as zero. -/
structure JointCommand (K : Type*) where
  name : List String
  position : List K
  velocity : List K
  effort : List K
  stiffness : List K
  damping : List K

section Default
variable (K : Type*) [Zero K]

def Vector3.zero : Vector3 K := ⟨0, 0, 0⟩

def Twist.zero : Twist K := ⟨.zero K, .zero K⟩

def Imu.default [One K] : Imu K := ⟨⟨0, 0, 0, 1⟩, .zero K, .zero K⟩

end Default
end MybipedalDeploy.Msg
