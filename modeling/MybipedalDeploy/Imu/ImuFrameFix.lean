import Mathlib.Algebra.Order.Group.Abs
import MybipedalDeploy.Imu.ImuDriver
import MybipedalDeploy.Messages

/-!
# The change of frames

A configured correction turns vectors by signs and the orientation by two quaternion
products.
-/

namespace MybipedalDeploy.Imu
open Msg (Vector3)

structure ImuFrameFix (K : Type) where
  enabled : Bool
  s : Vector3 K
  worldZDown : Bool
  quatInverse : Bool
  qB : Msg.Quaternion K
  qW : Msg.Quaternion K

namespace ImuFrameFix
variable {K : Type} [Field K]

def identity : Msg.Quaternion K where
  w := 1
  x := 0
  y := 0
  z := 0

/-- The correction of a module whose configuration has no `imu_frame`. -/
def off : ImuFrameFix K := ⟨false, ⟨1, 1, 1⟩, false, false, identity, identity⟩

def mul (a b : Msg.Quaternion K) : Msg.Quaternion K where
  w := a.w * b.w - a.x * b.x - a.y * b.y - a.z * b.z
  x := a.w * b.x + a.x * b.w + a.y * b.z - a.z * b.y
  y := a.w * b.y - a.x * b.z + a.y * b.w + a.z * b.x
  z := a.w * b.z + a.x * b.y - a.y * b.x + a.z * b.w

def conj (q : Msg.Quaternion K) : Msg.Quaternion K where
  w := q.w
  x := -q.x
  y := -q.y
  z := -q.z

def applyVec (f : ImuFrameFix K) (v : Vector3 K) : Vector3 K :=
  if f.enabled then ⟨v.x * f.s.x, v.y * f.s.y, v.z * f.s.z⟩ else v

variable [LinearOrder K] (io : Platform K)

def bodyTurn (s : Vector3 K) : Msg.Quaternion K :=
  if 0 < s.x ∧ 0 < s.y then identity
  else if 0 < s.x ∧ s.y < 0 then { w := 0, x := 1, y := 0, z := 0 }
  else if s.x < 0 ∧ 0 < s.y then { w := 0, x := 0, y := 1, z := 0 }
  else { w := 0, x := 0, y := 0, z := 1 }

def init (bodySigns : Vector3 K) (zDown inverse : Bool) : Except String (ImuFrameFix K) :=
  let wrong (v : K) : Bool := decide (1 / ((1000000000 : ℕ) : K) < |(|v| - 1)|)
  if wrong bodySigns.x || wrong bodySigns.y || wrong bodySigns.z then
    .error "imu_frame.body_signs must be +1 or -1"
  else if bodySigns.x * bodySigns.y * bodySigns.z < 0 then
    .error "imu_frame.body_signs must be a proper rotation (product = +1)"
  else
    let r := io.sqrt (1 / ((2 : ℕ) : K))
    .ok { enabled := true
          s := bodySigns
          worldZDown := zDown
          quatInverse := inverse
          qB := bodyTurn bodySigns
          qW := if zDown then { w := 0, x := r, y := r, z := 0 } else identity }

def applyQuat (f : ImuFrameFix K) (q : Msg.Quaternion K) : Msg.Quaternion K :=
  if f.enabled then
    let q := if f.quatInverse then conj q else q
    let o := mul (mul f.qW q) f.qB
    let n := io.sqrt (o.w * o.w + o.x * o.x + o.y * o.y + o.z * o.z)
    if 1 / ((1000000000 : ℕ) : K) < n then { w := o.w / n, x := o.x / n, y := o.y / n, z := o.z / n } else o
  else q

/-- The message made of an observation; the stamp is left out. -/
def message (f : ImuFrameFix K) (imu : ImuObservation K) : Msg.Imu K where
  orientation := f.applyQuat io { w := imu.qw, x := imu.qx, y := imu.qy, z := imu.qz }
  angularVelocity := f.applyVec ⟨imu.gyrX, imu.gyrY, imu.gyrZ⟩
  linearAcceleration := f.applyVec ⟨imu.accX, imu.accY, imu.accZ⟩

end ImuFrameFix
end MybipedalDeploy.Imu
