import Mathlib.Algebra.Order.Field.Basic
import Mathlib.Tactic.NormNum
import Mathlib.Tactic.Ring
import MybipedalDeploy.Messages

/-!
# The controllers' common part and the position controller

A controller holds the last messages it was handed. The position controller
moves from the joint angles it captured at its restart to its target in two
seconds of updates, or keeps the captured ones. Doubles are field elements.
-/

namespace MybipedalDeploy.Control
open Msg (Twist Imu JointState JointCommand)

/-- `unordered_map<string, int>` by its entries. -/
abbrev IndexMap := List (String × ℤ)

namespace IndexMap

def at? (m : IndexMap) (name : String) : Option ℤ := m.lookup name

def set (m : IndexMap) (name : String) (i : ℤ) : IndexMap :=
  if m.any (·.1 == name) then m.map fun e => if e.1 == name then (name, i) else e
  else m ++ [(name, i)]

end IndexMap

/-- `v[i]`; an index outside the array is undefined and reads as zero. -/
def readAt {K : Type*} [Zero K] (v : List K) (i : ℤ) : K :=
  if 0 ≤ i then v.getD i.toNat 0 else 0

def writeAt {K : Type*} (v : List K) (i : ℤ) (x : K) : List K :=
  if 0 ≤ i then v.set i.toNat x else v

def readN {K : Type*} [Zero K] (n : ℕ) (v : List K) : List K :=
  (List.range n).map fun i => v.getD i 0

def zeros {K : Type*} [Zero K] (n : ℕ) : List K := List.replicate n 0

structure Sample (K : Type*) where
  velocity : Twist K
  imu : Imu K
  deriving DecidableEq

structure ControllerBase (K : Type*) where
  jointNames : List String
  initState : List K
  stiffness : List K
  damping : List K
  joyData : Twist K
  imuData : Imu K
  jointStateData : JointState K

namespace ControllerBase
variable {K : Type*} [Zero K]

def new [One K] (jointNames : List String) (initState stiffness damping : List K) :
    ControllerBase K where
  jointNames := jointNames
  initState := initState
  stiffness := stiffness
  damping := damping
  joyData := .zero K
  imuData := .default K
  jointStateData :=
    ⟨jointNames, zeros jointNames.length, zeros jointNames.length, zeros jointNames.length⟩

variable (b : ControllerBase K)

def sample : Sample K := ⟨b.joyData, b.imuData⟩

def setCmdData (joy : Twist K) : ControllerBase K := { b with joyData := joy }

def setImuData (imu : Imu K) : ControllerBase K := { b with imuData := imu }

def storeJoint (msg : JointState K) (ii : ℕ) (index : ℤ) : ControllerBase K :=
  { b with jointStateData := { b.jointStateData with
      position := b.jointStateData.position.set ii (readAt msg.position index)
      velocity := b.jointStateData.velocity.set ii (readAt msg.velocity index)
      effort := b.jointStateData.effort.set ii (readAt msg.effort index) } }

def storeJoints (msg : JointState K) (indices : IndexMap) :
    List (String × ℕ) → ControllerBase K → Bool × ControllerBase K
  | [], b => (true, b)
  | (name, ii) :: joints, b =>
    match indices.at? name with
    | none => (false, b)
    | some index => storeJoints msg indices joints (b.storeJoint msg ii index)

def setJointStateData (msg : JointState K) (indices : IndexMap) : Bool × ControllerBase K :=
  storeJoints msg indices b.jointNames.zipIdx b

theorem storeJoints_eq (msg : JointState K) (indices : IndexMap)
    (joints : List (String × ℕ)) (b : ControllerBase K) :
    ∃ data, (storeJoints msg indices joints b).2 = { b with jointStateData := data } := by
  induction joints generalizing b with
  | nil => exact ⟨_, rfl⟩
  | cons joint joints ih =>
    simp only [storeJoints]
    cases indices.at? joint.1 with
    | none => exact ⟨_, rfl⟩
    | some index =>
      obtain ⟨data, hdata⟩ := ih (b.storeJoint msg joint.2 index)
      exact ⟨data, hdata⟩

theorem storeJoints_sample (msg : JointState K) (indices : IndexMap)
    (joints : List (String × ℕ)) (b : ControllerBase K) :
    (storeJoints msg indices joints b).2.sample = b.sample := by
  obtain ⟨data, hdata⟩ := storeJoints_eq msg indices joints b
  rw [hdata]
  rfl

end ControllerBase

structure PDController (K : Type*) where
  base : ControllerBase K
  isKeepController : Bool
  transModePercent : K
  startJointAngles : List K

namespace PDController
variable {K : Type*}

def new [Zero K] (base : ControllerBase K) (isKeep : Bool) : PDController K :=
  ⟨base, isKeep, 0, zeros base.jointNames.length⟩

def restartController [Zero K] (c : PDController K) : PDController K :=
  { c with startJointAngles := c.base.jointStateData.position, transModePercent := 0 }

section Field
variable [Field K] [LinearOrder K] (c : PDController K)

def transModeDurationS : K := 2

def update : PDController K :=
  if c.isKeepController then c
  else { c with transModePercent := min (c.transModePercent + 1 / transModeDurationS / 1000) 1 }

def posDes (ii : ℕ) : K :=
  if c.isKeepController then c.startJointAngles.getD ii 0
  else c.startJointAngles.getD ii 0 * (1 - c.transModePercent) +
    c.base.initState.getD ii 0 * c.transModePercent

def getJointCmdData : JointCommand K where
  name := c.base.jointNames
  position := (List.range c.base.jointNames.length).map c.posDes
  velocity := zeros c.base.jointNames.length
  effort := zeros c.base.jointNames.length
  stiffness := readN c.base.jointNames.length c.base.stiffness
  damping := readN c.base.jointNames.length c.base.damping

def percentAfter (n : ℕ) : K := min (n / 2000) 1

/-- The command of a controller that captured `start` and was updated `n` times since. -/
def ramp (start : List K) (n : ℕ) (ii : ℕ) : K :=
  if c.isKeepController then start.getD ii 0
  else start.getD ii 0 * (1 - percentAfter n) + c.base.initState.getD ii 0 * percentAfter n

def Ramping (start : List K) (n : ℕ) : Prop :=
  c.startJointAngles = start ∧ (c.isKeepController = false → c.transModePercent = percentAfter n)

theorem Ramping.position {c : PDController K} {start : List K} {n : ℕ} (h : c.Ramping start n) :
    c.getJointCmdData.position = (List.range c.base.jointNames.length).map (c.ramp start n) := by
  refine List.map_congr_left fun ii _ => ?_
  unfold posDes ramp
  cases hkeep : c.isKeepController with
  | true => simp [h.1]
  | false => simp [h.1, h.2 hkeep]

end Field

section Ramp
variable [Field K] [LinearOrder K] [IsStrictOrderedRing K]

theorem percentAfter_zero : percentAfter (K := K) 0 = 0 := by
  simp [percentAfter]

theorem percentAfter_succ (n : ℕ) :
    min (percentAfter n + 1 / transModeDurationS / 1000) 1 = percentAfter (K := K) (n + 1) := by
  have hsum : (n : K) / 2000 + 1 / 2 / 1000 = ((n + 1 : ℕ) : K) / 2000 := by
    push_cast
    ring
  unfold percentAfter transModeDurationS
  rw [min_add, min_assoc, hsum]
  congr 1
  exact min_eq_right (by norm_num)

theorem restartController_ramping (c : PDController K) :
    c.restartController.Ramping c.base.jointStateData.position 0 :=
  ⟨rfl, fun _ => percentAfter_zero.symm⟩

theorem Ramping.update {c : PDController K} {start : List K} {n : ℕ} (h : c.Ramping start n) :
    c.update.Ramping start (n + 1) := by
  cases hkeep : c.isKeepController with
  | true => exact ⟨by simpa [PDController.update, hkeep] using h.1,
      by simp [PDController.update, hkeep]⟩
  | false =>
    refine ⟨by simpa [PDController.update, hkeep] using h.1, fun _ => ?_⟩
    simp [PDController.update, hkeep, h.2 hkeep, ← percentAfter_succ]

end Ramp
end PDController
end MybipedalDeploy.Control
