import MybipedalDeploy.JointDriver.JointDriverModule
import MybipedalDeploy.Messages

/-!
# The command callback

`JointCmdCallback` caches a message per joint, maps the cache to the actuators
and writes one MIT command for each of them. The publisher's side of the
transmissions is left out: it never writes a command.
-/

namespace MybipedalDeploy.JointDriver
open Msg (JointCommand)

namespace DataSpace
variable {K : Type*}

def find (data : List (String × DataSpace K)) (name : String) : Option (DataSpace K) :=
  data.lookup name

def modifyCmd (data : List (String × DataSpace K)) (name : String)
    (f : JointData K → JointData K) : List (String × DataSpace K) :=
  data.map fun e => if e.1 = name then (e.1, { e.2 with cmd := f e.2.cmd }) else e

end DataSpace

namespace SimpleTransmission
variable {K : Type*} [Field K]

def transformJointToActuator (t : SimpleTransmission K) (joint : JointData K) : JointData K where
  effort := joint.effort * t.direction
  velocity := joint.velocity * t.direction
  position := joint.position * t.direction
  kp := joint.kp
  kd := joint.kd

end SimpleTransmission

namespace JointDriverModule
variable {K : Type*} [Field K]

def cacheEntry (msg : JointCommand K) (s : JointDriverModule K) (i : ℕ) (name : String) :
    JointDriverModule K :=
  { s with jointDataSpace := DataSpace.modifyCmd s.jointDataSpace name fun _ =>
      { effort := msg.effort.getD i 0
        velocity := msg.velocity.getD i 0
        position := msg.position.getD i 0
        kp := msg.stiffness.getD i 0
        kd := msg.damping.getD i 0 } }

def cacheCommand (msg : JointCommand K) (s : JointDriverModule K) : JointDriverModule K :=
  msg.name.zipIdx.foldl (fun s e => s.cacheEntry msg e.2 e.1) s

def transformJointToActuator (s : JointDriverModule K) : JointDriverModule K :=
  s.transmission.foldl (fun s t =>
    match DataSpace.find s.jointDataSpace t.joint with
    | none => s
    | some joint =>
      { s with actuatorDataSpace := DataSpace.modifyCmd s.actuatorDataSpace t.actuator fun _ =>
          t.transformJointToActuator joint.cmd }) s

@[simp] theorem cacheCommand_ctrl (msg : JointCommand K) (s : JointDriverModule K) :
    (s.cacheCommand msg).ctrl = s.ctrl := by
  unfold cacheCommand
  induction msg.name.zipIdx generalizing s with
  | nil => rfl
  | cons e es ih => exact ih (s.cacheEntry msg e.2 e.1)

@[simp] theorem transformJointToActuator_ctrl (s : JointDriverModule K) :
    s.transformJointToActuator.ctrl = s.ctrl := by
  unfold transformJointToActuator
  generalize s.transmission = ts
  induction ts generalizing s with
  | nil => rfl
  | cons t ts ih =>
    simp only [List.foldl_cons]
    refine (ih _).trans ?_
    split <;> rfl

variable [LinearOrder K] [FloorSemiring K]

/-- One round of the last loop: the command is read when its turn comes. -/
def sendCommand (s : JointDriverModule K) (name : String) : JointDriverModule K :=
  match DataSpace.find s.actuatorDataSpace name with
  | none => s
  | some data => s.withCtrl (s.ctrl.setMitCmd name data.cmd.position data.cmd.velocity
      data.cmd.effort data.cmd.kp data.cmd.kd)

end JointDriverModule

inductive Callback (K : Type*)
  | idle
  | test (msg : JointCommand K)
  | cache (msg : JointCommand K)
  | transform
  | send (names : List String)

namespace Callback
variable {K : Type*} [Field K] [LinearOrder K] [FloorSemiring K]

def step (c : Callback K) (s : JointDriverModule K) : Callback K × JointDriverModule K :=
  match c with
  | .idle => (.idle, s)
  | .test msg => (if s.isRunning then .cache msg else .idle, s)
  | .cache msg => (.transform, s.cacheCommand msg)
  | .transform => (.send (s.actuatorDataSpace.map Prod.fst), s.transformJointToActuator)
  | .send [] => (.idle, s)
  | .send (name :: names) => (.send names, s.sendCommand name)

end Callback
end MybipedalDeploy.JointDriver
