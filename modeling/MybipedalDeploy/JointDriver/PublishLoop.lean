import MybipedalDeploy.JointDriver.CommandPath
import MybipedalDeploy.JointDriver.Dating

/-!
# The publisher beside the other threads

`PublishLoop` calls three getters for each actuator, one locked section each, carries the
readings to the joints and publishes them. Between its sections the command callback and
the threads of the controller take any number of steps. What `actuator_debug` publishes of
the commands is left out: it is read without the lock that the callback writes under.
`received` is a history that no step reads; a message is kept with its length at the time.
-/

namespace MybipedalDeploy.JointDriver
open Msg (JointState JointCommand)

inductive Getter
  | effort | velocity | position
  deriving DecidableEq

inductive Publisher
  | test
  | next (todo : List String)
  | get (g : Getter) (name : String) (todo : List String)
  | transform
  | publish
  | finished

namespace Getter

def store {K : Type*} (g : Getter) (r : Reading K) (d : JointData K) : JointData K :=
  match g with
  | .effort => { d with effort := r.effort }
  | .velocity => { d with velocity := r.velocity }
  | .position => { d with position := r.position }

def put {K : Type*} (g : Getter) (r old : Reading K) : Reading K :=
  match g with
  | .effort => { old with effort := r.effort }
  | .velocity => { old with velocity := r.velocity }
  | .position => { old with position := r.position }

def andThen (g : Getter) (name : String) (todo : List String) : Publisher :=
  match g with
  | .effort => .get .velocity name todo
  | .velocity => .get .position name todo
  | .position => .next todo

end Getter

/-- The messages of one round; those of the actuators only for debugging. -/
structure Published (K : Type*) where
  jointStates : JointState K
  actuatorStates : Option (JointState K)

def jointState {K : Type*} (names : List String) (reading : String → Reading K) : JointState K where
  name := names
  position := names.map fun name => (reading name).position
  velocity := names.map fun name => (reading name).velocity
  effort := names.map fun name => (reading name).effort

namespace JointDriverModule
variable {K : Type*} [Field K]

def message (actuatorDebug : Bool) (s : JointDriverModule K) : Published K where
  jointStates := jointState s.jointNameList (DataSpace.readingAt s.jointDataSpace)
  actuatorStates :=
    if actuatorDebug then
      some (jointState s.actuatorNameList (DataSpace.readingAt s.actuatorDataSpace))
    else none

variable [LinearOrder K] [FloorSemiring K]

def refresh (g : Getter) (name : String) (s : JointDriverModule K) : JointDriverModule K :=
  { s with
    ctrl := s.ctrl.apply (.get name)
    actuatorDataSpace := DataSpace.modifyState s.actuatorDataSpace name
      (g.store (s.ctrl.getReading name)) }

end JointDriverModule

structure PublishSystem (K : Type*) where
  driver : JointDriverModule K
  actuatorDebug : Bool
  callback : Callback K
  publisher : Publisher
  published : List (Published K × ℕ)
  received : List (String × CanFrame)

namespace PublishSystem
variable {K : Type*}

inductive Action (K : Type*)
  | event (e : XyberController.Event K)
  | message (msg : JointCommand K)
  | callback
  | publisher
  | stop

def started (s : JointDriverModule K) (actuatorDebug : Bool) : PublishSystem K where
  driver := s.start
  actuatorDebug := actuatorDebug
  callback := .idle
  publisher := .test
  published := []
  received := []

variable [Field K] [LinearOrder K] [FloorSemiring K]

def publisherStep (c : PublishSystem K) : PublishSystem K :=
  match c.publisher with
  | .test =>
    if c.driver.isRunning then
      { c with publisher := .next (DataSpace.names c.driver.actuatorDataSpace) }
    else { c with publisher := .finished }
  | .next [] => { c with publisher := .transform }
  | .next (name :: todo) => { c with publisher := .get .effort name todo }
  | .get g name todo => { c with driver := c.driver.refresh g name, publisher := g.andThen name todo }
  | .transform => { c with driver := c.driver.transformActuatorToJoint, publisher := .publish }
  | .publish =>
    { c with
      published := c.published ++ [(c.driver.message c.actuatorDebug, c.received.length)]
      publisher := .test }
  | .finished => c

def callbackStep (c : PublishSystem K) : PublishSystem K :=
  let r := c.callback.step c.driver
  { c with callback := r.1, driver := r.2 }

/-- One message at a time is in the callback. -/
def step (c : PublishSystem K) : Action K → Option (PublishSystem K)
  | .event e =>
    some { c with
      driver := c.driver.withCtrl (c.driver.ctrl.apply e)
      received := c.received ++ e.frames }
  | .message msg =>
    match c.callback with
    | .idle => some { c with callback := .test msg }
    | _ => none
  | .callback => some c.callbackStep
  | .publisher => some c.publisherStep
  | .stop => some { c with driver := { c.driver with isRunning := false } }

end PublishSystem

namespace DataSpace
variable {K : Type*} [Field K]

@[simp] theorem readingAt_modifyCmd (data : List (String × DataSpace K)) (name other : String)
    (f : JointData K → JointData K) : readingAt (modifyCmd data name f) other = readingAt data other := by
  unfold readingAt
  rw [find_modifyCmd]
  split_ifs
  · cases find data other <;> rfl
  · rfl

theorem readingAt_store {data : List (String × DataSpace K)} {name : String} (h : name ∈ names data)
    (g : Getter) (r : Reading K) :
    readingAt (modifyState data name (g.store r)) name = g.put r (readingAt data name) := by
  rw [readingAt_modifyState h, if_pos rfl]
  cases g <;> rfl

theorem readingAt_of_notMem {data : List (String × DataSpace K)} {name : String}
    (h : name ∉ names data) : readingAt data name = ⟨0, 0, 0⟩ := by
  have hnone : find data name = none := by
    rw [← Option.not_isSome_iff_eq_none]
    exact fun hsome => h (AssociationList.lookup_isSome_iff_mem.mp hsome)
  unfold readingAt
  rw [hnone]
  rfl

theorem readingAt_store_ne {data : List (String × DataSpace K)} {name other : String}
    (h : other ∈ names data) (hne : other ≠ name) (g : Getter) (r : Reading K) :
    readingAt (modifyState data name (g.store r)) other = readingAt data other := by
  rw [readingAt_modifyState h, if_neg hne]

end DataSpace

namespace JointDriverModule
variable {K : Type*}

structure SameNames (s s' : JointDriverModule K) : Prop where
  transmission : s'.transmission = s.transmission
  jointNameList : s'.jointNameList = s.jointNameList
  actuatorNameList : s'.actuatorNameList = s.actuatorNameList
  joints : DataSpace.names s'.jointDataSpace = DataSpace.names s.jointDataSpace
  actuators : DataSpace.names s'.actuatorDataSpace = DataSpace.names s.actuatorDataSpace

theorem SameNames.trans {s s' s'' : JointDriverModule K} (h : s.SameNames s') (h' : s'.SameNames s'') :
    s.SameNames s'' :=
  ⟨h'.transmission.trans h.transmission, h'.jointNameList.trans h.jointNameList,
    h'.actuatorNameList.trans h.actuatorNameList, h'.joints.trans h.joints,
    h'.actuators.trans h.actuators⟩

variable [Field K]

structure SameReadings (s s' : JointDriverModule K) : Prop extends s.SameNames s' where
  joint : ∀ name, DataSpace.readingAt s'.jointDataSpace name = DataSpace.readingAt s.jointDataSpace name
  actuator : ∀ name,
    DataSpace.readingAt s'.actuatorDataSpace name = DataSpace.readingAt s.actuatorDataSpace name

namespace SameReadings
variable {s s' : JointDriverModule K}

theorem refl (s : JointDriverModule K) : s.SameReadings s :=
  ⟨⟨rfl, rfl, rfl, rfl, rfl⟩, fun _ => rfl, fun _ => rfl⟩

theorem withCtrl (h : s.SameReadings s') (w : XyberController K) :
    s.SameReadings (s'.withCtrl w) :=
  ⟨⟨h.transmission, h.jointNameList, h.actuatorNameList, h.joints, h.actuators⟩, h.joint, h.actuator⟩

theorem cacheIndexed (h : s.SameReadings s') (msg : JointCommand K) (e : String × ℕ) :
    s.SameReadings (JointDriverModule.cacheIndexed msg s' e) := by
  refine ⟨⟨h.transmission, h.jointNameList, h.actuatorNameList, ?_, h.actuators⟩, fun name => ?_,
    h.actuator⟩
  · rw [cacheIndexed_data, DataSpace.names_modifyCmd]
    exact h.joints
  · rw [cacheIndexed_data, DataSpace.readingAt_modifyCmd]
    exact h.joint name

theorem pushJoint (h : s.SameReadings s') (t : SimpleTransmission K) :
    s.SameReadings (s'.pushJoint t) := by
  obtain ⟨_, hs⟩ | ⟨d, _, hs⟩ := pushJoint_cases s' t
  · rw [hs]
    exact h
  · rw [hs]
    refine ⟨⟨h.transmission, h.jointNameList, h.actuatorNameList, h.joints, ?_⟩, h.joint, fun name => ?_⟩
    · rw [DataSpace.names_modifyCmd]
      exact h.actuators
    · rw [DataSpace.readingAt_modifyCmd]
      exact h.actuator name

end SameReadings

theorem sameReadings_cacheCommand (msg : JointCommand K) (s : JointDriverModule K) :
    s.SameReadings (s.cacheCommand msg) :=
  Runs.foldl_invariant (cacheIndexed msg) s.SameReadings (.refl s)
    (fun _ e h => h.cacheIndexed msg e) msg.name.zipIdx

theorem sameReadings_transformJointToActuator (s : JointDriverModule K) :
    s.SameReadings s.transformJointToActuator :=
  Runs.foldl_invariant pushJoint s.SameReadings (.refl s) (fun _ t h => h.pushJoint t) s.transmission

end JointDriverModule

namespace Callback
open JointDriverModule (SameReadings)
variable {K : Type*} [Field K] [LinearOrder K] [FloorSemiring K]

theorem step_sameReadings (c : Callback K) (s : JointDriverModule K) :
    s.SameReadings (c.step s).2 ∧ ((c.step s).2.ctrl = s.ctrl ∨
      ∃ e : XyberController.Event K, e.frames = [] ∧ (c.step s).2.ctrl = s.ctrl.apply e) := by
  cases c with
  | idle => exact ⟨.refl s, .inl rfl⟩
  | test msg => exact ⟨.refl s, .inl rfl⟩
  | cache msg => exact ⟨JointDriverModule.sameReadings_cacheCommand msg s, .inl (by simp [step])⟩
  | transform =>
    exact ⟨JointDriverModule.sameReadings_transformJointToActuator s, .inl (by simp [step])⟩
  | send names =>
    cases names with
    | nil => exact ⟨.refl s, .inl rfl⟩
    | cons name names =>
      simp only [step, JointDriverModule.sendCommand]
      split
      next => exact ⟨.refl s, .inl rfl⟩
      next data _ =>
        exact ⟨(SameReadings.refl s).withCtrl _, .inr ⟨.setMitCmd name data.cmd.position
          data.cmd.velocity data.cmd.effort data.cmd.kp data.cmd.kd, rfl, rfl⟩⟩

end Callback
end MybipedalDeploy.JointDriver
