import MybipedalDeploy.JointDriver.JointCommand
import MybipedalDeploy.Library.AssociationList
import MybipedalDeploy.Library.LastWrite
import MybipedalDeploy.Library.Runs

/-!
# The transmissions

The tables of joints and actuators, what the callback and the publisher change in
them, and what the transmissions carry from the one to the other. Transmissions that
share neither joints nor actuators may be registered in any order.
-/

namespace MybipedalDeploy.JointDriver
open LastWrite (lastHit)
open Msg (JointCommand)

structure Reading (K : Type*) where
  effort : K
  velocity : K
  position : K

namespace JointData
variable {K : Type*}

def reading (d : JointData K) : Reading K := ⟨d.effort, d.velocity, d.position⟩

def withReading (d : JointData K) (r : Reading K) : JointData K :=
  { d with effort := r.effort, velocity := r.velocity, position := r.position }

end JointData

namespace DataSpace
variable {K : Type*}

def modifyState (data : List (String × DataSpace K)) (name : String)
    (f : JointData K → JointData K) : List (String × DataSpace K) :=
  data.map fun e => if e.1 = name then (e.1, { e.2 with state := f e.2.state }) else e

def names (data : List (String × DataSpace K)) : List String := data.map Prod.fst

@[simp] theorem names_modifyCmd (data : List (String × DataSpace K)) (name : String)
    (f : JointData K → JointData K) : names (modifyCmd data name f) = names data :=
  AssociationList.keys_modify data name fun d => { d with cmd := f d.cmd }

@[simp] theorem names_modifyState (data : List (String × DataSpace K)) (name : String)
    (f : JointData K → JointData K) : names (modifyState data name f) = names data :=
  AssociationList.keys_modify data name fun d => { d with state := f d.state }

theorem find_modifyCmd (data : List (String × DataSpace K)) (name other : String)
    (f : JointData K → JointData K) :
    find (modifyCmd data name f) other =
      if other = name then (find data other).map fun d => { d with cmd := f d.cmd }
      else find data other :=
  AssociationList.lookup_modify data name other fun d => { d with cmd := f d.cmd }

theorem find_modifyState (data : List (String × DataSpace K)) (name other : String)
    (f : JointData K → JointData K) :
    find (modifyState data name f) other =
      if other = name then (find data other).map fun d => { d with state := f d.state }
      else find data other :=
  AssociationList.lookup_modify data name other fun d => { d with state := f d.state }

theorem find_of_mem_names {data : List (String × DataSpace K)} {name : String}
    (h : name ∈ names data) : ∃ d, find data name = some d :=
  Option.isSome_iff_exists.mp (AssociationList.lookup_isSome_iff_mem.mpr h)

variable [Field K]

def cmdAt (data : List (String × DataSpace K)) (name : String) : JointData K :=
  ((find data name).map cmd).getD .zero

def readingAt (data : List (String × DataSpace K)) (name : String) : Reading K :=
  (((find data name).map state).getD .zero).reading

theorem cmdAt_modifyCmd {data : List (String × DataSpace K)} {other : String}
    (h : other ∈ names data) (name : String) (f : JointData K → JointData K) :
    cmdAt (modifyCmd data name f) other =
      if other = name then f (cmdAt data other) else cmdAt data other := by
  obtain ⟨d, hd⟩ := find_of_mem_names h
  unfold cmdAt
  rw [find_modifyCmd, hd]
  split_ifs <;> rfl

@[simp] theorem cmdAt_modifyState (data : List (String × DataSpace K)) (name other : String)
    (f : JointData K → JointData K) : cmdAt (modifyState data name f) other = cmdAt data other := by
  unfold cmdAt
  rw [find_modifyState]
  split_ifs
  · cases find data other <;> rfl
  · rfl

theorem readingAt_modifyState {data : List (String × DataSpace K)} {other : String}
    (h : other ∈ names data) (name : String) (f : JointData K → JointData K) :
    readingAt (modifyState data name f) other =
      if other = name then (f (((find data other).map state).getD .zero)).reading
      else readingAt data other := by
  obtain ⟨d, hd⟩ := find_of_mem_names h
  unfold readingAt
  rw [find_modifyState, hd]
  split_ifs <;> rfl

end DataSpace

namespace SimpleTransmission
variable {K : Type*} [Field K] (t : SimpleTransmission K)

def transformActuatorToJoint (actuator : Reading K) : Reading K where
  effort := actuator.effort * t.direction
  velocity := actuator.velocity * t.direction
  position := actuator.position * t.direction

end SimpleTransmission

namespace JointDriverModule
variable {K : Type*}

section Frame
variable (s : JointDriverModule K)

def SameButJoints (s' : JointDriverModule K) : Prop :=
  s' = { s with jointDataSpace := s'.jointDataSpace } ∧
    DataSpace.names s'.jointDataSpace = DataSpace.names s.jointDataSpace

def SameButActuators (s' : JointDriverModule K) : Prop :=
  s' = { s with actuatorDataSpace := s'.actuatorDataSpace } ∧
    DataSpace.names s'.actuatorDataSpace = DataSpace.names s.actuatorDataSpace

variable {s}

theorem SameButJoints.modify {s' : JointDriverModule K} (h : s.SameButJoints s')
    {data : List (String × DataSpace K)}
    (hdata : DataSpace.names data = DataSpace.names s'.jointDataSpace) :
    s.SameButJoints { s' with jointDataSpace := data } := by
  refine ⟨?_, hdata.trans h.2⟩
  have hs := h.1
  rw [hs]

theorem SameButActuators.modify {s' : JointDriverModule K} (h : s.SameButActuators s')
    {data : List (String × DataSpace K)}
    (hdata : DataSpace.names data = DataSpace.names s'.actuatorDataSpace) :
    s.SameButActuators { s' with actuatorDataSpace := data } := by
  refine ⟨?_, hdata.trans h.2⟩
  have hs := h.1
  rw [hs]

end Frame

def refreshStates (read : String → Reading K) (s : JointDriverModule K) : JointDriverModule K :=
  { s with actuatorDataSpace := s.actuatorDataSpace.map fun e =>
      (e.1, { e.2 with state := e.2.state.withReading (read e.1) }) }

theorem find_refreshStates (read : String → Reading K) (s : JointDriverModule K) (name : String) :
    DataSpace.find (s.refreshStates read).actuatorDataSpace name =
      (DataSpace.find s.actuatorDataSpace name).map fun d =>
        { d with state := d.state.withReading (read name) } :=
  AssociationList.lookup_mapValues s.actuatorDataSpace
    (fun name d => { d with state := d.state.withReading (read name) }) name

theorem sameButActuators_refreshStates (read : String → Reading K) (s : JointDriverModule K) : s.SameButActuators (s.refreshStates read) := by
  refine ⟨rfl, ?_⟩
  simp [DataSpace.names, refreshStates, Function.comp_def]

variable [Field K]

def transformActuatorToJoint (s : JointDriverModule K) : JointDriverModule K :=
  s.transmission.foldl (fun s t =>
    match DataSpace.find s.actuatorDataSpace t.actuator with
    | none => s
    | some actuator =>
      { s with jointDataSpace := DataSpace.modifyState s.jointDataSpace t.joint fun d =>
          d.withReading (t.transformActuatorToJoint actuator.state.reading) }) s

def publishRound (read : String → Reading K) (s : JointDriverModule K) : JointDriverModule K :=
  (s.refreshStates read).transformActuatorToJoint

def entry (msg : JointCommand K) (i : ℕ) : JointData K where
  effort := msg.effort.getD i 0
  velocity := msg.velocity.getD i 0
  position := msg.position.getD i 0
  kp := msg.stiffness.getD i 0
  kd := msg.damping.getD i 0

def entries (msg : JointCommand K) : List (String × JointData K) :=
  msg.name.zipIdx.map fun e => (e.1, entry msg e.2)

def named (joint : String) (e : String × JointData K) : Option (JointData K) :=
  if e.1 = joint then some e.2 else none

/-- The last entry of a history that names the joint. -/
def lastNamed (history : List (String × JointData K)) (joint : String) : JointData K :=
  (lastHit (named joint) history).getD .zero

def cacheIndexed (msg : JointCommand K) (s : JointDriverModule K) (e : String × ℕ) :
    JointDriverModule K :=
  s.cacheEntry msg e.2 e.1

theorem cacheIndexed_data (msg : JointCommand K) (s : JointDriverModule K) (e : String × ℕ) :
    (cacheIndexed msg s e).jointDataSpace =
      DataSpace.modifyCmd s.jointDataSpace e.1 fun _ => entry msg e.2 :=
  rfl

theorem sameButJoints_cacheCommand (msg : JointCommand K) (s : JointDriverModule K) :
    s.SameButJoints (s.cacheCommand msg) := by
  refine Runs.foldl_invariant (cacheIndexed msg) s.SameButJoints ⟨rfl, rfl⟩ ?_ _
  intro s' e h
  exact h.modify (DataSpace.names_modifyCmd _ _ _)

theorem cmdAt_cacheCommand (msg : JointCommand K) {s : JointDriverModule K} {joint : String}
    (h : joint ∈ DataSpace.names s.jointDataSpace) :
    DataSpace.cmdAt (s.cacheCommand msg).jointDataSpace joint =
      (lastHit (named joint) (entries msg)).getD (DataSpace.cmdAt s.jointDataSpace joint) := by
  unfold entries
  rw [LastWrite.lastHit_map]
  refine LastWrite.view_foldl _ (cacheIndexed msg) (fun s => DataSpace.cmdAt s.jointDataSpace joint)
    (fun s => joint ∈ DataSpace.names s.jointDataSpace) ?_ ?_ msg.name.zipIdx h
  · intro s e hs
    rwa [cacheIndexed_data, DataSpace.names_modifyCmd]
  · intro s e hs
    rw [cacheIndexed_data, DataSpace.cmdAt_modifyCmd hs]
    by_cases heq : joint = e.1
    · subst heq
      simp [named, entry]
    · simp [named, heq, Ne.symm heq]

def pushJoint (s : JointDriverModule K) (t : SimpleTransmission K) : JointDriverModule K :=
  match DataSpace.find s.jointDataSpace t.joint with
  | none => s
  | some joint =>
    { s with actuatorDataSpace := DataSpace.modifyCmd s.actuatorDataSpace t.actuator fun _ =>
        t.transformJointToActuator joint.cmd }

theorem pushJoint_cases (s : JointDriverModule K) (t : SimpleTransmission K) :
    (DataSpace.find s.jointDataSpace t.joint = none ∧ s.pushJoint t = s) ∨
    ∃ d, DataSpace.find s.jointDataSpace t.joint = some d ∧
      s.pushJoint t = { s with
        actuatorDataSpace := DataSpace.modifyCmd s.actuatorDataSpace t.actuator fun _ =>
          t.transformJointToActuator d.cmd } := by
  unfold pushJoint
  cases hd : DataSpace.find s.jointDataSpace t.joint with
  | none => exact .inl ⟨rfl, rfl⟩
  | some d => exact .inr ⟨d, rfl, rfl⟩

theorem sameButActuators_pushJoint {s s' : JointDriverModule K} (h : s.SameButActuators s')
    (t : SimpleTransmission K) : s.SameButActuators (s'.pushJoint t) := by
  obtain ⟨_, hs⟩ | ⟨d, _, hs⟩ := pushJoint_cases s' t
  · rw [hs]
    exact h
  · rw [hs]
    exact h.modify (DataSpace.names_modifyCmd _ _ _)

theorem sameButActuators_transform (s : JointDriverModule K) :
    s.SameButActuators s.transformJointToActuator :=
  Runs.foldl_invariant pushJoint s.SameButActuators ⟨rfl, rfl⟩
    (fun _ t h => sameButActuators_pushJoint h t) s.transmission

def toActuator (data : List (String × DataSpace K)) (actuator : String)
    (t : SimpleTransmission K) : Option (JointData K) :=
  if t.actuator = actuator then
    (DataSpace.find data t.joint).map fun d => t.transformJointToActuator d.cmd
  else none

theorem cmdAt_pushJoint {s s' : JointDriverModule K} (h : s.SameButActuators s') {actuator : String}
    (hactuator : actuator ∈ DataSpace.names s.actuatorDataSpace) (t : SimpleTransmission K) :
    DataSpace.cmdAt (s'.pushJoint t).actuatorDataSpace actuator =
      (toActuator s.jointDataSpace actuator t).getD
        (DataSpace.cmdAt s'.actuatorDataSpace actuator) := by
  have hdata : s'.jointDataSpace = s.jointDataSpace := by rw [h.1]
  rw [← h.2] at hactuator
  unfold toActuator
  obtain ⟨hnone, hs⟩ | ⟨d, hd, hs⟩ := pushJoint_cases s' t
  · rw [hdata] at hnone
    rw [hs, hnone]
    split_ifs <;> rfl
  · rw [hdata] at hd
    rw [hs, hd, DataSpace.cmdAt_modifyCmd hactuator]
    by_cases heq : actuator = t.actuator
    · simp [heq]
    · simp [heq, Ne.symm heq]

theorem cmdAt_transformJointToActuator {s : JointDriverModule K} {t : SimpleTransmission K}
    (ht : t ∈ s.transmission) (hnd : (s.transmission.map (·.actuator)).Nodup)
    (hjoint : t.joint ∈ DataSpace.names s.jointDataSpace)
    (hactuator : t.actuator ∈ DataSpace.names s.actuatorDataSpace) :
    DataSpace.cmdAt s.transformJointToActuator.actuatorDataSpace t.actuator =
      t.transformJointToActuator (DataSpace.cmdAt s.jointDataSpace t.joint) := by
  have hfold := LastWrite.view_foldl _ pushJoint
    (fun s => DataSpace.cmdAt s.actuatorDataSpace t.actuator) s.SameButActuators
    (fun _ u h => sameButActuators_pushJoint h u)
    (fun _ u h => cmdAt_pushJoint h hactuator u) s.transmission ⟨rfl, rfl⟩
  obtain ⟨d, hd⟩ := DataSpace.find_of_mem_names hjoint
  have hcmd : DataSpace.cmdAt s.jointDataSpace t.joint = d.cmd := by simp [DataSpace.cmdAt, hd]
  have hlast : lastHit (toActuator s.jointDataSpace t.actuator) s.transmission =
      some (t.transformJointToActuator d.cmd) := by
    refine LastWrite.lastHit_of_unique _ ht (by simp [toActuator, hd]) ?_
    intro u hu b hb
    unfold toActuator at hb
    split_ifs at hb with hsame
    obtain rfl := List.inj_on_of_nodup_map hnd hu ht hsame
    rw [hd] at hb
    exact (Option.some.inj hb).symm
  rw [hlast, Option.getD_some] at hfold
  rw [hcmd]
  exact hfold

section Publish
variable (read : String → Reading K) (s : JointDriverModule K)

def pullActuator (s : JointDriverModule K) (t : SimpleTransmission K) : JointDriverModule K :=
  match DataSpace.find s.actuatorDataSpace t.actuator with
  | none => s
  | some actuator =>
    { s with jointDataSpace := DataSpace.modifyState s.jointDataSpace t.joint fun d =>
        d.withReading (t.transformActuatorToJoint actuator.state.reading) }

theorem pullActuator_cases (t : SimpleTransmission K) :
    (DataSpace.find s.actuatorDataSpace t.actuator = none ∧ s.pullActuator t = s) ∨
    ∃ d, DataSpace.find s.actuatorDataSpace t.actuator = some d ∧
      s.pullActuator t = { s with
        jointDataSpace := DataSpace.modifyState s.jointDataSpace t.joint fun j =>
          j.withReading (t.transformActuatorToJoint d.state.reading) } := by
  unfold pullActuator
  cases hd : DataSpace.find s.actuatorDataSpace t.actuator with
  | none => exact .inl ⟨rfl, rfl⟩
  | some d => exact .inr ⟨d, rfl, rfl⟩

def OnlyReads (s' : JointDriverModule K) : Prop :=
  s.SameButJoints s' ∧
    ∀ joint, DataSpace.cmdAt s'.jointDataSpace joint = DataSpace.cmdAt s.jointDataSpace joint

variable {read s}

theorem onlyReads_pullActuator {s' : JointDriverModule K} (h : s.OnlyReads s')
    (t : SimpleTransmission K) : s.OnlyReads (s'.pullActuator t) := by
  obtain ⟨_, hs⟩ | ⟨d, _, hs⟩ := pullActuator_cases s' t
  · rw [hs]
    exact h
  · rw [hs]
    refine ⟨h.1.modify (DataSpace.names_modifyState _ _ _), fun joint => ?_⟩
    rw [DataSpace.cmdAt_modifyState]
    exact h.2 joint

theorem onlyReads_transform (s : JointDriverModule K) : s.OnlyReads s.transformActuatorToJoint :=
  Runs.foldl_invariant pullActuator s.OnlyReads ⟨⟨rfl, rfl⟩, fun _ => rfl⟩
    (fun _ t h => onlyReads_pullActuator h t) s.transmission

def fromActuator (data : List (String × DataSpace K)) (joint : String)
    (t : SimpleTransmission K) : Option (Reading K) :=
  if t.joint = joint then
    (DataSpace.find data t.actuator).map fun d => t.transformActuatorToJoint d.state.reading
  else none

theorem readingAt_pullActuator {s' : JointDriverModule K} (h : s.OnlyReads s') {joint : String}
    (hjoint : joint ∈ DataSpace.names s.jointDataSpace) (t : SimpleTransmission K) :
    DataSpace.readingAt (s'.pullActuator t).jointDataSpace joint =
      (fromActuator s.actuatorDataSpace joint t).getD
        (DataSpace.readingAt s'.jointDataSpace joint) := by
  have hdata : s'.actuatorDataSpace = s.actuatorDataSpace := by rw [h.1.1]
  rw [← h.1.2] at hjoint
  unfold fromActuator
  obtain ⟨hnone, hs⟩ | ⟨d, hd, hs⟩ := pullActuator_cases s' t
  · rw [hdata] at hnone
    rw [hs, hnone]
    split_ifs <;> rfl
  · rw [hdata] at hd
    rw [hs, hd, DataSpace.readingAt_modifyState hjoint]
    by_cases heq : joint = t.joint
    · simp [heq, JointData.reading, JointData.withReading]
    · simp [heq, Ne.symm heq]

theorem readingAt_publishRound {t : SimpleTransmission K} (ht : t ∈ s.transmission)
    (hnd : (s.transmission.map (·.joint)).Nodup)
    (hjoint : t.joint ∈ DataSpace.names s.jointDataSpace)
    (hactuator : t.actuator ∈ DataSpace.names s.actuatorDataSpace) :
    DataSpace.readingAt (s.publishRound read).jointDataSpace t.joint =
      t.transformActuatorToJoint (read t.actuator) := by
  have hfold := LastWrite.view_foldl _ pullActuator
    (fun s => DataSpace.readingAt s.jointDataSpace t.joint) (s.refreshStates read).OnlyReads
    (fun _ u h => onlyReads_pullActuator h u)
    (fun _ u h => readingAt_pullActuator h hjoint u) s.transmission
    ⟨⟨rfl, rfl⟩, fun _ => rfl⟩
  obtain ⟨d, hd⟩ := DataSpace.find_of_mem_names hactuator
  have hlast : lastHit (fromActuator (s.refreshStates read).actuatorDataSpace t.joint)
      s.transmission = some (t.transformActuatorToJoint (read t.actuator)) := by
    refine LastWrite.lastHit_of_unique _ ht
      (by simp [fromActuator, find_refreshStates, hd, JointData.reading, JointData.withReading]) ?_
    intro u hu b hb
    unfold fromActuator at hb
    split_ifs at hb with hsame
    obtain rfl := List.inj_on_of_nodup_map hnd hu ht hsame
    rw [find_refreshStates, hd] at hb
    exact (Option.some.inj hb).symm
  rw [hlast, Option.getD_some] at hfold
  exact hfold

end Publish

theorem onlyReads_publishRound (read : String → Reading K) (s : JointDriverModule K) :
    (s.refreshStates read).OnlyReads (s.publishRound read) :=
  onlyReads_transform (s.refreshStates read)

end JointDriverModule
end MybipedalDeploy.JointDriver
