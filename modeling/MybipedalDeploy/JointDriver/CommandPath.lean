import Mathlib.Data.Rat.Floor
import Mathlib.Tactic.Ring
import MybipedalDeploy.JointDriver.Transmission

/-!
# The path of a joint command

A joint keeps the last entry that names it, and after each message its actuator is
commanded that entry in its own direction. The sign that takes the command there
brings the reading back, and the motor applies the impedance law of the joint.
-/

namespace MybipedalDeploy.JointDriver
open LastWrite (lastHit)
open Msg (JointCommand)

namespace JointData
variable {K : Type*}

def signed [Mul K] (direction : K) (d : JointData K) : JointData K :=
  ⟨direction * d.effort, direction * d.velocity, direction * d.position, d.kp, d.kd⟩

def torque [Ring K] (d : JointData K) (position velocity : K) : K :=
  d.kp * (d.position - position) + d.kd * (d.velocity - velocity) + d.effort

end JointData

namespace JointDriverModule
variable {K : Type*} [Field K]

section Callback

def prepared (s : JointDriverModule K) (msg : JointCommand K) : JointDriverModule K :=
  (s.cacheCommand msg).transformJointToActuator

def mitCommand (s : JointDriverModule K) (name : String) : Option (String × JointData K) :=
  (DataSpace.find s.actuatorDataSpace name).map fun d => (name, d.cmd)

/-- The MIT commands a call of the callback issues. -/
def issued (s : JointDriverModule K) (msg : JointCommand K) : List (String × JointData K) :=
  if s.isRunning then
    (DataSpace.names (s.prepared msg).actuatorDataSpace).filterMap (s.prepared msg).mitCommand
  else []

theorem issued_filter {s : JointDriverModule K} {msg : JointCommand K} {actuator : String}
    (hrun : s.isRunning = true)
    (hnd : (DataSpace.names (s.prepared msg).actuatorDataSpace).Nodup)
    (hactuator : actuator ∈ DataSpace.names (s.prepared msg).actuatorDataSpace) :
    (s.issued msg).filter (fun c => c.1 = actuator) =
      [(actuator, DataSpace.cmdAt (s.prepared msg).actuatorDataSpace actuator)] := by
  obtain ⟨d, hd⟩ := DataSpace.find_of_mem_names hactuator
  have hmit (name : String) : ((s.prepared msg).mitCommand name).filter (fun c => c.1 = actuator) =
      if name = actuator then some (actuator, d.cmd) else none := by
    unfold mitCommand
    by_cases heq : name = actuator
    · simp [heq, hd]
    · cases DataSpace.find (s.prepared msg).actuatorDataSpace name <;> simp [heq]
  have hcmd : DataSpace.cmdAt (s.prepared msg).actuatorDataSpace actuator = d.cmd := by
    simp [DataSpace.cmdAt, hd]
  have hone : (DataSpace.names (s.prepared msg).actuatorDataSpace).filter (· = actuator) =
      [actuator] := by
    rw [List.filter_eq, List.count_eq_one_of_mem hnd hactuator, List.replicate_one]
  calc (s.issued msg).filter (fun c => c.1 = actuator)
      = (DataSpace.names (s.prepared msg).actuatorDataSpace).filterMap fun name =>
          if name = actuator then some (actuator, d.cmd) else none := by
        simp only [issued, hrun, if_true, List.filter_filterMap, hmit]
    _ = ((DataSpace.names (s.prepared msg).actuatorDataSpace).filter (· = actuator)).filterMap
          fun _ => some (actuator, d.cmd) := by
        simp only [List.filterMap_filter, decide_eq_true_eq]
    _ = [(actuator, DataSpace.cmdAt (s.prepared msg).actuatorDataSpace actuator)] := by
        rw [hone, hcmd]
        rfl

variable [LinearOrder K] [FloorSemiring K]

def jointCmdCallback (s : JointDriverModule K) (msg : JointCommand K) : JointDriverModule K :=
  if s.isRunning then
    (DataSpace.names (s.prepared msg).actuatorDataSpace).foldl sendCommand (s.prepared msg)
  else s

def setMitCmd (w : XyberController K) (c : String × JointData K) : XyberController K :=
  w.setMitCmd c.1 c.2.position c.2.velocity c.2.effort c.2.kp c.2.kd

theorem foldl_sendCommand (names : List String) (s : JointDriverModule K) :
    names.foldl sendCommand s =
      s.withCtrl ((names.filterMap s.mitCommand).foldl setMitCmd s.ctrl) := by
  induction names generalizing s with
  | nil => rfl
  | cons name names ih =>
    rw [List.foldl_cons, ih]
    unfold sendCommand
    cases hd : DataSpace.find s.actuatorDataSpace name with
    | none => simp [mitCommand, hd]
    | some d =>
      have hmit : s.mitCommand name = some (name, d.cmd) := by simp [mitCommand, hd]
      rw [List.filterMap_cons_some hmit]
      rfl

theorem jointCmdCallback_ctrl (s : JointDriverModule K) (msg : JointCommand K) :
    (s.jointCmdCallback msg).ctrl = (s.issued msg).foldl setMitCmd s.ctrl := by
  unfold jointCmdCallback issued
  split_ifs
  · rw [foldl_sendCommand]
    simp [withCtrl, prepared]
  · rfl

theorem send_finishes (names : List String) (s : JointDriverModule K) :
    (fun c => Callback.step c.1 c.2)^[names.length + 1] (Callback.send names, s) =
      (.idle, names.foldl sendCommand s) := by
  induction names generalizing s with
  | nil => rfl
  | cons name names ih =>
    rw [List.length_cons, Function.iterate_succ_apply]
    exact ih (s.sendCommand name)

theorem callback_finishes (s : JointDriverModule K) (msg : JointCommand K) :
    ∃ n, (fun c => Callback.step c.1 c.2)^[n] (Callback.test msg, s) =
      (.idle, s.jointCmdCallback msg) := by
  unfold jointCmdCallback
  cases hrun : s.isRunning with
  | false => exact ⟨1, by simp [Callback.step, hrun]⟩
  | true =>
    have hnames : DataSpace.names (s.prepared msg).actuatorDataSpace =
        DataSpace.names (s.cacheCommand msg).actuatorDataSpace :=
      (sameButActuators_transform (s.cacheCommand msg)).2
    refine ⟨(DataSpace.names (s.prepared msg).actuatorDataSpace).length + 1 + 3, ?_⟩
    rw [Function.iterate_add_apply, hnames, if_pos rfl]
    refine Eq.trans ?_ (send_finishes _ (s.prepared msg))
    simp only [Function.iterate_succ_apply, Function.iterate_zero, id_eq, Callback.step, hrun,
      if_true]
    rfl

end Callback

section Bound

/-- What `InitTransmission` leaves: distinct names, zero commands, and transmissions
that are bound to entries of both tables. -/
structure Bound (s : JointDriverModule K) : Prop where
  actuators : (DataSpace.names s.actuatorDataSpace).Nodup
  zero : ∀ joint, DataSpace.cmdAt s.jointDataSpace joint = .zero
  bound : ∀ t ∈ s.transmission, t.joint ∈ DataSpace.names s.jointDataSpace ∧
    t.actuator ∈ DataSpace.names s.actuatorDataSpace

theorem createData_zero (names : List String) :
    (∀ e ∈ createData names ([] : List (String × DataSpace K)), e.2 = .zero) ∧
      (DataSpace.names (createData names ([] : List (String × DataSpace K)))).Nodup := by
  refine Runs.foldl_invariant _
    (fun data : List (String × DataSpace K) =>
      (∀ e ∈ data, e.2 = .zero) ∧ (DataSpace.names data).Nodup) ?_ ?_ names
  · exact ⟨by simp, by simp [DataSpace.names]⟩
  rintro data name ⟨hzero, hnd⟩
  split_ifs with hmem
  · exact ⟨hzero, hnd⟩
  · refine ⟨fun e he => ?_, ?_⟩
    · rcases List.mem_append.mp he with he | he
      · exact hzero e he
      · rw [List.mem_singleton.mp he]
    · have hnames : DataSpace.names (data ++ [(name, .zero)]) = DataSpace.names data ++ [name] := by
        simp [DataSpace.names]
      rw [hnames]
      exact hnd.append (List.nodup_singleton name) (List.disjoint_singleton.mpr hmem)

theorem cmdAt_of_zero {data : List (String × DataSpace K)} (hzero : ∀ e ∈ data, e.2 = .zero)
    (name : String) : DataSpace.cmdAt data name = .zero := by
  unfold DataSpace.cmdAt
  cases hd : DataSpace.find data name with
  | none => rfl
  | some d =>
    have hd := hzero _ (AssociationList.mem_of_lookup hd)
    simp only at hd
    rw [hd]
    rfl

theorem Bound.bindTransmission {s : JointDriverModule K} (h : s.Bound)
    (node : TransmissionConfig K) : (bindTransmission node s).2.Bound := by
  unfold JointDriverModule.bindTransmission
  split
  · split_ifs with htype
    · split
      · split_ifs with hbound
        · refine ⟨h.actuators, h.zero, fun t ht => ?_⟩
          rcases List.mem_append.mp ht with ht | ht
          · exact h.bound t ht
          · rw [List.mem_singleton.mp ht]
            exact hbound
        · exact h
      · exact h
    · exact h
  · exact h

theorem Bound.bindTransmissions {s : JointDriverModule K} (h : s.Bound)
    (nodes : List (TransmissionConfig K)) : (bindTransmissions nodes s).2.Bound := by
  induction nodes generalizing s with
  | nil => exact h
  | cons node nodes ih =>
    have hnode := h.bindTransmission node
    simp only [JointDriverModule.bindTransmissions]
    generalize JointDriverModule.bindTransmission node s = r at hnode
    obtain ⟨error, s'⟩ := r
    cases error with
    | none => exact ih hnode
    | some e => exact hnode

def unbound (w : XyberController K) (joints actuators : List String) : JointDriverModule K :=
  ⟨w, false, joints, actuators, [], [], []⟩

theorem bound_initTransmission (w : XyberController K) (joints actuators : List String)
    (nodes : List (TransmissionConfig K)) :
    (initTransmission nodes (unbound w joints actuators)).2.Bound := by
  refine Bound.bindTransmissions
    ⟨(createData_zero actuators).2, cmdAt_of_zero (createData_zero joints).1, ?_⟩ nodes
  simp [unbound]

end Bound

section Caches

theorem lastNamed_append (history : List (String × JointData K)) (msg : JointCommand K)
    (joint : String) :
    lastNamed (history ++ entries msg) joint =
      (lastHit (named joint) (entries msg)).getD (lastNamed history joint) := by
  unfold lastNamed
  rw [LastWrite.lastHit_append]
  cases lastHit (named joint) (entries msg) <;> rfl

structure Caches (s₀ : JointDriverModule K) (history : List (String × JointData K))
    (s : JointDriverModule K) : Prop where
  transmission : s.transmission = s₀.transmission
  running : s.isRunning = true
  joints : DataSpace.names s.jointDataSpace = DataSpace.names s₀.jointDataSpace
  actuators : DataSpace.names s.actuatorDataSpace = DataSpace.names s₀.actuatorDataSpace
  cmd : ∀ joint ∈ DataSpace.names s₀.jointDataSpace,
    DataSpace.cmdAt s.jointDataSpace joint = lastNamed history joint

theorem Caches.prepared {s₀ s : JointDriverModule K} {history : List (String × JointData K)}
    (h : Caches s₀ history s) (msg : JointCommand K) :
    Caches s₀ (history ++ entries msg) (s.prepared msg) := by
  obtain ⟨hcache, hjoints⟩ := sameButJoints_cacheCommand msg s
  obtain ⟨htransform, hactuators⟩ := sameButActuators_transform (s.cacheCommand msg)
  unfold JointDriverModule.prepared
  refine ⟨?_, ?_, ?_, ?_, fun joint hjoint => ?_⟩
  · rw [htransform, hcache]
    exact h.transmission
  · rw [htransform, hcache]
    exact h.running
  · rw [htransform, ← h.joints, ← hjoints]
  · rw [hactuators, hcache]
    exact h.actuators
  · rw [htransform, lastNamed_append, ← h.cmd joint hjoint]
    rw [← h.joints] at hjoint
    exact cmdAt_cacheCommand msg hjoint

theorem Caches.withCtrl {s₀ s : JointDriverModule K} {history : List (String × JointData K)}
    (h : Caches s₀ history s) (w : XyberController K) : Caches s₀ history (s.withCtrl w) :=
  ⟨h.transmission, h.running, h.joints, h.actuators, h.cmd⟩

theorem Caches.publish {s₀ s : JointDriverModule K} {history : List (String × JointData K)}
    (h : Caches s₀ history s) (read : String → Reading K) :
    Caches s₀ history (s.publishRound read) := by
  obtain ⟨⟨hpull, hjoints⟩, hcmd⟩ := onlyReads_publishRound read s
  obtain ⟨hrefresh, hactuators⟩ := sameButActuators_refreshStates read s
  refine ⟨?_, ?_, ?_, ?_, fun joint hjoint => ?_⟩
  · rw [hpull]
    exact h.transmission
  · rw [hpull]
    exact h.running
  · rw [hjoints]
    exact h.joints
  · rw [hpull]
    exact hactuators.trans h.actuators
  · rw [hcmd]
    exact h.cmd joint hjoint

end Caches

section Signed

theorem signed_torque {direction : K} (hdir : direction = 1 ∨ direction = -1) (d : JointData K)
    (position velocity : K) :
    direction * (d.signed direction).torque position velocity =
      d.torque (direction * position) (direction * velocity) := by
  rcases hdir with rfl | rfl
  · simp [JointData.signed, JointData.torque]
  · simp only [JointData.signed, JointData.torque]
    ring

theorem signed_reading {t : SimpleTransmission K} (hdir : t.direction = 1 ∨ t.direction = -1)
    (d : JointData K) :
    t.transformActuatorToJoint (d.signed t.direction).reading = d.reading := by
  rcases hdir with hdir | hdir <;>
    simp [SimpleTransmission.transformActuatorToJoint, JointData.signed, JointData.reading, hdir]

theorem transform_signed (t : SimpleTransmission K) (d : JointData K) :
    t.transformJointToActuator d = d.signed t.direction := by
  simp [SimpleTransmission.transformJointToActuator, JointData.signed, mul_comm]

theorem Caches.actuator_command {s₀ s : JointDriverModule K}
    {history : List (String × JointData K)} (h : Caches s₀ history s)
    (hactuators : (s₀.transmission.map (·.actuator)).Nodup) {t : SimpleTransmission K}
    (hbound : t.joint ∈ DataSpace.names s₀.jointDataSpace ∧
      t.actuator ∈ DataSpace.names s₀.actuatorDataSpace)
    (ht : t ∈ s₀.transmission) (msg : JointCommand K) :
    DataSpace.cmdAt (s.prepared msg).actuatorDataSpace t.actuator =
      (lastNamed (history ++ entries msg) t.joint).signed t.direction := by
  obtain ⟨hcache, hnames⟩ := sameButJoints_cacheCommand msg s
  have htransmission : (s.cacheCommand msg).transmission = s₀.transmission := by
    rw [hcache]
    exact h.transmission
  have hactuator : DataSpace.names (s.cacheCommand msg).actuatorDataSpace =
      DataSpace.names s₀.actuatorDataSpace := by
    rw [hcache]
    exact h.actuators
  have hcmd := (h.prepared msg).cmd t.joint hbound.1
  have hsame : (s.prepared msg).jointDataSpace = (s.cacheCommand msg).jointDataSpace := by
    unfold JointDriverModule.prepared
    rw [(sameButActuators_transform (s.cacheCommand msg)).1]
  rw [hsame] at hcmd
  unfold JointDriverModule.prepared
  rw [cmdAt_transformJointToActuator (htransmission.symm ▸ ht) (htransmission.symm ▸ hactuators)
    (by rw [hnames, h.joints]; exact hbound.1) (hactuator.symm ▸ hbound.2), hcmd, transform_signed]

end Signed

section Traffic
variable [LinearOrder K] [FloorSemiring K]

inductive Traffic (K : Type*)
  | command (msg : JointCommand K)
  | publish (read : String → Reading K)

def onTraffic (s : JointDriverModule K) : Traffic K → JointDriverModule K
  | .command msg => s.jointCmdCallback msg
  | .publish read => s.publishRound read

def start (s : JointDriverModule K) : JointDriverModule K := { s with isRunning := true }

def after (s : JointDriverModule K) (es : List (Traffic K)) : JointDriverModule K :=
  es.foldl onTraffic s

def history (es : List (Traffic K)) : List (String × JointData K) :=
  es.flatMap fun
    | .command msg => entries msg
    | .publish _ => []

theorem Caches.command {s₀ s : JointDriverModule K} {history : List (String × JointData K)}
    (h : Caches s₀ history s) (msg : JointCommand K) :
    Caches s₀ (history ++ entries msg) (s.jointCmdCallback msg) := by
  unfold jointCmdCallback
  rw [if_pos h.running, foldl_sendCommand]
  exact (h.prepared msg).withCtrl _

theorem caches_after {s₀ : JointDriverModule K} (h : s₀.Bound) (es : List (Traffic K)) :
    Caches s₀ (history es) (s₀.start.after es) := by
  refine Runs.foldl_history onTraffic (fun es s => Caches s₀ (history es) s) ?_ ?_ es
  · exact ⟨rfl, rfl, rfl, rfl, fun joint _ => h.zero joint⟩
  · intro p e hp
    unfold history at hp ⊢
    rw [List.flatMap_append, List.flatMap_singleton]
    cases e with
    | command msg => exact hp.command msg
    | publish read =>
      rw [List.append_nil]
      exact hp.publish read

/-- The entry of a joint at its actuator, after a message: the command that is issued,
the way back of its reading, and the law the motor applies. -/
structure Carried (t : SimpleTransmission K) (entry : JointData K)
    (issued : List (String × JointData K)) (s : JointDriverModule K) : Prop where
  issued : issued.filter (fun c => c.1 = t.actuator) = [(t.actuator, entry.signed t.direction)]
  backward : ∀ read : String → Reading K, read t.actuator = (entry.signed t.direction).reading →
    DataSpace.readingAt (s.publishRound read).jointDataSpace t.joint = entry.reading
  torque : ∀ position velocity : K,
    t.direction * (entry.signed t.direction).torque position velocity =
      entry.torque (t.direction * position) (t.direction * velocity)

/-- Whatever the order of the transmissions and of the names in the messages; what is
issued is what the callback sends to the controller. -/
theorem command_path (w : XyberController K) (joints actuators : List String)
    (nodes : List (TransmissionConfig K)) {s₀ : JointDriverModule K}
    (hinit : initTransmission nodes (unbound w joints actuators) = (none, s₀))
    (hjoints : (s₀.transmission.map (·.joint)).Nodup)
    (hactuators : (s₀.transmission.map (·.actuator)).Nodup)
    (hdir : ∀ t ∈ s₀.transmission, t.direction = 1 ∨ t.direction = -1)
    (es : List (Traffic K)) (msg : JointCommand K) {t : SimpleTransmission K}
    (ht : t ∈ s₀.transmission) :
    (s₀.start.after (es ++ [.command msg])).ctrl =
        ((s₀.start.after es).issued msg).foldl setMitCmd (s₀.start.after es).ctrl ∧
      Carried t (lastNamed (history (es ++ [.command msg])) t.joint)
        ((s₀.start.after es).issued msg) (s₀.start.after (es ++ [.command msg])) := by
  have hbound : s₀.Bound := by
    have hb := bound_initTransmission w joints actuators nodes
    rwa [hinit] at hb
  obtain ⟨hjoint, hactuator⟩ := hbound.bound t ht
  have hbefore := caches_after hbound es
  have hafter := caches_after hbound (es ++ [.command msg])
  have hprepared := hbefore.prepared msg
  have hlast : history (es ++ [.command msg]) = history es ++ entries msg := by
    simp [history]
  have hsent : s₀.start.after (es ++ [.command msg]) = (s₀.start.after es).jointCmdCallback msg := by
    rw [after, List.foldl_concat]
    rfl
  refine ⟨hsent ▸ jointCmdCallback_ctrl _ msg, ?_, fun read hread => ?_, signed_torque (hdir t ht) _⟩
  · rw [issued_filter hbefore.running (hprepared.actuators.symm ▸ hbound.actuators)
      (hprepared.actuators.symm ▸ hactuator), hlast,
      hbefore.actuator_command hactuators (hbound.bound t ht) ht]
  · have hmem := hafter.transmission.symm ▸ ht
    rw [readingAt_publishRound hmem (hafter.transmission.symm ▸ hjoints)
      (hafter.joints.symm ▸ hjoint) (hafter.actuators.symm ▸ hactuator), hread]
    exact signed_reading (hdir t ht) _

section Knees

def kneeNodes : List (TransmissionConfig ℚ) :=
  [⟨some "right", some "SimpleTransmission", some (-1), some "right_knee", some "right_motor"⟩,
    ⟨some "left", some "SimpleTransmission", some 1, some "left_knee", some "left_motor"⟩]

def kneeJoints : JointDriverModule ℚ :=
  (initTransmission kneeNodes
    (unbound .empty ["left_knee", "right_knee"] ["left_motor", "right_motor"])).2

def bend : JointCommand ℚ :=
  ⟨["right_knee", "waist", "right_knee"], [1, 2, 3], [4, 5, 6], [7, 8, 9], [80, 0, 60], [2, 0, 1]⟩

theorem command_path_right :
    (kneeJoints.start.after [.command bend]).ctrl =
        (kneeJoints.start.issued bend).foldl setMitCmd kneeJoints.start.ctrl ∧
      Carried ⟨"right", -1, "right_motor", "right_knee"⟩ ⟨9, 6, 3, 60, 1⟩
        (kneeJoints.start.issued bend) (kneeJoints.start.after [.command bend]) :=
  command_path .empty ["left_knee", "right_knee"] ["left_motor", "right_motor"] kneeNodes
    (show _ = (none, kneeJoints) from rfl) (by decide +kernel) (by decide +kernel)
    (by decide +kernel) [] bend (.head _)

end Knees

end Traffic
end JointDriverModule
end MybipedalDeploy.JointDriver
