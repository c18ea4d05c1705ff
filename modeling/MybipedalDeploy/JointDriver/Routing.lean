import Mathlib.Data.Rat.Floor
import MybipedalDeploy.JointDriver.CanBus
import MybipedalDeploy.Library.Runs

/-!
# One-shot and periodic commands on the shared send slots

The content of a send slot is a function of the operations so far: the last
periodic command for the actuator, cleared by every one-shot. Everything
`TransmitAll` puts on the wire is read off that history.
-/

namespace MybipedalDeploy.JointDriver.CanBus
open RobstrideMotor (commMitControl commEnable commStop commSetZero commSetParam masterId)

variable {K : Type*}

structure Fresh (b : CanBus K) : Prop where
  send : ∀ id, b.sendSlot id = .zero
  recv : ∀ id, b.recvSlot id = .zero

section Attach
variable [Field K]

theorem fresh_new (interface : String) : (new interface : CanBus K).Fresh :=
  ⟨fun id => CanFrame.codec_read_fill_zero id.slot, fun id => CanFrame.codec_read_fill_zero id.slot⟩

theorem Fresh.attach {b : CanBus K} (hb : b.Fresh) (type : ActuatorType) (name : String)
    (id : CanId) (hid : id ∉ b.registry.actuatorById)
    (hname : name ∉ b.registry.actuatorByName.map Prod.fst) :
    (b.attach type name id hid hname).Fresh := by
  constructor
  · intro id'
    rw [CanBus.attach, sendSlot_writeRecv, sendSlot_writeSend]
    split_ifs
    · rfl
    · exact hb.send id'
  · intro id'
    rw [CanBus.attach, recvSlot_writeRecv, recvSlot_writeSend]
    split_ifs
    · rfl
    · exact hb.recv id'

end Attach

def oneShotComm : OneShot → Byte
  | .requestState .stateEnable => commEnable
  | .requestState _ | .clearError => commStop
  | .setHomingPosition => commSetZero
  | .saveConfig => 0
  | .setMode _ => commSetParam

def oneShotData : OneShot → Payload
  | .requestState _ | .saveConfig => Payload.ofHead 0
  | .clearError | .setHomingPosition => Payload.ofHead 1
  | .setMode mode => #v[0x05, 0x70, 0, 0, mode.byte, 0, 0, 0]

/-- What the protocol notes ask of the frame of a one-shot command. -/
def oneShotFields (id : Byte) (c : OneShot) : CanFrame.Fields :=
  if c = .saveConfig then CanFrame.zero.fields
  else ⟨0b100#3, oneShotComm c, masterId, id, oneShotData c⟩

def Op.Routed : Op K → Prop
  | .sendOnce _ (.setMode mode) => mode.Defined
  | _ => True

def pending (r : Registry) (id : CanId) (ops : List (Op K)) : Option (Periodic K) :=
  ops.foldl (fun last op =>
    match op with
    | .sendOnce name _ => if r.getActuator name = some id then none else last
    | .setPeriodic name c => if r.getActuator name = some id then some c else last
    | _ => last) none

def Op.target (r : Registry) : Op K → Option CanId
  | .sendOnce name _ | .setPeriodic name _ | .get name => r.getActuator name
  | .transmitAll | .receive _ => none

def framesFor (id : CanId) (fs : List CanFrame) : List CanFrame :=
  fs.filter fun f => f.motorId == id.val

theorem oneShotFields_commType (id : Byte) (c : OneShot) :
    (oneShotFields id c).commType = oneShotComm c := by
  unfold oneShotFields
  split_ifs with h
  · subst h; decide
  · rfl

theorem oneShotFields_data (id : Byte) (c : OneShot) :
    (oneShotFields id c).data = oneShotData c := by
  unfold oneShotFields
  split_ifs with h
  · subst h; decide
  · rfl

theorem pending_snoc (r : Registry) (id : CanId) (ops : List (Op K)) (op : Op K) :
    pending r id (ops ++ [op]) =
      match op with
      | .sendOnce name _ => if r.getActuator name = some id then none else pending r id ops
      | .setPeriodic name c => if r.getActuator name = some id then some c else pending r id ops
      | _ => pending r id ops := by
  simp only [pending, List.foldl_append, List.foldl_cons, List.foldl_nil]

theorem kModeMap_defined {mode : ActuatorMode} (h : mode.Defined) :
    RobstrideMotor.kModeMap[mode.byte.toNat]? = some mode.byte := by
  obtain ⟨byte⟩ := mode
  have hlt : byte.toNat < 5 := h
  have hbyte : byte = BitVec.ofNat 8 byte.toNat := by simp
  rw [hbyte]
  interval_cases byte.toNat <;> rfl

theorem oneShot_fields (m : RobstrideMotor K) (slot : CanFrame) (c : OneShot)
    (h : ∀ mode, c = .setMode mode → mode.Defined) :
    (m.oneShot c slot).2.fields = oneShotFields m.canId c := by
  cases c with
  | requestState state =>
    cases state <;> exact CanFrame.composeId_fields _ _ _ _ (by decide)
  | clearError => exact CanFrame.composeId_fields _ _ _ _ (by decide)
  | setHomingPosition => exact CanFrame.composeId_fields _ _ _ _ (by decide)
  | saveConfig => rfl
  | setMode mode =>
    simp only [RobstrideMotor.oneShot, RobstrideMotor.setMode, kModeMap_defined (h mode rfl)]
    exact CanFrame.composeId_fields _ _ _ _ (by decide)

theorem filter_filterMap_of_key {α β : Type*} {l : List α} (hnd : l.Nodup) {a : α} (ha : a ∈ l)
    {f : α → Option β} {p : β → Bool}
    (hp : ∀ x ∈ l, ∀ y, f x = some y → (p y = true ↔ x = a)) :
    (l.filterMap f).filter p = (f a).toList := by
  induction l with
  | nil => simp at ha
  | cons x xs ih =>
    obtain ⟨hx, hnd⟩ := List.nodup_cons.mp hnd
    have hpx := hp x (by simp)
    have hps : ∀ z ∈ xs, ∀ y, f z = some y → (p y = true ↔ z = a) := fun z hz => hp z (by simp [hz])
    rcases List.mem_cons.mp ha with rfl | ha
    · have hrest : (xs.filterMap f).filter p = [] := by
        simp only [List.filter_eq_nil_iff, List.mem_filterMap]
        rintro y ⟨z, hz, hy⟩ hpy
        exact hx ((hps z hz y hy).mp hpy ▸ hz)
      cases hfa : f a with
      | none => simp [hfa, hrest]
      | some y => simp [hfa, (hpx y hfa).mpr rfl, hrest]
    · have hne : x ≠ a := fun h => hx (h ▸ ha)
      cases hfx : f x with
      | none => simpa [hfx] using ih hnd ha hps
      | some y =>
        have hpy : p y = false := by simpa [hne] using hpx y hfx
        simpa [hfx, hpy] using ih hnd ha hps

section Numeric
variable [Field K] [LinearOrder K] [FloorSemiring K]

theorem periodic_congr {m m' : RobstrideMotor K} (htype : m.type = m'.type)
    (hid : m.canId = m'.canId) (c : Periodic K) : m.periodic c = m'.periodic c := by
  cases c <;> simp only [RobstrideMotor.periodic, RobstrideMotor.setMitCmd,
    RobstrideMotor.setVelocity, RobstrideMotor.setPosition, RobstrideMotor.setEffort,
    RobstrideMotor.writeSetParamFloat, RobstrideMotor.writeFrame, htype, hid]

theorem periodic_fields (m : RobstrideMotor K) (c : Periodic K) :
    (m.periodic c).fields.commType = commMitControl ∨
      (m.periodic c).fields.commType = commSetParam ∧ (m.periodic c).fields.data.toList.getD 0 0 ≠ 0x05 := by
  have hparam : ∀ index value, (m.writeSetParamFloat index value).fields.commType = commSetParam :=
    fun _ _ => CanFrame.composeId_commType _ _ _ _ (by decide)
  cases c with
  | setMitCmd => exact .inl (CanFrame.composeId_commType _ _ _ _ (by decide))
  | setVelocity vel =>
    exact .inr ⟨hparam _ vel, show RobstrideMotor.paramSpdRef.setWidth 8 ≠ 0x05 by decide⟩
  | setPosition pos =>
    exact .inr ⟨hparam _ pos, show RobstrideMotor.paramLocRef.setWidth 8 ≠ 0x05 by decide⟩
  | setEffort cur =>
    exact .inr ⟨hparam _ cur, show RobstrideMotor.paramIqRef.setWidth 8 ≠ 0x05 by decide⟩

theorem periodic_ne_oneShot (m : RobstrideMotor K) (c : Periodic K) (id : Byte) (o : OneShot) :
    (m.periodic c).fields ≠ oneShotFields id o := by
  intro h
  have hfields := periodic_fields m c
  rw [h] at hfields
  rw [oneShotFields_commType, oneShotFields_data] at hfields
  rcases hfields with hcomm | ⟨hcomm, hdata⟩
  · revert hcomm
    rcases o with (_ | _ | _) | _ | _ | _ | _ <;> simp [oneShotComm] <;> decide
  · rcases o with (_ | _ | _) | _ | _ | _ | mode
    -- Both set a parameter, but the run mode is none of the three references.
    case setMode => exact hdata rfl
    all_goals exact absurd hcomm (by decide)

theorem sendSlot_step (b : CanBus K) (op : Op K) (id : CanId) :
    (b.step op).1.sendSlot id =
      match op with
      | .sendOnce name _ => if b.registry.getActuator name = some id then .zero else b.sendSlot id
      | .setPeriodic name c =>
        if b.registry.getActuator name = some id then (b.actuator id).val.periodic c
        else b.sendSlot id
      | _ => b.sendSlot id := by
  cases op with
  | sendOnce name c =>
    simp only [step]
    cases hname : b.registry.getActuator name with
    | none => simp
    | some id' => simp [sendSlot_sendOnce, eq_comm]
  | setPeriodic name c =>
    simp only [step]
    cases hname : b.registry.getActuator name with
    | none => simp
    | some id' =>
      rcases eq_or_ne id id' with rfl | hne
      · simp [sendSlot_setPeriodic]
      · simp [sendSlot_setPeriodic, hne, hne.symm]
  | transmitAll => rfl
  | receive f => exact b.sendSlot_receive f id
  | get name =>
    simp only [step]
    split <;> rfl

theorem actuator_type_step (b : CanBus K) (op : Op K) (id : CanId) :
    ((b.step op).1.actuator id).val.type = (b.actuator id).val.type := by
  cases op with
  | sendOnce name c =>
    simp only [step]
    split
    · obtain ⟨mode, hmode⟩ := b.actuator_sendOnce _ id c
      rw [hmode]
    · rfl
  | setPeriodic name c =>
    simp only [step]
    split <;> rfl
  | transmitAll => rfl
  | receive f => simp only [step, receive_actuator]
  | get name =>
    simp only [step]
    split
    · simp only [get, actuator_parse]
      split_ifs <;> simp
    · rfl

theorem actuator_type_after (b : CanBus K) (ops : List (Op K)) (id : CanId) :
    ((b.after ops).actuator id).val.type = (b.actuator id).val.type := by
  refine Runs.foldl_invariant (fun b op => (CanBus.step b op).1)
    (fun b' => (b'.actuator id).val.type = (b.actuator id).val.type) rfl ?_ ops
  intro b' op h
  rw [actuator_type_step, h]

theorem periodic_after (b : CanBus K) (ops : List (Op K)) (id : CanId) (c : Periodic K) :
    ((b.after ops).actuator id).val.periodic c = (b.actuator id).val.periodic c := by
  refine periodic_congr (b.actuator_type_after ops id) ?_ c
  rw [((b.after ops).actuator id).prop, (b.actuator id).prop]

theorem sendSlot_after {b : CanBus K} (hb : b.Fresh) (ops : List (Op K)) (id : CanId) :
    (b.after ops).sendSlot id =
      ((pending b.registry id ops).map (b.actuator id).val.periodic).getD .zero := by
  refine Runs.foldl_history (fun b op => (CanBus.step b op).1)
    (fun p b' => b'.sendSlot id =
      ((pending b.registry id p).map (b.actuator id).val.periodic).getD .zero)
    (hb.send id) ?_ ops
  intro p op ih
  change ((b.after p).step op).1.sendSlot id = _
  rw [sendSlot_step, pending_snoc, after_registry]
  cases op with
  | sendOnce name c =>
    dsimp only
    split_ifs
    · rfl
    · exact ih
  | setPeriodic name c =>
    dsimp only
    split_ifs
    · exact b.periodic_after p id c
    · exact ih
  | _ => exact ih

/-- What a transmission sends for one actuator, whatever the order of the registry. -/
theorem transmitAll_after {b : CanBus K} (hb : b.Fresh) (ops : List (Op K)) :
    (b.after ops).transmitAll =
      b.registry.actuatorById.filterMap fun id =>
        (pending b.registry id ops).map (b.actuator id).val.periodic := by
  simp only [transmitAll, after_registry]
  refine List.filterMap_congr fun id _ => ?_
  rw [sendSlot_after hb]
  cases pending b.registry id ops with
  | none => rfl
  | some c => exact if_neg (RobstrideMotor.periodic_canId_ne_zero _ c)

theorem framesFor_transmitAll {b : CanBus K} (hb : b.Fresh) (ops : List (Op K)) {id : CanId}
    (hid : id ∈ b.registry.actuatorById) :
    framesFor id (b.after ops).transmitAll =
      ((pending b.registry id ops).map (b.actuator id).val.periodic).toList := by
  rw [transmitAll_after hb]
  refine filter_filterMap_of_key b.registry.nodup_actuatorById hid ?_
  intro id' _ f hf
  obtain ⟨c, _, rfl⟩ := Option.map_eq_some_iff.mp hf
  rw [RobstrideMotor.periodic_motorId, (b.actuator id').prop, beq_iff_eq]
  exact ⟨fun h => CanId.ext h, congrArg CanId.val⟩

theorem framesFor_step {b : CanBus K} (hb : b.Fresh) (ops : List (Op K)) (op : Op K) {id : CanId}
    (hid : id ∈ b.registry.actuatorById) (hop : op.target b.registry ≠ some id) :
    framesFor id (b.after (ops ++ [op])).transmitAll = framesFor id (b.after ops).transmitAll := by
  rw [framesFor_transmitAll hb _ hid, framesFor_transmitAll hb _ hid, pending_snoc]
  cases op with
  | sendOnce name c => exact congrArg _ (congrArg _ (if_neg hop))
  | setPeriodic name c => exact congrArg _ (congrArg _ (if_neg hop))
  | _ => rfl

/-- The routing contract: a one-shot sends its own frame and nothing later does,
a transmission sends the pending periodic commands, and actuators do not interfere. -/
theorem command_routing {b : CanBus K} (hb : b.Fresh) {ops : List (Op K)}
    (hops : ∀ op ∈ ops, op.Routed) :
    (∀ p name c q id, ops = p ++ .sendOnce name c :: q → b.registry.getActuator name = some id →
      ∃ f, ((b.after p).step (.sendOnce name c)).2 = [(.once, f)] ∧
        f.fields = oneShotFields id.val c) ∧
    (∀ p q, ops = p ++ .transmitAll :: q →
      let sent := ((b.after p).step .transmitAll).2.map Prod.snd
      (∀ f ∈ sent, ∀ id c, f.fields ≠ oneShotFields id c) ∧
      sent = b.registry.actuatorById.filterMap (fun id =>
        (pending b.registry id p).map (b.actuator id).val.periodic) ∧
      ∀ id ∈ b.registry.actuatorById, framesFor id sent =
        ((pending b.registry id p).map (b.actuator id).val.periodic).toList) ∧
    (∀ p op q, ops = p ++ op :: q → ∀ id ∈ b.registry.actuatorById,
      op.target b.registry ≠ some id →
        framesFor id (b.after (p ++ [op])).transmitAll = framesFor id (b.after p).transmitAll) := by
  refine ⟨?_, ?_, ?_⟩
  · rintro p name c q id rfl hname
    have hrouted : (Op.sendOnce name c : Op K).Routed := hops _ (by simp)
    refine ⟨((b.after p).sendOnce id c).2, by simp [step, hname], ?_⟩
    rw [sendOnce_frame, oneShot_fields, ((b.after p).actuator id).prop]
    rintro mode rfl
    exact hrouted
  · rintro p q -
    have hsent : ((b.after p).step .transmitAll).2.map Prod.snd = (b.after p).transmitAll := by
      simp [step, Function.comp_def]
    simp only [hsent]
    refine ⟨?_, transmitAll_after hb p, fun id hid => framesFor_transmitAll hb p hid⟩
    intro f hf id o
    rw [transmitAll_after hb] at hf
    obtain ⟨id', _, hf⟩ := List.mem_filterMap.mp hf
    obtain ⟨c, _, rfl⟩ := Option.map_eq_some_iff.mp hf
    exact periodic_ne_oneShot _ c id o
  · rintro p op q - id hid hop
    exact framesFor_step hb p op hid hop

def kneeBus : CanBus ℚ :=
  ((new "can0").attach .robstride02 "knee_left" ⟨1, by decide⟩ (by decide) (by decide)).attach
    .robstride02 "knee_right" ⟨2, by decide⟩ (by decide) (by decide)

theorem kneeBus_fresh : kneeBus.Fresh := ((fresh_new "can0").attach ..).attach ..

def kneeOps : List (Op ℚ) :=
  [.setPeriodic "knee_left" (.setVelocity 7), .setPeriodic "knee_right" (.setVelocity 9),
    .sendOnce "knee_right" (.requestState .stateEnable)]

theorem command_routing_knees :
    framesFor ⟨1, by decide⟩ (kneeBus.after kneeOps).transmitAll =
        [(kneeBus.actuator ⟨1, by decide⟩).val.setVelocity 7] ∧
      framesFor ⟨2, by decide⟩ (kneeBus.after kneeOps).transmitAll = [] := by
  have hrouted : ∀ op ∈ kneeOps ++ [.transmitAll], op.Routed := by simp [kneeOps, Op.Routed]
  have hsent := ((command_routing kneeBus_fresh hrouted).2.1 kneeOps [] rfl).2.2
  have hframes : ((kneeBus.after kneeOps).step .transmitAll).2.map Prod.snd =
      (kneeBus.after kneeOps).transmitAll := by simp [step, Function.comp_def]
  simp only [hframes] at hsent
  exact ⟨hsent ⟨1, by decide⟩ (by decide), hsent ⟨2, by decide⟩ (by decide)⟩

end Numeric
end MybipedalDeploy.JointDriver.CanBus
