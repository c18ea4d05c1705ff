import MybipedalDeploy.JointDriver.MitFrame
import MybipedalDeploy.JointDriver.StatePath

/-!
# A command on its way to the motor

From a message to the frame that every pass of the control loop sends, with the publisher,
the receivers and the senders at work in between. The frame says, step for step of its
ranges, the last entry for the joint in the direction of the actuator.
-/

namespace MybipedalDeploy.JointDriver
open Clamp (clamp)
open JointDriverModule (Ready entries lastNamed initTransmission unbound)
open Msg (JointCommand)
open Runs (Run)

def JointData.quantity {K : Type*} (d : JointData K) : Quantity → K
  | .position => d.position
  | .velocity => d.velocity
  | .effort => d.effort
  | .kp => d.kp
  | .kd => d.kd

namespace RobstrideMotor
variable {K : Type*} [Field K] [LinearOrder K] [FloorSemiring K]

theorem setMit_congr {m m' : RobstrideMotor K} (htype : m.type = m'.type) (hid : m.canId = m'.canId)
    (c : Quantity → K) : m.setMit c = m'.setMit c := by
  simp only [setMit, setMitCmd, writeFrame, htype, hid]

/-- A frame for the motor that says the entry, cut to the ranges and down to their steps. -/
structure Commands (m : RobstrideMotor K) (d : JointData K) (f : CanFrame) : Prop where
  commType : f.commType = commMitControl
  motorId : f.motorId = m.canId
  quantity : ∀ q, let r := (getLimits m.type : Limits K).range q
    clamp r.lower r.upper (d.quantity q) - (r.upper - r.lower) / ((65535 : ℕ) : K) <
      m.decodeMit f q ∧ m.decodeMit f q ≤ clamp r.lower r.upper (d.quantity q)

theorem commands_setMit [IsStrictOrderedRing K] (m : RobstrideMotor K) (d : JointData K) :
    m.Commands d (m.setMit d.quantity) where
  commType := CanFrame.composeId_commType _ _ _ _ (by decide)
  motorId := CanFrame.composeId_motorId _ _ _ _
  quantity := by
    intro q r
    have hrange := range_lt (K := K) m.type q
    rw [decodeMit_setMit]
    exact ⟨Quantizer.lt_decode_encode hrange (by decide), Quantizer.decode_encode_le hrange (by decide)⟩

end RobstrideMotor

namespace XyberController
variable {K : Type*}

theorem place_eq_some {w : XyberController K} {name : String} {ref : BusRef} {id : CanId}
    (h : w.place name = some (ref, id)) : w.findBus name = some ref ∧
      ∃ b, w.busAt ref = some b ∧ b.registry.getActuator name = some id := by
  obtain ⟨ref', hfound, hat⟩ := Option.bind_eq_some_iff.mp h
  obtain ⟨id', hid, hpair⟩ := Option.map_eq_some_iff.mp hat
  cases hpair
  exact ⟨hfound, Option.bind_eq_some_iff.mp hid⟩

theorem place_injective {w : XyberController K} {name name' : String} {ref : BusRef} {id : CanId}
    (h : w.place name = some (ref, id)) (h' : w.place name' = some (ref, id)) : name = name' := by
  obtain ⟨-, b, hb, hname⟩ := place_eq_some h
  obtain ⟨-, b', hb', hname'⟩ := place_eq_some h'
  rw [hb] at hb'
  cases hb'
  exact Registry.getActuator_injective hname hname'

theorem sendSlot_transmitAll (p : Port K) (id : CanId) :
    p.transmitAll.bus.sendSlot id = p.bus.sendSlot id := by
  unfold Port.transmitAll
  generalize p.bus.transmitAll = fs
  induction fs generalizing p with
  | nil => rfl
  | cons f fs ih =>
    refine (ih _).trans ?_
    unfold Port.transmit
    dsimp only
    split_ifs <;> rfl

variable [Field K]

def slotAt (w : XyberController K) (ref : BusRef) (id : CanId) : CanFrame :=
  (w.port ref).bus.sendSlot id

def motorAt (w : XyberController K) (ref : BusRef) (id : CanId) : RobstrideMotor K :=
  ((w.port ref).bus.actuator id).val

theorem Dated.place {w₀ w : XyberController K} {received : List (String × CanFrame)}
    {age : BusRef → CanId → ℕ} (h : Dated w₀ received w age) (name : String) :
    w.place name = w₀.place name := by
  unfold XyberController.place
  rw [h.found]
  refine congrArg (w₀.findBus name).bind (funext fun ref => ?_)
  have hbus := h.wiring.buses ref
  cases hb₀ : w₀.busAt ref with
  | none =>
    rw [hb₀, Option.map_none, Option.map_eq_none_iff] at hbus
    rw [hbus]
  | some b₀ =>
    obtain ⟨b, hb, -, hregistry⟩ := h.wiring.bus hb₀
    rw [hb, Option.bind_some, Option.bind_some, hregistry]

theorem Dated.motor {w₀ w : XyberController K} {received : List (String × CanFrame)}
    {age : BusRef → CanId → ℕ} (h : Dated w₀ received w age) (ref : BusRef) (id : CanId) :
    (w.motorAt ref id).type = (w₀.motorAt ref id).type ∧
      (w.motorAt ref id).canId = (w₀.motorAt ref id).canId := by
  unfold motorAt
  refine ⟨?_, by rw [((w.port ref).bus.actuator id).prop, ((w₀.port ref).bus.actuator id).prop]⟩
  have hbus := h.wiring.buses ref
  unfold port
  cases hb₀ : w₀.busAt ref with
  | none =>
    rw [hb₀, Option.map_none, Option.map_eq_none_iff] at hbus
    rw [hbus]
  | some b₀ =>
    obtain ⟨b, hb, -, -⟩ := h.wiring.bus hb₀
    rw [hb]
    exact (h.dated ref b₀ b hb₀ hb id).type

theorem slotAt_onPort (w : XyberController K) (ref ref' : BusRef) (id : CanId) {f : Port K → Port K}
    (hf : ref' = ref → (f (w.port ref)).bus.sendSlot id = (w.port ref).bus.sendSlot id) :
    (w.onPort ref f).slotAt ref' id = w.slotAt ref' id := by
  unfold slotAt port
  rw [busAt_onPort]
  split_ifs with heq
  · subst heq
    cases hb : w.busAt ref' with
    | none => rfl
    | some b => simpa [port, hb] using hf rfl
  · rfl

variable [LinearOrder K] [FloorSemiring K]

theorem slotAt_apply (w : XyberController K) {e : Event K} (he : e.isCommand = false) (ref : BusRef)
    (id : CanId) : (w.apply e).slotAt ref id = w.slotAt ref id := by
  cases e with
  | receive interface f =>
    simp only [apply]
    split
    · rfl
    · exact w.slotAt_onPort _ _ _ fun _ => rfl
  | sender interface => rfl
  | controlLoop ref' =>
    simp only [apply]
    split_ifs
    · exact w.slotAt_onPort _ _ _ fun _ => sendSlot_transmitAll _ _
    · rfl
  | get name =>
    simp only [apply]
    split
    · rfl
    · refine w.slotAt_onPort _ _ _ fun _ => ?_
      simp only [CanBus.step]
      split <;> rfl
  | setMitCmd => cases he

theorem slotAt_setMitCmd (w : XyberController K) (name : String) (d : JointData K) (ref : BusRef)
    (id : CanId) :
    (w.setMitCmd name d.position d.velocity d.effort d.kp d.kd).slotAt ref id =
      if w.place name = some (ref, id) then (w.motorAt ref id).setMit d.quantity
      else w.slotAt ref id := by
  unfold setMitCmd
  cases href : w.findBus name with
  | none =>
    have hplace : w.place name = none := by simp [place, href]
    simp [hplace]
  | some ref' =>
    dsimp only
    cases hb : w.busAt ref' with
    | none =>
      have hplace : w.place name = none := by simp [place, href, hb]
      have hsame : ∀ f, w.onPort ref' f = w := fun f => by simp [onPort, setPort, hb]
      simp [hplace, hsame]
    | some b =>
      have hport : w.port ref' = ⟨b, w.socket b.interface⟩ := by simp [port, hb]
      cases hid : b.registry.getActuator name with
      | none =>
        have hplace : w.place name = none := by simp [place, href, hb, hid]
        rw [hplace, if_neg (by simp)]
        exact w.slotAt_onPort _ _ _ fun _ => by simp [CanBus.step, hport, hid]
      | some id' =>
        have hplace : w.place name = some (ref', id') := by simp [place, href, hb, hid]
        rw [hplace]
        by_cases heq : ref = ref'
        · subst heq
          unfold slotAt motorAt port
          rw [busAt_onPort, if_pos rfl]
          simp only [hb, Option.map_some, Option.getD_some, CanBus.step, hid, Option.some.injEq,
            Prod.mk.injEq, true_and, CanBus.sendSlot_setPeriodic, eq_comm]
          split_ifs with hslot
          · subst hslot
            rfl
          · rfl
        · rw [if_neg fun h => heq (congrArg Prod.fst (Option.some.inj h)).symm]
          exact w.slotAt_onPort _ _ _ fun h => absurd h heq

end XyberController

namespace JointDriverModule
variable {K : Type*} [Field K]

structure SameCommands (s s' : JointDriverModule K) : Prop where
  running : s'.isRunning = s.isRunning
  joint : ∀ name, DataSpace.cmdAt s'.jointDataSpace name = DataSpace.cmdAt s.jointDataSpace name
  actuator : ∀ name,
    DataSpace.cmdAt s'.actuatorDataSpace name = DataSpace.cmdAt s.actuatorDataSpace name
  slot : ∀ ref id, s'.ctrl.slotAt ref id = s.ctrl.slotAt ref id

theorem sameCommands_transformActuatorToJoint (s : JointDriverModule K) :
    s.SameCommands s.transformActuatorToJoint := by
  obtain ⟨⟨hpull, -⟩, hcmd⟩ := onlyReads_transform s
  refine ⟨?_, hcmd, fun name => ?_, fun ref id => ?_⟩ <;> rw [hpull]

def Cached (s₀ : JointDriverModule K) (msgs : List (JointCommand K)) (s : JointDriverModule K) :
    Prop :=
  ∀ joint ∈ DataSpace.names s₀.jointDataSpace,
    DataSpace.cmdAt s.jointDataSpace joint = lastNamed (msgs.flatMap entries) joint

def Mapped (s₀ : JointDriverModule K) (msgs : List (JointCommand K)) (s : JointDriverModule K) :
    Prop :=
  ∀ t ∈ s₀.transmission, DataSpace.cmdAt s.actuatorDataSpace t.actuator =
    (lastNamed (msgs.flatMap entries) t.joint).signed t.direction

section Cached
variable {s₀ s s' : JointDriverModule K} {msgs : List (JointCommand K)}

theorem Cached.same (h : s₀.Cached msgs s) (hsame : s.SameCommands s') : s₀.Cached msgs s' :=
  fun joint hjoint => (hsame.joint joint).trans (h joint hjoint)

theorem Mapped.same (h : s₀.Mapped msgs s) (hsame : s.SameCommands s') : s₀.Mapped msgs s' :=
  fun t ht => (hsame.actuator t.actuator).trans (h t ht)

theorem Cached.cacheCommand (h : s₀.Cached msgs s) (hnames : s₀.SameNames s) (msg : JointCommand K) :
    s₀.Cached (msgs ++ [msg]) (s.cacheCommand msg) := by
  intro joint hjoint
  have hmem := hnames.joints.symm ▸ hjoint
  rw [cmdAt_cacheCommand msg hmem, h joint hjoint, List.flatMap_append, List.flatMap_singleton,
    lastNamed_append]

theorem Cached.mapped (h : s₀.Cached msgs s) (hs₀ : s₀.Ready) (hnames : s₀.SameNames s)
    (hnd : (s₀.transmission.map (·.actuator)).Nodup) :
    s₀.Mapped msgs s.transformJointToActuator := by
  intro t ht
  obtain ⟨hjoint, hactuator⟩ := hs₀.bound t ht
  have htransmission := hnames.transmission
  rw [cmdAt_transformJointToActuator (htransmission.symm ▸ ht) (htransmission.symm ▸ hnd)
    (hnames.joints.symm ▸ hjoint) (hnames.actuators.symm ▸ hactuator), h t.joint hjoint,
    transform_signed]

end Cached

variable [LinearOrder K] [FloorSemiring K]

theorem sameCommands_withCtrl (s : JointDriverModule K) {e : XyberController.Event K}
    (he : e.isCommand = false) : s.SameCommands (s.withCtrl (s.ctrl.apply e)) :=
  ⟨rfl, fun _ => rfl, fun _ => rfl, s.ctrl.slotAt_apply he⟩

theorem sameCommands_refresh (g : Getter) (name : String) (s : JointDriverModule K) :
    s.SameCommands (s.refresh g name) :=
  ⟨rfl, fun _ => rfl, fun _ => DataSpace.cmdAt_modifyState _ _ _ _, s.ctrl.slotAt_apply rfl⟩

def Stored (s₀ : JointDriverModule K) (left : List String) (s : JointDriverModule K) : Prop :=
  ∀ name ∈ DataSpace.names s₀.actuatorDataSpace, name ∉ left → ∀ ref id,
    s₀.ctrl.place name = some (ref, id) → s.ctrl.slotAt ref id =
      (s₀.ctrl.motorAt ref id).setMit (DataSpace.cmdAt s.actuatorDataSpace name).quantity

section Stored
variable {s₀ s s' : JointDriverModule K} {left : List String}

theorem Stored.same (h : s₀.Stored left s) (hsame : s.SameCommands s') : s₀.Stored left s' := by
  intro name hname hleft ref id hplace
  rw [hsame.slot, hsame.actuator]
  exact h name hname hleft ref id hplace

theorem Stored.sendCommand {name : String} (h : s₀.Stored (name :: left) s)
    (hnames : s₀.SameNames s) {received : List (String × CanFrame)} {age : BusRef → CanId → ℕ}
    (hdated : XyberController.Dated s₀.ctrl received s.ctrl age) :
    s₀.Stored left (s.sendCommand name) := by
  intro other hother hleft ref id hplace
  unfold JointDriverModule.sendCommand
  split
  next hnone =>
    obtain ⟨d, hd⟩ := DataSpace.find_of_mem_names (hnames.actuators.symm ▸ hother)
    rcases eq_or_ne other name with rfl | hne
    · rw [hnone] at hd
      cases hd
    · exact h other hother (by simp [hne, hleft]) ref id hplace
  next data hdata =>
    have hput := s.ctrl.slotAt_setMitCmd name data.cmd ref id
    rw [hdated.place] at hput
    have htable : (s.withCtrl (s.ctrl.setMitCmd name data.cmd.position data.cmd.velocity
        data.cmd.effort data.cmd.kp data.cmd.kd)).actuatorDataSpace = s.actuatorDataSpace := rfl
    rw [htable]
    refine hput.trans ?_
    rcases eq_or_ne other name with rfl | hne
    · obtain ⟨htype, hid⟩ := hdated.motor ref id
      have hcmd : DataSpace.cmdAt s.actuatorDataSpace other = data.cmd := by
        simp [DataSpace.cmdAt, hdata]
      rw [if_pos hplace, hcmd]
      exact RobstrideMotor.setMit_congr htype hid _
    · rw [if_neg fun hname => hne (XyberController.place_injective hplace hname)]
      exact h other hother (by simp [hne, hleft]) ref id hplace

end Stored
end JointDriverModule

namespace PublishSystem
open JointDriverModule (SameCommands)
variable {K : Type*}

def messages (as : List (Action K)) : List (JointCommand K) :=
  as.filterMap fun
    | .message msg => some msg
    | _ => none

variable [Field K] [LinearOrder K] [FloorSemiring K]

def Delivering (s₀ : JointDriverModule K) (msgs : List (JointCommand K)) (c : PublishSystem K) :
    Prop :=
  match c.callback with
  | .idle => s₀.Cached msgs c.driver ∧
      (msgs ≠ [] → s₀.Mapped msgs c.driver ∧ s₀.Stored [] c.driver)
  | .test msg => ∃ before, msgs = before ++ [msg] ∧ s₀.Cached before c.driver
  | .cache msg => ∃ before, msgs = before ++ [msg] ∧ s₀.Cached before c.driver
  | .transform => s₀.Cached msgs c.driver
  | .send left => s₀.Cached msgs c.driver ∧ s₀.Mapped msgs c.driver ∧ s₀.Stored left c.driver

namespace Delivering
variable {s₀ : JointDriverModule K} {msgs : List (JointCommand K)} {c : PublishSystem K}

theorem same (h : Delivering s₀ msgs c) {c' : PublishSystem K} (hcallback : c'.callback = c.callback)
    (hsame : c.driver.SameCommands c'.driver) : Delivering s₀ msgs c' := by
  unfold Delivering at h ⊢
  rw [hcallback]
  cases hc : c.callback with
  | idle =>
    rw [hc] at h
    exact ⟨h.1.same hsame, fun hmsgs => ⟨(h.2 hmsgs).1.same hsame, (h.2 hmsgs).2.same hsame⟩⟩
  | test msg =>
    rw [hc] at h
    exact h.imp fun before hbefore => ⟨hbefore.1, hbefore.2.same hsame⟩
  | cache msg =>
    rw [hc] at h
    exact h.imp fun before hbefore => ⟨hbefore.1, hbefore.2.same hsame⟩
  | transform =>
    rw [hc] at h
    exact JointDriverModule.Cached.same h hsame
  | send left =>
    rw [hc] at h
    exact ⟨h.1.same hsame, h.2.1.same hsame, h.2.2.same hsame⟩

theorem sameCommands_publisherStep (c : PublishSystem K) :
    c.publisherStep.callback = c.callback ∧ c.driver.SameCommands c.publisherStep.driver := by
  have hrefl : c.driver.SameCommands c.driver := ⟨rfl, fun _ => rfl, fun _ => rfl, fun _ _ => rfl⟩
  unfold publisherStep
  split
  next => split_ifs <;> exact ⟨rfl, hrefl⟩
  next => exact ⟨rfl, hrefl⟩
  next => exact ⟨rfl, hrefl⟩
  next g name todo _ => exact ⟨rfl, c.driver.sameCommands_refresh g name⟩
  next => exact ⟨rfl, c.driver.sameCommands_transformActuatorToJoint⟩
  next => exact ⟨rfl, hrefl⟩
  next => exact ⟨rfl, hrefl⟩

theorem callbackStep (h : Delivering s₀ msgs c) (hs₀ : s₀.Ready)
    (hnd : (s₀.transmission.map (·.actuator)).Nodup) (hnames : s₀.SameNames c.driver)
    {received : List (String × CanFrame)} {age : BusRef → CanId → ℕ}
    (hdated : XyberController.Dated s₀.ctrl received c.driver.ctrl age)
    (hrun : c.driver.isRunning = true) : Delivering s₀ msgs c.callbackStep := by
  unfold Delivering at h
  unfold PublishSystem.callbackStep Delivering
  cases hc : c.callback with
  | idle =>
    rw [hc] at h
    exact h
  | test msg =>
    rw [hc] at h
    simp only [Callback.step, hrun, if_true]
    exact h
  | cache msg =>
    rw [hc] at h
    obtain ⟨before, rfl, hbefore⟩ := h
    exact hbefore.cacheCommand hnames msg
  | transform =>
    rw [hc] at h
    refine ⟨?_, h.mapped hs₀ hnames hnd, fun name hname hleft => absurd hname ?_⟩
    · intro joint hjoint
      have hpush := (JointDriverModule.sameButActuators_transform c.driver).1
      simp only [Callback.step]
      rw [hpush]
      exact h joint hjoint
    · rw [← hnames.actuators]
      exact hleft
  | send left =>
    rw [hc] at h
    obtain ⟨hcached, hmapped, hstored⟩ := h
    cases left with
    | nil => exact ⟨hcached, fun _ => ⟨hmapped, hstored⟩⟩
    | cons name left =>
      have htables : (c.driver.sendCommand name).jointDataSpace = c.driver.jointDataSpace ∧
          (c.driver.sendCommand name).actuatorDataSpace = c.driver.actuatorDataSpace := by
        unfold JointDriverModule.sendCommand
        split <;> exact ⟨rfl, rfl⟩
      refine ⟨fun joint hjoint => ?_, fun t ht => ?_, hstored.sendCommand hnames hdated⟩
      · simp only [Callback.step, htables.1]
        exact hcached joint hjoint
      · simp only [Callback.step, htables.2]
        exact hmapped t ht

theorem running_callbackStep (c : PublishSystem K) :
    c.callbackStep.driver.isRunning = c.driver.isRunning := by
  unfold PublishSystem.callbackStep
  cases c.callback with
  | cache msg =>
    have hcache := (JointDriverModule.sameButJoints_cacheCommand msg c.driver).1
    simp only [Callback.step]
    rw [hcache]
  | transform =>
    have hpush := (JointDriverModule.sameButActuators_transform c.driver).1
    simp only [Callback.step]
    rw [hpush]
  | send left =>
    cases left with
    | nil => rfl
    | cons name left =>
      simp only [Callback.step, JointDriverModule.sendCommand]
      split <;> rfl
  | _ => rfl

end Delivering

/-- Only the callback sends commands. -/
def Orderly (as : List (Action K)) : Prop := ∀ e, .event e ∈ as → e.isCommand = false

theorem delivering {s₀ : JointDriverModule K} (hs₀ : s₀.Ready)
    (hzero : ∀ joint, DataSpace.cmdAt s₀.jointDataSpace joint = .zero)
    (hnd : (s₀.transmission.map (·.actuator)).Nodup) {actuatorDebug : Bool} {as : List (Action K)}
    {c : PublishSystem K} (h : Run PublishSystem.step (started s₀ actuatorDebug) as c)
    (hothers : Orderly as) (hrun : c.driver.isRunning = true) :
    Delivering s₀ (messages as) c := by
  induction h with
  | start => exact ⟨fun joint _ => hzero joint, fun hmsgs => absurd rfl hmsgs⟩
  | @next as s t a hr ht ih =>
    have horderly : Orderly as := fun e he => hothers e (List.mem_append_left _ he)
    cases a with
    | event e =>
      cases ht
      have hsame := s.driver.sameCommands_withCtrl (hothers e (by simp))
      have hs : Delivering s₀ (messages as) { s with
          driver := s.driver.withCtrl (s.driver.ctrl.apply e)
          received := s.received ++ e.frames } := (ih horderly hrun).same rfl hsame
      simpa [messages] using hs
    | message msg =>
      simp only [PublishSystem.step] at ht
      split at ht
      next hidle =>
        cases ht
        have hs := ih horderly hrun
        unfold Delivering at hs
        rw [hidle] at hs
        exact ⟨messages as, by simp [messages], hs.1⟩
      next => cases ht
    | callback =>
      cases ht
      have hbefore : s.driver.isRunning = true := (Delivering.running_callbackStep s).symm.trans hrun
      obtain ⟨v, before, cut, age, hfollowing⟩ := following_run hs₀ hr
      have hs := (ih horderly hbefore).callbackStep hs₀ hnd hfollowing.same hfollowing.dated hbefore
      simpa [messages] using hs
    | publisher =>
      cases ht
      obtain ⟨hcallback, hsame⟩ := Delivering.sameCommands_publisherStep s
      have hs := (ih horderly (hsame.running.symm.trans hrun)).same hcallback hsame
      simpa [messages] using hs
    | stop =>
      cases ht
      cases hrun

variable [IsStrictOrderedRing K]

/-- Once the callback is done with the messages, every pass of the control loop sends each
actuator the last entry of its joint. -/
theorem command_delivered (w : XyberController K) (joints actuators : List String)
    (nodes : List (TransmissionConfig K)) {s₀ : JointDriverModule K}
    (hinit : initTransmission nodes (unbound w joints actuators) = (none, s₀))
    (hnd : (s₀.transmission.map (·.actuator)).Nodup) {actuatorDebug : Bool} {as : List (Action K)}
    {c : PublishSystem K} (h : Run PublishSystem.step (started s₀ actuatorDebug) as c)
    (hothers : Orderly as) (hrun : c.driver.isRunning = true) (hidle : c.callback = .idle)
    (hmsgs : messages as ≠ []) {t : SimpleTransmission K} (ht : t ∈ s₀.transmission) {ref : BusRef}
    {id : CanId} (hplace : w.place t.actuator = some (ref, id)) :
    ∃ b, c.driver.ctrl.busAt ref = some b ∧ ∃ f ∈ b.transmitAll, (w.motorAt ref id).Commands
      ((lastNamed ((messages as).flatMap entries) t.joint).signed t.direction) f := by
  have hs₀ : s₀.Ready := by
    have hready := JointDriverModule.ready_initTransmission w joints actuators nodes
    rwa [hinit] at hready
  obtain ⟨ts, htables⟩ := JointDriverModule.tables_initTransmission w joints actuators nodes
  rw [hinit] at htables
  have hctrl : s₀.ctrl = w := congrArg JointDriverModule.ctrl htables
  obtain ⟨v, before, cut, age, hc⟩ := following_run hs₀ h
  have hdelivering := delivering hs₀ hs₀.zero hnd h hothers hrun
  unfold Delivering at hdelivering
  rw [hidle] at hdelivering
  obtain ⟨hmapped, hstored⟩ := hdelivering.2 hmsgs
  have hslot := hstored t.actuator (hs₀.bound t ht).2 List.not_mem_nil ref id (hctrl ▸ hplace)
  rw [hmapped t ht, hctrl] at hslot
  obtain ⟨-, b, hb, hname⟩ := XyberController.place_eq_some ((hc.dated.place _).trans (hctrl ▸ hplace))
  have hsend : b.sendSlot id = (w.motorAt ref id).setMit
      ((lastNamed ((messages as).flatMap entries) t.joint).signed t.direction).quantity := by
    rw [← hslot]
    simp [XyberController.slotAt, XyberController.port, hb]
  refine ⟨b, hb, b.sendSlot id, List.mem_filterMap.mpr
    ⟨id, Registry.mem_actuatorById.mpr ⟨t.actuator, hname⟩, if_neg ?_⟩, ?_⟩
  · rw [hsend]
    exact CanFrame.composeId_ne_zero _ _ _
  · rw [hsend]
    exact (w.motorAt ref id).commands_setMit _

section Knee

def bending : List (Action ℚ) :=
  [.message ⟨["left_knee"], [1], [0], [3], [50], [1]⟩, .callback, .publisher, .callback, .callback,
    .event (.controlLoop (.first "dcu")), .callback, .callback]

theorem command_delivered_bending :
    ∃ c, Run PublishSystem.step (started kneeLink true) bending c ∧
      ∃ b, c.driver.ctrl.busAt (.first "dcu") = some b ∧ ∃ f ∈ b.transmitAll,
        (pairedKnees.motorAt (.first "dcu") ⟨1, by decide⟩).Commands
          ((lastNamed ((messages bending).flatMap entries) "left_knee").signed (-1)) f :=
  ⟨_, Runs.run_of_exec bending rfl, command_delivered pairedKnees ["left_knee"] ["knee_left"]
    mirroredKnee (show _ = (none, kneeLink) from rfl) (by decide +kernel)
    (Runs.run_of_exec bending rfl) (by simp [Orderly, bending, XyberController.Event.isCommand])
    rfl rfl (by simp [messages, bending]) (t := ⟨"left", -1, "knee_left", "left_knee"⟩) (.head _) rfl⟩

end Knee

end PublishSystem
end MybipedalDeploy.JointDriver
