import MybipedalDeploy.JointDriver.XyberController

/-!
# Requests for a power state

Enabling and disabling an actuator from the controller: which one-shot frame
enters the history of its bus, and when the call reports success. No other
section of the process adds a one-shot frame.
-/

namespace MybipedalDeploy.JointDriver
open Threads (Thread Outcome)
open RobstrideMotor (commEnable commStop masterId)

namespace CanBus
variable {K : Type*} (b : CanBus K)

def sentOnce : List CanFrame :=
  b.trace.filterMap fun
    | .queued .once f => some f
    | _ => none

theorem mem_sentOnce {b : CanBus K} {f : CanFrame} :
    f ∈ b.sentOnce ↔ BusEvent.queued .once f ∈ b.trace := by
  simp only [sentOnce, List.mem_filterMap]
  constructor
  · rintro ⟨e, he, heq⟩
    split at heq
    · cases heq
      exact he
    · cases heq
  · exact fun h => ⟨_, h, rfl⟩

def requestComm (state : ActuatorState) : Byte :=
  if state = .stateEnable then commEnable else commStop

def requestFrame (state : ActuatorState) (id : CanId) : CanFrame :=
  ⟨CanFrame.composeId (requestComm state) masterId id.val, Payload.ofHead 0⟩

theorem requestFrame_commType (state : ActuatorState) (id : CanId) :
    (requestFrame state id).commType = requestComm state := by
  refine CanFrame.composeId_commType _ _ _ _ ?_
  cases state <;> decide

theorem requestFrame_motorId (state : ActuatorState) (id : CanId) :
    (requestFrame state id).motorId = id.val := CanFrame.composeId_motorId _ _ _ _

theorem requestFrame_injective (state : ActuatorState) :
    Function.Injective (requestFrame state) := by
  intro a b h
  have hid := congrArg CanFrame.motorId h
  rw [requestFrame_motorId, requestFrame_motorId] at hid
  exact CanId.ext hid

theorem sendOnce_request (state : ActuatorState) (id : CanId) :
    (b.sendOnce id (.requestState state)).2 = requestFrame state id := by
  rw [Port.sendOnce_requestState, requestFrame, requestComm]
  cases state <;>
    simp [Payload.ofHead, RobstrideMotor.requestState, RobstrideMotor.writeFrame, (b.actuator id).prop]

end CanBus

namespace Port
variable {K : Type*} (p : Port K)

theorem sentOnce_transmit (origin : Origin) (f : CanFrame) :
    (p.transmit origin f).bus.sentOnce =
      p.bus.sentOnce ++ if origin = .once ∧ p.socket.accepts = true then [f] else [] := by
  unfold transmit
  cases origin <;> split_ifs <;> simp_all [record, CanBus.sentOnce]

@[simp] theorem sentOnce_capture (id : CanId) (c : OneShot) :
    (p.capture id c).bus.sentOnce = p.bus.sentOnce := by
  simp [capture, record, CanBus.sentOnce, CanBus.sendOnce, CanBus.writeSend, CanBus.setActuator]

@[simp] theorem sentOnce_transmitAll : p.transmitAll.bus.sentOnce = p.bus.sentOnce := by
  unfold transmitAll
  generalize p.bus.transmitAll = fs
  induction fs generalizing p with
  | nil => rfl
  | cons f fs ih => simpa [sentOnce_transmit] using ih (p.transmit .cyclic f)

theorem sections_requestPower [Field K] {I : Port K → Prop} {want : ActuatorState}
    (hcapture : ∀ p id, I p → I (p.capture id (.requestState want)))
    (htransmit : ∀ p id, I p → I (p.transmit .once (CanBus.requestFrame want id)))
    (hparse : ∀ p id, I p → I (p.parse id)) (other : ActuatorState) (name : String) :
    (requestPower want other name).Sections fun act => ∀ p, I p → I (act p) := by
  intro p
  dsimp only
  split
  · trivial
  next id _ =>
    refine .bind ⟨fun p h => hcapture p id h, fun q => ⟨fun p h => ?_, fun _ => trivial⟩⟩
      fun _ => .bind (.poll (fun p h => hparse p id h) _ _ _ _) fun _ => trivial
    rw [CanBus.sendOnce_request]
    exact htransmit p id h

end Port

namespace XyberController
open CanBus (requestFrame)
variable {K : Type*} [Field K]

def sentOnce (w : XyberController K) (ref : BusRef) : List CanFrame := (w.port ref).bus.sentOnce

theorem sentOnce_setPort (w : XyberController K) (ref ref' : BusRef) (p : Port K) :
    (w.setPort ref p).sentOnce ref' =
      if ref' = ref ∧ (w.busAt ref).isSome = true then p.bus.sentOnce else w.sentOnce ref' := by
  unfold setPort
  by_cases hsome : (w.busAt ref).isSome = true
  · simp only [sentOnce, port, if_pos hsome, busAt_setSocket, busAt_setBus]
    split_ifs <;> simp_all
  · simp [hsome]

theorem sentOnce_onPort (w : XyberController K) (ref ref' : BusRef) {f : Port K → Port K}
    (hf : ∀ p, (f p).bus.sentOnce = p.bus.sentOnce) :
    (w.onPort ref f).sentOnce ref' = w.sentOnce ref' := by
  rw [onPort, sentOnce_setPort, hf]
  split_ifs with h
  · rw [h.1]
    rfl
  · rfl

structure Quiet (w w' : XyberController K) : Prop where
  registration : w'.registration = w.registration
  sentOnce : ∀ ref, w'.sentOnce ref = w.sentOnce ref

namespace Quiet

theorem refl (w : XyberController K) : Quiet w w := ⟨rfl, fun _ => rfl⟩

theorem trans {w w' w'' : XyberController K} (h : Quiet w w') (h' : Quiet w' w'') :
    Quiet w w'' :=
  ⟨h'.registration.trans h.registration, fun ref => (h'.sentOnce ref).trans (h.sentOnce ref)⟩

theorem onPort (w : XyberController K) (ref : BusRef) {f : Port K → Port K}
    (hreg : ∀ p, (f p).bus.registry = p.bus.registry)
    (hsent : ∀ p, (f p).bus.sentOnce = p.bus.sentOnce) : Quiet w (w.onPort ref f) :=
  ⟨w.registration_setPort ref (hreg _), fun ref' => w.sentOnce_onPort ref ref' hsent⟩

end Quiet

section Others
variable [LinearOrder K] [FloorSemiring K]

theorem sentOnce_step (b : CanBus K) (op : CanBus.Op K) :
    (b.step op).1.sentOnce = b.sentOnce := by
  cases op with
  | sendOnce name c => simp only [CanBus.step]; split <;> rfl
  | setPeriodic name c => simp only [CanBus.step]; split <;> rfl
  | transmitAll => rfl
  | receive f => simp only [CanBus.step, CanBus.receive]; split <;> rfl
  | get name => simp only [CanBus.step]; split <;> rfl

theorem quiet_apply (w : XyberController K) (e : Event K) : Quiet w (w.apply e) := by
  cases e with
  | receive interface f =>
    simp only [apply]
    split
    · exact .refl w
    · exact .onPort w _ (fun _ => rfl) fun _ => rfl
  | sender interface => exact ⟨rfl, fun _ => rfl⟩
  | controlLoop ref =>
    simp only [apply]
    split_ifs
    · exact .onPort w ref (fun p => p.transmitAll_registry) fun p => p.sentOnce_transmitAll
    · exact .refl w
  | get name =>
    simp only [apply]
    split
    · exact .refl w
    · exact .onPort w _ (fun p => p.bus.step_registry _) fun p => sentOnce_step p.bus _
  | setMitCmd name pos vel effort kp kd =>
    simp only [apply, setMitCmd]
    split
    · exact .refl w
    · exact .onPort w _ (fun p => p.bus.step_registry _) fun p => sentOnce_step p.bus _

theorem quiet_others (events : ℕ → List (Event K)) (n : ℕ) (w : XyberController K) :
    Quiet w (others events n w) := by
  unfold others
  generalize events n = es
  induction es generalizing w with
  | nil => exact .refl w
  | cons e es ih => exact (quiet_apply w e).trans (ih (w.apply e))

end Others

structure Target where
  ref : BusRef
  name : String
  id : CanId

def Registration.Has (r : Registration) (t : Target) : Prop :=
  (r.bus t.ref).bind (·.getActuator t.name) = some t.id

instance (r : Registration) (t : Target) : Decidable (r.Has t) :=
  inferInstanceAs (Decidable (_ = _))

theorem Registration.Has.unique {r : Registration} {t t' : Target} (h : r.Has t) (h' : r.Has t')
    (href : t.ref = t'.ref) (hid : t.id = t'.id) : t = t' := by
  obtain ⟨ref, name, id⟩ := t
  obtain ⟨ref', name', id'⟩ := t'
  obtain rfl : ref = ref' := href
  obtain rfl : id = id' := hid
  obtain ⟨reg, hreg, hname⟩ := Option.bind_eq_some_iff.mp h
  obtain ⟨reg', hreg', hname'⟩ := Option.bind_eq_some_iff.mp h'
  obtain rfl : reg = reg' := Option.some.inj (hreg.symm.trans hreg')
  obtain rfl : name = name' := Registry.getActuator_injective hname hname'
  rfl

theorem Registration.Has.port {w : XyberController K} {t : Target} (h : w.registration.Has t) :
    (w.busAt t.ref).isSome = true ∧
      (w.port t.ref).bus.registry.getActuator t.name = some t.id := by
  obtain ⟨reg, hreg, hname⟩ := Option.bind_eq_some_iff.mp h
  obtain ⟨b, hb, rfl⟩ := Option.map_eq_some_iff.mp hreg
  simp [XyberController.port, hb, hname]

def requestAt (want other : ActuatorState) (t : Target) : Thread (XyberController K) Bool :=
  (Port.requestPower want other t.name).lift (port · t.ref) (setPort · t.ref)

def Registration.resolve (r : Registration) (name : String) : Option Target :=
  (r.actrDevMap name).bind fun d => (r.actuatorBusMap d name).bind fun i =>
    (r.bus ⟨d, i⟩).bind fun reg => (reg.getActuator name).map fun id => ⟨⟨d, i⟩, name, id⟩

theorem resolve_eq (w : XyberController K) (name : String) :
    w.registration.resolve name = (w.findBus name).bind fun ref =>
      (w.port ref).bus.registry.getActuator name |>.map fun id => ⟨ref, name, id⟩ := by
  simp only [Registration.resolve, registration, findBus]
  cases hd : w.actrDevMap name with
  | none => rfl
  | some d =>
    cases hi : (w.device d).actuatorBusMap name with
    | none => simp [hi]
    | some i =>
      cases hb : w.busAt ⟨d, i⟩ with
      | none => simp [hi, hb, port, CanBus.new, Registry.empty, Registry.getActuator]
      | some b => simp [hi, hb, port]

theorem Registration.resolve_has {r : Registration} {name : String} {t : Target}
    (h : r.resolve name = some t) : r.Has t := by
  obtain ⟨d, _, h⟩ := Option.bind_eq_some_iff.mp h
  obtain ⟨i, _, h⟩ := Option.bind_eq_some_iff.mp h
  obtain ⟨reg, hreg, h⟩ := Option.bind_eq_some_iff.mp h
  obtain ⟨id, hid, rfl⟩ := Option.map_eq_some_iff.mp h
  exact Option.bind_eq_some_iff.mpr ⟨reg, hreg, hid⟩

theorem enableActuator_run_none (env : ℕ → XyberController K → XyberController K) {name : String}
    {w : XyberController K} (h : w.registration.resolve name = none) (n : ℕ) :
    (enableActuator name).run env n w = ⟨false, n, w⟩ := by
  rw [resolve_eq] at h
  simp only [enableActuator, Thread.run]
  cases href : w.findBus name with
  | none => rfl
  | some ref =>
    have hname : (w.port ref).bus.registry.getActuator name = none := by simpa [href] using h
    simp only [Port.enableActuator, Port.requestPower, Thread.lift, Thread.run, hname]

theorem enableActuator_run_some (env : ℕ → XyberController K → XyberController K) {name : String}
    {w : XyberController K} {t : Target} (h : w.registration.resolve name = some t) (n : ℕ) :
    (enableActuator name).run env n w = (requestAt .stateEnable .stateDisable t).run env n w := by
  rw [resolve_eq] at h
  obtain ⟨ref, href, h⟩ := Option.bind_eq_some_iff.mp h
  obtain ⟨id, _, rfl⟩ := Option.map_eq_some_iff.mp h
  simp only [enableActuator, Thread.run, href]
  rfl

section Request
variable [LinearOrder K] [FloorSemiring K] (events : ℕ → List (Event K)) (want : ActuatorState)

def beforeTransmit (t : Target) (n : ℕ) (w : XyberController K) : XyberController K :=
  others events (n + 1) ((others events n w).onPort t.ref fun p =>
    p.capture t.id (.requestState want))

def afterTransmit (t : Target) (n : ℕ) (w : XyberController K) : XyberController K :=
  (beforeTransmit events want t n w).onPort t.ref fun p => p.transmit .once (requestFrame want t.id)

def Room (t : Target) (n : ℕ) (w : XyberController K) : Prop :=
  ((beforeTransmit events want t n w).port t.ref).socket.accepts = true

def Acknowledges (t : Target) (n : ℕ) (w : XyberController K) : Prop :=
  ∃ i, i < Port.pollLimit ∧
    ((Thread.seen (others events) (fun w => w.onPort t.ref fun p => p.parse t.id) (n + 2)
      (afterTransmit events want t n w) i).port t.ref).powerState t.id = want

variable {events want}

theorem quiet_beforeTransmit (t : Target) (n : ℕ) (w : XyberController K) :
    Quiet w (beforeTransmit events want t n w) :=
  ((quiet_others events n w).trans (.onPort _ _ (fun p => p.capture_registry _ _)
    fun p => p.sentOnce_capture _ _)).trans (quiet_others events (n + 1) _)

theorem registration_afterTransmit (t : Target) (n : ℕ) (w : XyberController K) :
    (afterTransmit events want t n w).registration = w.registration :=
  (registration_setPort _ _ (by simp)).trans (quiet_beforeTransmit t n w).registration

open Classical in
theorem sentOnce_afterTransmit {w : XyberController K} {t : Target} (ht : w.registration.Has t)
    (n : ℕ) (ref : BusRef) :
    (afterTransmit events want t n w).sentOnce ref = w.sentOnce ref ++
      if ref = t.ref ∧ Room events want t n w then [requestFrame want t.id] else [] := by
  have hquiet : Quiet w (beforeTransmit events want t n w) := quiet_beforeTransmit t n w
  rw [← hquiet.registration] at ht
  rw [← hquiet.sentOnce ref, afterTransmit, onPort, sentOnce_setPort, Port.sentOnce_transmit]
  by_cases href : ref = t.ref
  · simp [href, ht.port.1, Room, sentOnce]
  · simp [href]

variable {other : ActuatorState}

theorem run_requestAt_eq {w : XyberController K} {t : Target} (ht : w.registration.Has t) (n : ℕ) :
    (requestAt want other t).run (others events) n w =
      let r := (Thread.poll (fun w : XyberController K => w.onPort t.ref fun p => p.parse t.id)
        (fun w => (w.port t.ref).powerState t.id) want Port.pollLimit other).run
          (others events) (n + 2) (afterTransmit events want t n w)
      ⟨decide (r.value = want), r.tick, r.state⟩ := by
  have hrun := Port.run_lift_requestPower (port · t.ref) (setPort · t.ref) (others events)
    want other ht.port.2 n
  simp only [CanBus.sendOnce_request] at hrun
  exact hrun

open Classical in
variable (events) in
/-- One actuator: what the call queues, and when it reports success. -/
theorem run_requestAt (hother : other ≠ want) {w : XyberController K} {t : Target}
    (ht : w.registration.Has t) (n : ℕ) :
    let r := (requestAt want other t).run (others events) n w
    r.state.registration = w.registration ∧
      (∀ ref, r.state.sentOnce ref = w.sentOnce ref ++
        if ref = t.ref ∧ Room events want t n w then [requestFrame want t.id] else []) ∧
      (r.value = true ↔ Acknowledges events want t n w) := by
  simp only [run_requestAt_eq ht, decide_eq_true_eq]
  have hquiet : Quiet (afterTransmit events want t n w)
      ((Thread.poll (fun w : XyberController K => w.onPort t.ref fun p => p.parse t.id)
        (fun w => (w.port t.ref).powerState t.id) want Port.pollLimit other).run
          (others events) (n + 2) (afterTransmit events want t n w)).state := by
    refine Thread.run_invariant (I := Quiet (afterTransmit events want t n w))
      (fun n v hv => hv.trans (quiet_others events n v)) ?_ (.refl _)
    refine .poll (fun v hv => hv.trans ?_) _ _ _ _
    exact .onPort v t.ref (fun _ => rfl) fun _ => rfl
  refine ⟨hquiet.registration.trans (registration_afterTransmit t n w), fun ref => ?_, ?_⟩
  · exact (hquiet.sentOnce ref).trans (sentOnce_afterTransmit ht n ref)
  · exact Thread.run_poll_value _ _ _ _ _ hother _ _

end Request
end XyberController
end MybipedalDeploy.JointDriver
