import MybipedalDeploy.JointDriver.FailedStart
import MybipedalDeploy.JointDriver.JointCommand
import MybipedalDeploy.Library.Runs

/-!
# Shutdown against the command callback

Callbacks, the shutdown and the other threads take turns section by section.
The flag is tested once per callback, so a callback that is under way can write
a command after the stop request of its actuator. Nothing else can.
-/

namespace MybipedalDeploy.JointDriver
open Threads (Thread)
open Runs (Run Along)
open Msg (JointCommand)
open RobstrideMotor (commStop commMitControl)

namespace CanBus
variable {K : Type*}

/-- An MIT command that enters the queue after the stop request of its motor. -/
def Overruns : BusEvent → BusEvent → Prop
  | .captured f, .queued _ g =>
    f.commType = commStop ∧ g.commType = commMitControl ∧ g.motorId = f.motorId
  | _, _ => False

instance : DecidableRel Overruns := fun e e' => by
  unfold Overruns
  split <;> infer_instance

/-- Once a stop request is captured, no MIT command of its motor is queued. -/
def StopHolds (b : CanBus K) : Prop := b.trace.Pairwise fun e e' => ¬ Overruns e e'

instance (b : CanBus K) : Decidable b.StopHolds := inferInstanceAs (Decidable (List.Pairwise _ _))

def capturedStop (b : CanBus K) (id : CanId) : Bool :=
  b.trace.any fun
    | .captured f => f.commType == commStop && f.motorId == id.val
    | _ => false

theorem capturedStop_eq_true {b : CanBus K} {id : CanId} :
    b.capturedStop id = true ↔
      ∃ f, BusEvent.captured f ∈ b.trace ∧ f.commType = commStop ∧ f.motorId = id.val := by
  simp only [capturedStop, List.any_eq_true]
  constructor
  · rintro ⟨e, he, htest⟩
    split at htest
    · exact ⟨_, he, by simpa using htest⟩
    · cases htest
  · rintro ⟨f, hf, htest⟩
    exact ⟨_, hf, by simpa using htest⟩

structure Stopping (b : CanBus K) : Prop where
  addressed : ∀ id ∈ b.registry.actuatorById,
    (b.sendSlot id).commType = commMitControl → (b.sendSlot id).motorId = id.val
  silenced : ∀ id ∈ b.registry.actuatorById, b.capturedStop id = true →
    (b.sendSlot id).commType ≠ commMitControl
  holds : b.StopHolds

theorem Starting.capturedStop {b : CanBus K} (h : b.Starting) (id : CanId) :
    b.capturedStop id = false := by
  refine Bool.eq_false_iff.mpr fun hstop => ?_
  obtain ⟨f, hf, hcomm, -⟩ := capturedStop_eq_true.mp hstop
  exact absurd ((h.captured f hf).symm.trans hcomm) (by decide)

theorem Starting.stopping {b : CanBus K} (h : b.Starting) : b.Stopping := by
  refine ⟨fun id hid => (h.slots id hid).addressed, fun id _ hstop => ?_, ?_⟩
  · rw [h.capturedStop id] at hstop
    cases hstop
  · refine List.pairwise_of_forall_mem_list fun e he e' _ hover => ?_
    cases e with
    | queued => exact hover
    | captured f =>
      cases e' with
      | captured => exact hover
      | queued o g => exact absurd ((h.captured f he).symm.trans hover.1) (by decide)

section Moves
variable {b : CanBus K}

theorem Stopping.of_same {b' : CanBus K} (h : b.Stopping)
    (hreg : b'.registry = b.registry) (hsend : b'.sendBuf = b.sendBuf)
    (htrace : b'.trace = b.trace) : b'.Stopping := by
  obtain ⟨interface, registry, actuator, sendBuf, recvBuf, trace⟩ := b
  obtain ⟨interface', registry', actuator', sendBuf', recvBuf', trace'⟩ := b'
  subst hreg hsend htrace
  exact ⟨h.addressed, h.silenced, h.holds⟩

theorem Stopping.parse [Field K] (h : b.Stopping) (id : CanId) : (b.parse id).Stopping :=
  h.of_same rfl rfl rfl

theorem Stopping.setPeriodic [Field K] [LinearOrder K] [FloorSemiring K] (h : b.Stopping)
    {id : CanId} (hstop : b.capturedStop id = false) (c : Periodic K) :
    (b.setPeriodic id c).Stopping := by
  refine ⟨fun id' hid' => ?_, fun id' hid' hstop' => ?_, h.holds⟩
  · rw [sendSlot_setPeriodic]
    split_ifs with heq
    · intro _
      rw [(b.actuator id).val.periodic_motorId, (b.actuator id).prop, heq]
    · exact h.addressed id' hid'
  · rw [sendSlot_setPeriodic]
    split_ifs with heq
    · rw [heq] at hstop'
      exact absurd (hstop'.symm.trans hstop) (by decide)
    · exact h.silenced id' hid' hstop'

end Moves
end CanBus

namespace Port
open CanBus (Stopping)
variable {K : Type*} {p : Port K}

theorem captured_transmit {origin : Origin} {f g : CanFrame} :
    .captured f ∈ (p.transmit origin g).bus.trace ↔ .captured f ∈ p.bus.trace := by
  unfold transmit
  split_ifs
  · simp [record]
  · rfl

theorem stopping_queued (h : p.bus.Stopping) {origin : Origin} {g : CanFrame}
    (hg : g.commType = commMitControl → ∀ f, .captured f ∈ p.bus.trace → f.commType = commStop →
      g.motorId ≠ f.motorId) : (p.transmit origin g).bus.Stopping := by
  unfold transmit
  split_ifs
  · refine ⟨h.addressed, fun id hid hstop => h.silenced id hid ?_, ?_⟩
    · obtain ⟨f, hf, hfields⟩ := CanBus.capturedStop_eq_true.mp hstop
      exact CanBus.capturedStop_eq_true.mpr ⟨f, by simpa [record] using hf, hfields⟩
    · refine List.pairwise_append.mpr ⟨h.holds, List.pairwise_singleton _ _, fun e he e' he' => ?_⟩
      obtain rfl := List.mem_singleton.mp he'
      cases e with
      | queued => exact id
      | captured f => exact fun hover => hg hover.2.1 f he hover.1 hover.2.2
  · exact h

theorem stopping_transmitAll (h : p.bus.Stopping) : p.transmitAll.bus.Stopping := by
  have hfs : ∀ g ∈ p.bus.transmitAll, g.commType = commMitControl →
      ∀ f, .captured f ∈ p.bus.trace → f.commType = commStop → g.motorId ≠ f.motorId := by
    intro g hg hmit f hf hstop hmotor
    obtain ⟨id, hid, hslot⟩ := List.mem_filterMap.mp hg
    split_ifs at hslot
    cases hslot
    refine h.silenced id hid (CanBus.capturedStop_eq_true.mpr ⟨f, hf, hstop, ?_⟩) hmit
    exact hmotor.symm.trans (h.addressed id hid hmit)
  -- The slots were read before the first frame is queued, so `hfs` serves for all of them.
  unfold transmitAll
  generalize p.bus.transmitAll = gs at hfs
  induction gs generalizing p with
  | nil => exact h
  | cons g gs ih =>
    refine ih (stopping_queued h (hfs g (by simp))) fun g' hg' hmit f hf => ?_
    exact hfs g' (by simp [hg']) hmit f (captured_transmit.mp hf)

theorem requestFrame_stop (id : CanId) :
    (CanBus.requestFrame .stateDisable id).commType = commStop :=
  CanBus.requestFrame_commType .stateDisable id

/-- The section that captures a stop request zeroes the slot it came through. -/
theorem stopping_capture (h : p.bus.Stopping) (id : CanId) :
    (p.capture id (.requestState .stateDisable)).bus.Stopping := by
  have hslot : ∀ id', ((p.capture id (.requestState .stateDisable)).bus.sendSlot id') =
      if id' = id then .zero else p.bus.sendSlot id' :=
    fun id' => p.bus.sendSlot_sendOnce id id' _
  refine ⟨fun id' hid' => ?_, fun id' hid' hstop => ?_, ?_⟩
  · rw [hslot]
    split_ifs
    · exact fun hzero => absurd hzero (by decide)
    · exact h.addressed id' hid'
  · rw [hslot]
    split_ifs with heq
    · decide
    · refine h.silenced id' hid' ?_
      obtain ⟨f, hf, hcomm, hmotor⟩ := CanBus.capturedStop_eq_true.mp hstop
      refine CanBus.capturedStop_eq_true.mpr ⟨f, ?_, hcomm, hmotor⟩
      rcases List.mem_append.mp hf with hf | hf
      · exact hf
      · -- The new request is for `id`, whose slot is zero now.
        obtain rfl := BusEvent.captured.inj (List.mem_singleton.mp hf)
        rw [CanBus.sendOnce_request, CanBus.requestFrame_motorId] at hmotor
        exact absurd (CanId.ext hmotor.symm) heq
  · refine List.pairwise_append.mpr ⟨h.holds, List.pairwise_singleton _ _, fun e _ e' he' => ?_⟩
    obtain rfl := List.mem_singleton.mp he'
    cases e <;> exact fun hover => hover

theorem sections_disable [Field K] (other : ActuatorState) (name : String) :
    (requestPower (K := K) .stateDisable other name).Sections
      fun act => ∀ p, p.bus.Stopping → (act p).bus.Stopping :=
  sections_requestPower (fun _ id h => stopping_capture h id)
    (fun _ id h => stopping_queued h fun hmit =>
      absurd ((requestFrame_stop id).symm.trans hmit) (by decide))
    (fun _ id h => h.parse id) other name

end Port

namespace XyberController
open CanBus (Stopping)
variable {K : Type*}

theorem busAt_setFlags (w : XyberController K) (device : String) (running looping : Bool)
    (ref : BusRef) :
    (w.setDevice device { w.device device with isRunning := running, looping := looping }).busAt ref =
      w.busAt ref := by
  simp only [busAt, setDevice, Function.update_apply]
  split_ifs with h
  · rw [h]
  · rfl

theorem sections_stopDevice {P : CanBus K → Prop} (device : String) :
    (stopDevice device).Sections fun act => ∀ w, Everywhere P w → Everywhere P (act w) := by
  intro w
  dsimp only
  split_ifs
  · refine ⟨fun w hw ref b hb => hw ref b ?_, fun _ => ⟨fun w hw ref b hb => hw ref b ?_,
      fun _ => trivial⟩⟩
    · rwa [busAt_setFlags] at hb
    · rwa [busAt_setFlags] at hb
  · trivial

theorem sections_stop {P : CanBus K → Prop} :
    (stop (K := K)).Sections fun act => ∀ w, Everywhere P w → Everywhere P (act w) := by
  intro w
  dsimp only
  split_ifs
  · exact .bind (.forEach (fun d => sections_stopDevice d) _) fun _ =>
      ⟨fun w hw => hw, fun _ => trivial⟩
  · trivial

variable [Field K]

theorem sections_disableAllActuator :
    (disableAllActuator (K := K)).Sections fun act =>
      ∀ w, Everywhere Stopping w → Everywhere Stopping (act w) := by
  refine fun w => .forAll (fun d => .forAll (fun i => ?_) _) _
  refine Thread.Sections.lift _ _ ?_ (.forAll (Port.sections_disable _) _)
  exact fun act hact w hw => hw.onPort ⟨d, i⟩ (hact _)

variable [LinearOrder K] [FloorSemiring K]

theorem passive_stopping : Passive (Stopping (K := K)) where
  storeFeedback _ _ _ h := h.of_same rfl rfl rfl
  transmitAll _ h := Port.stopping_transmitAll h
  get b name h := by
    simp only [CanBus.step]
    split
    · exact h.parse _
    · exact h

def Untouched (w : XyberController K) (name : String) : Prop :=
  ∀ t ∈ w.registration.resolve name, (w.port t.ref).bus.capturedStop t.id = false

instance (w : XyberController K) (name : String) : Decidable (w.Untouched name) :=
  inferInstanceAs (Decidable (∀ t ∈ w.registration.resolve name, _))

theorem Everywhere.setMitCmd_untouched {w : XyberController K} (h : Everywhere Stopping w)
    {name : String} (hname : w.Untouched name) (pos vel effort kp kd : K) :
    Everywhere Stopping (w.setMitCmd name pos vel effort kp kd) := by
  unfold XyberController.setMitCmd
  split
  · exact h
  next ref href =>
    refine h.onPort ref fun hbus => ?_
    simp only [CanBus.step]
    split
    next id hid =>
      have ht : w.registration.resolve name = some ⟨ref, name, id⟩ := by
        rw [resolve_eq, href]
        simp [hid]
      exact hbus.setPeriodic (hname _ ht) _
    · exact hbus

end XyberController

namespace JointDriverModule
open XyberController (Everywhere)
open CanBus (Stopping)
variable {K : Type*} [Field K]

def shutdown : Thread (JointDriverModule K) Unit :=
  .step (fun s => { s with isRunning := false }) fun _ =>
    (XyberController.disableAllActuator.lift ctrl withCtrl).bind fun _ =>
      XyberController.stop.lift ctrl withCtrl

theorem sections_shutdown :
    (shutdown (K := K)).Sections fun act =>
      ∀ m, Everywhere Stopping m.ctrl → Everywhere Stopping (act m).ctrl := by
  refine ⟨fun m hm => hm, fun _ => .bind ?_ fun _ => ?_⟩
  · refine Thread.Sections.lift _ _ ?_ XyberController.sections_disableAllActuator
    exact fun act hact m hm => hact m.ctrl hm
  · refine Thread.Sections.lift _ _ ?_ (XyberController.sections_stop (P := Stopping))
    exact fun act hact m hm => hact m.ctrl hm

end JointDriverModule

structure System (K : Type*) where
  module : JointDriverModule K
  callback : ℕ → Callback K
  shutdown : Thread (JointDriverModule K) Unit

namespace System
open XyberController (Everywhere Event)
open CanBus (Stopping)
variable {K : Type*} [Field K] [LinearOrder K] [FloorSemiring K]

inductive Action (K : Type*)
  | start
  | deliver (call : ℕ) (msg : JointCommand K)
  | callback (call : ℕ)
  | shutdown
  | other (e : Event K)

def step (s : System K) : Action K → Option (System K)
  | .start => some { s with module := { s.module with isRunning := true } }
  | .deliver call msg =>
    match s.callback call with
    | .idle => some { s with callback := Function.update s.callback call (.test msg) }
    | _ => none
  | .callback call =>
    let r := (s.callback call).step s.module
    some { s with callback := Function.update s.callback call r.1, module := r.2 }
  | .shutdown =>
    let r := s.shutdown.advance s.module
    some { s with shutdown := r.1, module := r.2 }
  | .other e =>
    if e.isCommand then none
    else some { s with module := s.module.withCtrl (s.module.ctrl.apply e) }

def initialized (opens : String → Bool) (framework : Bool) (file : Option (Config K))
    (events : ℕ → List (Event K)) : System K where
  module := ((JointDriverModule.initializeModule opens framework file).run
    (JointDriverModule.others events) 0 .empty).state
  callback := fun _ => .idle
  shutdown := JointDriverModule.shutdown

/-- A callback writes a command only for an actuator whose stop was not captured. -/
def InTime (s : System K) : Action K → Prop
  | .callback call =>
    match s.callback call with
    | .send (name :: _) => s.module.ctrl.Untouched name
    | _ => True
  | _ => True

instance (s : System K) (a : Action K) : Decidable (s.InTime a) := by
  unfold InTime
  split
  · split <;> infer_instance
  · infer_instance

structure Inv (s : System K) : Prop where
  buses : Everywhere Stopping s.module.ctrl
  shutdown : s.shutdown.Sections fun act =>
    ∀ m, Everywhere Stopping m.ctrl → Everywhere Stopping (act m).ctrl

theorem inv_initialized (opens : String → Bool) (framework : Bool) (file : Option (Config K))
    (events : ℕ → List (Event K)) : (initialized opens framework file events).Inv :=
  ⟨fun ref b hb => (JointDriverModule.starting_initializeModule events opens framework file
    ref b hb).stopping, JointDriverModule.sections_shutdown⟩

theorem inv_callback {s : System K} {call : ℕ} (hs : Everywhere Stopping s.module.ctrl)
    (hg : s.InTime (.callback call)) :
    Everywhere Stopping ((s.callback call).step s.module).2.ctrl := by
  simp only [InTime] at hg
  cases hc : s.callback call with
  | idle => exact hs
  | test msg => exact hs
  | cache msg => simpa [Callback.step] using hs
  | transform => simpa [Callback.step] using hs
  | send names =>
    cases names with
    | nil => exact hs
    | cons name names =>
      rw [hc] at hg
      simp only [Callback.step, JointDriverModule.sendCommand]
      split
      · exact hs
      · exact hs.setMitCmd_untouched hg _ _ _ _ _

theorem inv_step {s t : System K} {a : Action K} (hs : s.Inv) (hg : s.InTime a)
    (h : s.step a = some t) : t.Inv := by
  cases a with
  | start =>
    cases h
    exact ⟨hs.buses, hs.shutdown⟩
  | deliver call msg =>
    simp only [step] at h
    split at h
    · cases h
      exact ⟨hs.buses, hs.shutdown⟩
    · cases h
  | callback call =>
    cases h
    exact ⟨inv_callback hs.buses hg, hs.shutdown⟩
  | shutdown =>
    cases h
    exact ⟨Thread.advance_invariant (I := fun m : JointDriverModule K => Everywhere Stopping m.ctrl)
      hs.shutdown hs.buses, hs.shutdown.advance s.module⟩
  | other e =>
    simp only [step] at h
    split_ifs at h with he
    cases h
    exact ⟨hs.buses.apply_passive XyberController.passive_stopping (by simpa using he), hs.shutdown⟩

/-- While no callback writes for an actuator whose stop request was captured, no
MIT command of a motor is queued after its stop request. -/
theorem no_command_after_stop (opens : String → Bool) (framework : Bool)
    (file : Option (Config K)) (events : ℕ → List (Event K)) {as : List (Action K)} {s : System K}
    (h : Run step (initialized opens framework file events) as s)
    (hG : Along step InTime (initialized opens framework file events) as) :
    Everywhere CanBus.StopHolds s.module.ctrl := by
  have hinv : s.Inv := h.guarded InTime (fun _ s => s.Inv) (inv_initialized ..)
    (fun _ _ _ _ hs hg hstep => inv_step hs hg hstep) hG
  exact fun ref b hb => (hinv.buses ref b hb).holds

def knee : System ℚ :=
  initialized (fun _ => true) true (some
    { actuatorDebug := some false
      enableActuator := some false
      publishFrequency := some 1000
      jointList := some ["knee_joint"]
      actuatorList := some ["knee"]
      driverNetwork := some [⟨"dcu", ["can0", "", "", ""], true,
        fun ch => if ch.val = 0 then [⟨"knee", "Robstride_02", 1⟩] else []⟩]
      canService := some ⟨-1, 80, 1538461⟩
      transmission := [⟨some "knee_trans", some "SimpleTransmission", some 1, some "knee_joint",
        some "knee"⟩] }) fun _ => []

def kneeCommand : JointCommand ℚ := ⟨["knee_joint"], [1], [0], [0], [50], [1]⟩

def untilSend : List (Action ℚ) :=
  [.start, .deliver 0 kneeCommand, .callback 0, .callback 0, .callback 0]

def inTime : List (Action ℚ) :=
  untilSend ++ [.callback 0, .other (.controlLoop (.first "dcu")), .shutdown, .shutdown, .shutdown,
    .other (.controlLoop (.first "dcu"))]

def overtaken : List (Action ℚ) :=
  untilSend ++ [.shutdown, .shutdown, .callback 0, .other (.controlLoop (.first "dcu"))]

theorem inTime_runs : (Runs.exec step knee inTime).isSome = true := by decide +kernel
theorem overtaken_runs : (Runs.exec step knee overtaken).isSome = true := by decide +kernel

theorem no_command_after_stop_knee :
    Everywhere CanBus.StopHolds ((Runs.exec step knee inTime).get inTime_runs).module.ctrl :=
  no_command_after_stop _ _ _ _ (Runs.run_of_exec inTime (Option.some_get _).symm)
    (Runs.along_of_guardsHold (by decide +kernel))

/-- The cyclic transmitter sends the late command after the stop request. -/
theorem command_after_stop :
    ¬ ∀ as s, Run step knee as s → Everywhere CanBus.StopHolds s.module.ctrl := by
  intro h
  have hlate := h overtaken _ (Runs.run_of_exec overtaken (Option.some_get overtaken_runs).symm)
    (.first "dcu") _ (Option.some_get (by decide +kernel)).symm
  revert hlate
  decide +kernel

end System
end MybipedalDeploy.JointDriver
