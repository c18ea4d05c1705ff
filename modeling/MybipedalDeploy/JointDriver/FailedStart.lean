import Mathlib.Data.Rat.Floor
import MybipedalDeploy.JointDriver.Startup

/-!
# Motors left energised by a failed start

The outcome of `Initialize` and the requests it queues, in terms of the
configuration and of the feedback that arrives meanwhile.
-/

namespace MybipedalDeploy.JointDriver
open Threads (Thread Outcome)
open RobstrideMotor (commEnable commStop)

namespace XyberController
variable {K : Type*}

theorem busAt_start (w : XyberController K) (ref : BusRef) : w.start.2.busAt ref = w.busAt ref := by
  unfold start
  split_ifs
  · rfl
  · rfl
  · simp only [busAt]
    split_ifs
    · unfold CanDevice.start
      split_ifs <;> rfl
    · rfl

theorem Everywhere.start {P : CanBus K → Prop} {w : XyberController K} (h : Everywhere P w) :
    Everywhere P w.start.2 := fun ref b hb => h ref b (by rwa [busAt_start] at hb)

theorem start_eq_true {w : XyberController K} (hidle : w.isRunning = false) :
    w.start.1 = true ↔ w.deviceOrder ≠ [] := by
  unfold start
  split_ifs with hrun hempty
  · simp [hidle] at hrun
  · simp [hempty]
  · simp [hempty]

theorem everywhere_empty (P : CanBus K → Prop) : Everywhere P (empty : XyberController K) := by
  intro ref b hb
  simp [busAt, empty, CanDevice.empty] at hb

section Empty
variable [Field K]

theorem not_asked_of_everywhere {w : XyberController K}
    (h : Everywhere (fun b => b.sentOnce = []) w) : ¬ Asked w := by
  rintro ⟨ref, href⟩
  refine href ?_
  simp only [sentOnce, port]
  cases hb : w.busAt ref with
  | none => rfl
  | some b => exact h ref b hb

theorem not_asked_empty : ¬ Asked (empty : XyberController K) :=
  not_asked_of_everywhere (everywhere_empty _)

theorem asked_start {w : XyberController K} : Asked w.start.2 ↔ Asked w := by
  have hsent : ∀ ref, w.start.2.sentOnce ref = w.sentOnce ref := by
    intro ref
    simp only [sentOnce, port, busAt_start]
  simp only [Asked, hsent]

variable [LinearOrder K] [FloorSemiring K]

theorem isRunning_apply (w : XyberController K) (e : Event K) :
    (w.apply e).isRunning = w.isRunning := by
  cases e with
  | receive interface f => simp only [apply]; split <;> simp [onPort]
  | sender interface => rfl
  | controlLoop ref => simp only [apply]; split <;> simp [onPort]
  | get name => simp only [apply]; split <;> simp [onPort]
  | setMitCmd name pos vel effort kp kd => simp only [apply, setMitCmd]; split <;> simp [onPort]

theorem isRunning_others (events : ℕ → List (Event K)) (n : ℕ) (w : XyberController K) :
    (others events n w).isRunning = w.isRunning := by
  unfold others
  generalize events n = es
  induction es generalizing w with
  | nil => rfl
  | cons e es ih => exact (ih (w.apply e)).trans (isRunning_apply w e)

theorem apply_empty (e : Event K) : (empty : XyberController K).apply e = empty := by
  cases e with
  | sender interface =>
    have hsame : Function.update (fun _ : String => SocketCan.closed) interface .closed =
        fun _ => .closed := Function.update_eq_self _ _
    exact congrArg (fun sockets => { (empty : XyberController K) with socket := sockets }) hsame
  | controlLoop ref => rfl
  | _ => rfl

theorem others_empty (events : ℕ → List (Event K)) (n : ℕ) :
    others events n (empty : XyberController K) = empty := by
  unfold others
  induction events n with
  | nil => rfl
  | cons e es ih => rwa [List.foldl_cons, apply_empty]

end Empty
end XyberController

namespace JointDriverModule
open XyberController (Asked SomeQueued AllEnabled Everywhere Event Quiet)
open CanBus (Starting)

section Setup
variable {K : Type*}

def Readable (node : TransmissionConfig K) : Prop :=
  node.name.isSome ∧ node.type = some "SimpleTransmission" ∧ node.direction.isSome ∧
    node.joint.isSome ∧ node.actuator.isSome

theorem bindTransmission_eq_none (node : TransmissionConfig K) (s : JointDriverModule K) :
    (bindTransmission node s).1 = none ↔ Readable node := by
  obtain ⟨name, type, direction, joint, actuator⟩ := node
  unfold bindTransmission Readable
  cases name with
  | none => simp
  | some name =>
    cases type with
    | none => simp
    | some type =>
      dsimp only
      by_cases htype : type = "SimpleTransmission"
      · cases direction <;> cases joint <;> cases actuator <;> simp [htype]
        split_ifs <;> rfl
      · simp [htype]

theorem bindTransmissions_eq_none (nodes : List (TransmissionConfig K)) (s : JointDriverModule K) :
    (bindTransmissions nodes s).1 = none ↔ ∀ node ∈ nodes, Readable node := by
  induction nodes generalizing s with
  | nil => simp [bindTransmissions]
  | cons node nodes ih =>
    have hnode := bindTransmission_eq_none node s
    simp only [bindTransmissions, List.forall_mem_cons, ← hnode]
    split
    next heq => simp [heq, ih]
    next heq => simp [heq]

theorem bindTransmission_ctrl (node : TransmissionConfig K) (s : JointDriverModule K) :
    (bindTransmission node s).2.ctrl = s.ctrl := by
  unfold bindTransmission
  split
  · split
    · split
      · split <;> rfl
      · rfl
    · rfl
  · rfl

theorem bindTransmissions_ctrl (nodes : List (TransmissionConfig K)) (s : JointDriverModule K) :
    (bindTransmissions nodes s).2.ctrl = s.ctrl := by
  induction nodes generalizing s with
  | nil => rfl
  | cons node nodes ih =>
    have hnode := bindTransmission_ctrl node s
    simp only [bindTransmissions]
    split
    next heq =>
      rw [heq] at hnode
      exact (ih _).trans hnode
    next heq => rwa [heq] at hnode

structure Head (file : Option (Config K)) (cfg : Config K) (enable : Bool)
    (actuators : List String) : Prop where
  file : file = some cfg
  actuatorDebug : cfg.actuatorDebug.isSome
  enableActuator : cfg.enableActuator = some enable
  publishFrequency : cfg.publishFrequency.isSome
  jointList : cfg.jointList.isSome
  actuatorList : cfg.actuatorList = some actuators

theorem Head.unique {file : Option (Config K)} {cfg cfg' : Config K} {enable enable' : Bool}
    {actuators actuators' : List String} (h : Head file cfg enable actuators)
    (h' : Head file cfg' enable' actuators') :
    cfg = cfg' ∧ enable = enable' ∧ actuators = actuators' := by
  obtain rfl := Option.some.inj (h.file.symm.trans h'.file)
  exact ⟨rfl, Option.some.inj (h.enableActuator.symm.trans h'.enableActuator),
    Option.some.inj (h.actuatorList.symm.trans h'.actuatorList)⟩

/-- On every bus an enable request is followed by a stop request of the same motor. -/
def EnabledAreStopped (w : XyberController K) : Prop :=
  ∀ ref b, w.busAt ref = some b → ∀ pre o f post, b.trace = pre ++ .queued o f :: post →
    f.commType = commEnable → ∃ o' g, BusEvent.queued o' g ∈ post ∧ g.commType = commStop ∧
      g.motorId = f.motorId

/-- When nothing but enable requests was queued, the first one is left behind. -/
theorem enabledAreStopped_iff [Field K] {w : XyberController K} (h : Everywhere Starting w) :
    EnabledAreStopped w ↔ ¬ Asked w := by
  constructor
  · rintro hstop ⟨ref, href⟩
    obtain ⟨f, hf⟩ := List.exists_mem_of_ne_nil _ href
    cases hb : w.busAt ref with
    | none => simp [XyberController.sentOnce, XyberController.port, hb, CanBus.sentOnce, CanBus.new] at hf
    | some b =>
      have hf : f ∈ b.sentOnce := by simpa [XyberController.sentOnce, XyberController.port, hb] using hf
      have hqueued := CanBus.mem_sentOnce.mp hf
      obtain ⟨pre, post, htrace⟩ := List.append_of_mem hqueued
      obtain ⟨o, g, hg, hcomm, -⟩ := hstop ref b hb pre .once f post htrace ((h ref b hb).once f hqueued)
      have hg : BusEvent.queued o g ∈ b.trace := by simp [htrace, hg]
      cases o with
      | once => exact absurd (hcomm.symm.trans ((h ref b hb).once g hg)) (by decide)
      | cyclic => exact ((h ref b hb).cyclic g hg).2 hcomm
  · rintro hasked ref b hb pre o f post htrace hcomm
    have hqueued : BusEvent.queued o f ∈ b.trace := by simp [htrace]
    cases o with
    | once =>
      refine absurd ⟨ref, List.ne_nil_of_mem (a := f) ?_⟩ hasked
      simpa [XyberController.sentOnce, XyberController.port, hb] using CanBus.mem_sentOnce.mpr hqueued
    | cyclic => exact absurd hcomm ((h ref b hb).cyclic f hqueued).1

theorem sections_enableActuators [Field K] (names : List String) :
    (enableActuators (K := K) names).Sections fun act =>
      ∀ s, Everywhere Starting s.ctrl → Everywhere Starting (act s).ctrl := by
  have hname : ∀ name, (XyberController.enableActuator (K := K) name).Sections fun act =>
      ∀ w, Everywhere Starting w → Everywhere Starting (act w) := by
    intro name w
    dsimp only
    split
    · trivial
    next ref _ =>
      exact (Port.sections_enable _ name).lift _ _ fun act hact w hw => hw.onPort ref (hact _)
  refine Thread.Sections.lift ctrl withCtrl ?_ (Thread.Sections.forEach hname names)
  exact fun act hact s hs => hact s.ctrl hs

theorem accepted_not_asked [Field K] (opens : String → Bool) {w : XyberController K} (listed : List String)
    (network : List DriverConfig) (h : (configure opens listed network .empty).2 = w) :
    ¬ Asked w ∧ w.isRunning = false := by
  have hempty : XyberController.Idle (fun b : CanBus K => b.sentOnce = []) false .empty :=
    ⟨XyberController.everywhere_empty _, rfl⟩
  have hidle := idle_configure (fun _ => rfl) (fun _ _ _ _ _ _ hb => hb) opens listed network hempty
  rw [h] at hidle
  exact ⟨XyberController.not_asked_of_everywhere hidle.buses, hidle.flag⟩

end Setup

section Runs
variable {K : Type*} [Field K] [LinearOrder K] [FloorSemiring K]
variable (events : ℕ → List (Event K))

def others (n : ℕ) (s : JointDriverModule K) : JointDriverModule K :=
  s.withCtrl (XyberController.others events n s.ctrl)

/-- The configuration sets up the controller `w`, with a device to start. -/
def Accepted (opens : String → Bool) (cfg : Config K) (listed : List String)
    (w : XyberController K) : Prop :=
  ∃ network, cfg.driverNetwork = some network ∧ cfg.canService.isSome ∧
    configure opens listed network .empty = (none, w) ∧ w.deviceOrder ≠ []

def started (w : XyberController K) : XyberController K :=
  (XyberController.others events 2 w).start.2

variable (opens : String → Bool) (cfg : Config K)

def DriverReady (listed : List String) (enable : Bool) : Prop :=
  ∃ w, Accepted opens cfg listed w ∧
    (enable = true → AllEnabled events listed 3 (started events w))

def DriverAsks (listed : List String) (enable : Bool) : Prop :=
  enable = true ∧ ∃ w, Accepted opens cfg listed w ∧
    SomeQueued events listed 3 (started events w)

theorem asked_started {w : XyberController K} : Asked (started events w) ↔ Asked w :=
  XyberController.asked_start.trans (XyberController.quiet_others events 2 w).asked

theorem run_clearCommands (names : List String) (n : ℕ) (s : JointDriverModule K) :
    ∃ w, ((clearCommands names).run (others events) n s).state = s.withCtrl w ∧
      Quiet s.ctrl w := by
  have hstep : ∀ (v : JointDriverModule K) (w : XyberController K), Quiet v.ctrl w →
      (∃ w', v = s.withCtrl w' ∧ Quiet s.ctrl w') →
      ∃ w', v.withCtrl w = s.withCtrl w' ∧ Quiet s.ctrl w' := by
    rintro v w hw ⟨w', rfl, hquiet⟩
    exact ⟨w, rfl, hquiet.trans hw⟩
  refine Thread.run_invariant (I := fun v => ∃ w, v = s.withCtrl w ∧ Quiet s.ctrl w)
    (fun n v => hstep v _ (XyberController.quiet_others events n v.ctrl)) ?_ ⟨s.ctrl, rfl, .refl _⟩
  induction names with
  | nil => trivial
  | cons name names ih =>
    refine ⟨fun v => hstep v _ ?_, fun _ => ih⟩
    exact XyberController.quiet_apply v.ctrl (.setMitCmd name 0 0 0 0 0)

theorem run_enableActuators (names : List String) (n : ℕ) (s : JointDriverModule K) :
    (enableActuators names).run (others events) n s =
      let r := (Thread.forEach XyberController.enableActuator names).run
        (XyberController.others events) n s.ctrl
      ⟨r.value, r.tick, s.withCtrl r.state⟩ :=
  Thread.run_lift ctrl withCtrl (fun _ _ => rfl) (fun _ _ _ => rfl) (fun _ => rfl)
    (fun _ _ => rfl) _ n s

theorem run_enabling (names : List String) (n : ℕ) (s : JointDriverModule K) :
    let r := ((enableActuators names).bind fun ok =>
      if ok then (clearCommands names).bind fun _ => .ret none
      else .ret (some InitError.enableActuator)).run (others events) n s
    (r.value = none ↔ AllEnabled events names n s.ctrl) ∧
      (Asked r.state.ctrl ↔ Asked s.ctrl ∨ SomeQueued events names n s.ctrl) := by
  obtain ⟨hloop, hvalue⟩ := XyberController.run_enableLoop events names n s.ctrl
  simp only [Thread.run_bind, run_enableActuators, ← hvalue, ← hloop]
  generalize (Thread.forEach XyberController.enableActuator names).run
    (XyberController.others events) n s.ctrl = r
  obtain ⟨value, tick, w⟩ := r
  -- After a failure the commands are not cleared, and clearing them asks for nothing.
  cases value with
  | false => simp [Thread.run, withCtrl]
  | true =>
    obtain ⟨w', hw', hclear⟩ := run_clearCommands events names tick (s.withCtrl w)
    simp only [if_true, Thread.run_bind, Thread.run, hw', true_and]
    exact hclear.asked

theorem run_startActuators (enable : Bool) (s : JointDriverModule K)
    (hrun : s.ctrl.isRunning = false) (hasked : ¬ Asked s.ctrl) :
    let r := (startActuators enable).run (others events) 2 s
    (r.value = none ↔ s.ctrl.deviceOrder ≠ [] ∧
      (enable = true → AllEnabled events s.actuatorNameList 3 (started events s.ctrl))) ∧
    (Asked r.state.ctrl ↔ s.ctrl.deviceOrder ≠ [] ∧ enable = true ∧
      SomeQueued events s.actuatorNameList 3 (started events s.ctrl)) := by
  have hstart : (others events 2 s).ctrl.start.1 = true ↔ s.ctrl.deviceOrder ≠ [] := by
    have hquiet := XyberController.quiet_others events 2 s.ctrl
    have horder : (others events 2 s).ctrl.deviceOrder = s.ctrl.deviceOrder :=
      congrArg XyberController.Registration.deviceOrder hquiet.registration
    have hidle : (others events 2 s).ctrl.isRunning = false :=
      (XyberController.isRunning_others events 2 s.ctrl).trans hrun
    rw [XyberController.start_eq_true hidle, horder]
  have hquiet : ¬ Asked (started events s.ctrl) := mt (asked_started events).mp hasked
  by_cases horder : s.ctrl.deviceOrder = []
  · have hfail : (others events 2 s).ctrl.start.1 = false := by simpa [horder] using hstart
    simp only [startActuators, Thread.run, hfail, if_true, horder, ne_eq, not_true_eq_false,
      false_and, iff_false]
    exact ⟨by simp, hquiet⟩
  · simp only [startActuators, Thread.run, hstart.mpr horder, Bool.true_eq_false, if_false, ne_eq,
      horder, not_false_eq_true, true_and]
    cases enable with
    | false =>
      simp only [Bool.false_eq_true, if_false, Thread.run, false_and, iff_false, false_implies,
        true_and]
      exact hquiet
    | true =>
      have htail := run_enabling events s.actuatorNameList 3 (s.withCtrl (started events s.ctrl))
      simp only [if_true, forall_const, true_and]
      exact ⟨htail.1, htail.2.trans (or_iff_right hquiet)⟩

theorem run_initDriver (enable : Bool) (s : JointDriverModule K) (hs : s.ctrl = .empty) :
    let r := (initDriver opens cfg enable).run (others events) 1 s
    (r.value = none ↔ DriverReady events opens cfg s.actuatorNameList enable) ∧
      (Asked r.state.ctrl ↔ DriverAsks events opens cfg s.actuatorNameList enable) := by
  have hothers : others events 1 s = s := by
    rw [others, hs, XyberController.others_empty, ← hs]
    rfl
  have hempty := XyberController.not_asked_empty (K := K)
  unfold initDriver DriverReady DriverAsks Accepted
  cases hnet : cfg.driverNetwork with
  | none => simp [Thread.run, hs, hempty]
  | some network =>
    cases hcan : cfg.canService with
    | none => simp [Thread.run, hs, hempty]
    | some service =>
      cases hconf : configure opens s.actuatorNameList network (.empty : XyberController K) with
      | mk e w =>
        obtain ⟨hasked, hrun⟩ := accepted_not_asked opens s.actuatorNameList network
          (congrArg Prod.snd hconf)
        simp only [Thread.run, hothers, hs, hconf]
        cases e with
        | some e => simp [Thread.run, withCtrl, hasked, hconf]
        | none =>
          have htail := run_startActuators events enable (s.withCtrl w) hrun hasked
          refine ⟨htail.1.trans ⟨fun h => ⟨w, ⟨network, rfl, rfl, hconf, h.1⟩, h.2⟩, ?_⟩,
            htail.2.trans ⟨fun h => ⟨h.2.1, w, ⟨network, rfl, rfl, hconf, h.1⟩, h.2.2⟩, ?_⟩⟩
          · rintro ⟨w', ⟨network', hnetwork, -, hconf', horder⟩, hall⟩
            cases hnetwork
            cases hconf.symm.trans hconf'
            exact ⟨horder, hall⟩
          · rintro ⟨henable, w', ⟨network', hnetwork, -, hconf', horder⟩, hsome⟩
            cases hnetwork
            cases hconf.symm.trans hconf'
            exact ⟨horder, henable, hsome⟩

variable (framework : Bool) (file : Option (Config K))

/-- The start succeeds: nothing is missing and every listed actuator acknowledges. -/
def StartReady : Prop :=
  ∃ cfg enable actuators, Head file cfg enable actuators ∧
    DriverReady events opens cfg actuators enable ∧
    (∀ node ∈ cfg.transmission, Readable node) ∧ framework = true

def StartAsks : Prop :=
  ∃ cfg enable actuators, Head file cfg enable actuators ∧
    DriverAsks events opens cfg actuators enable

theorem run_bindTransmissions (nodes : List (TransmissionConfig K)) (n : ℕ)
    (s : JointDriverModule K) :
    let r := (Thread.step (fun s => (initTransmission nodes s).2) fun s =>
      match (initTransmission nodes s).1 with
      | some e => .ret (some e)
      | none => .ret (if framework then none else some InitError.framework)).run (others events) n s
    (r.value = none ↔ (∀ node ∈ nodes, Readable node) ∧ framework = true) ∧
      (Asked r.state.ctrl ↔ Asked s.ctrl) := by
  have hread := bindTransmissions_eq_none nodes
  have hasked : Asked (initTransmission nodes (others events n s)).2.ctrl ↔ Asked s.ctrl := by
    rw [initTransmission, bindTransmissions_ctrl]
    exact (XyberController.quiet_others events n s.ctrl).asked
  simp only [Thread.run]
  cases hnodes : (initTransmission nodes (others events n s)).1 with
  | some e =>
    have hbad : ¬ ∀ node ∈ nodes, Readable node := by
      rw [← hread, ← initTransmission, hnodes]
      exact Option.some_ne_none e
    simp only [Thread.run, hbad, false_and, iff_false]
    exact ⟨Option.some_ne_none e, hasked⟩
  | none =>
    have hgood := (hread _).mp hnodes
    simp only [Thread.run]
    refine ⟨?_, hasked⟩
    rw [and_iff_right hgood]
    cases framework <;> simp

theorem others_empty (n : ℕ) : others events n (empty : JointDriverModule K) = empty :=
  congrArg empty.withCtrl (XyberController.others_empty events n)

variable {cfg} {file} in
theorem run_initializeModule_of_head {enable : Bool} {actuators : List String}
    (h : Head file cfg enable actuators) :
    let r := (initializeModule opens framework file).run (others events) 0 .empty
    (r.value = none ↔ DriverReady events opens cfg actuators enable ∧
      (∀ node ∈ cfg.transmission, Readable node) ∧ framework = true) ∧
      (Asked r.state.ctrl ↔ DriverAsks events opens cfg actuators enable) := by
  obtain ⟨debug, hdebug⟩ := Option.isSome_iff_exists.mp h.actuatorDebug
  obtain ⟨frequency, hfrequency⟩ := Option.isSome_iff_exists.mp h.publishFrequency
  obtain ⟨joints, hjoints⟩ := Option.isSome_iff_exists.mp h.jointList
  obtain ⟨hready, hasks⟩ := run_initDriver events opens cfg enable
    { (empty : JointDriverModule K) with jointNameList := joints, actuatorNameList := actuators } rfl
  simp only [initializeModule, h.file, hdebug, h.enableActuator, hfrequency, hjoints,
    h.actuatorList, Thread.run, Thread.run_bind, others_empty]
  rw [← hready, ← hasks]
  generalize (initDriver opens cfg enable).run (others events) 1
    { (empty : JointDriverModule K) with
      jointNameList := joints, actuatorNameList := actuators } = r
  obtain ⟨value, tick, s⟩ := r
  cases value with
  | some e => simp [Thread.run]
  | none =>
    obtain ⟨hvalue, hctrl⟩ := run_bindTransmissions events framework cfg.transmission tick s
    exact ⟨hvalue.trans (and_iff_right rfl).symm, hctrl⟩

theorem run_initializeModule_of_not_head
    (h : ¬ ∃ cfg enable actuators, Head file cfg enable actuators) :
    (initializeModule opens framework file).run (others events) 0 .empty =
      ⟨some .yaml, 0, .empty⟩ := by
  cases file with
  | none => rfl
  | some cfg =>
    simp only [initializeModule]
    split
    next debug enable frequency joints actuators hdebug henable hfrequency hjoints hactuators =>
      exact absurd ⟨cfg, enable, actuators, rfl, by simp [hdebug], henable, by simp [hfrequency],
        by simp [hjoints], hactuators⟩ h
    next => rfl

theorem run_initializeModule :
    let r := (initializeModule opens framework file).run (others events) 0 .empty
    (r.value = none ↔ StartReady events opens framework file) ∧
      (Asked r.state.ctrl ↔ StartAsks events opens file) := by
  by_cases h : ∃ cfg enable actuators, Head file cfg enable actuators
  · obtain ⟨cfg, enable, actuators, hhead⟩ := h
    obtain ⟨hvalue, hasked⟩ := run_initializeModule_of_head events opens framework hhead
    refine ⟨hvalue.trans ⟨fun hr => ⟨cfg, enable, actuators, hhead, hr⟩, ?_⟩,
      hasked.trans ⟨fun hr => ⟨cfg, enable, actuators, hhead, hr⟩, ?_⟩⟩
    · rintro ⟨cfg', enable', actuators', hhead', hr⟩
      obtain ⟨rfl, rfl, rfl⟩ := hhead.unique hhead'
      exact hr
    · rintro ⟨cfg', enable', actuators', hhead', hr⟩
      obtain ⟨rfl, rfl, rfl⟩ := hhead.unique hhead'
      exact hr
  · simp only [run_initializeModule_of_not_head events opens framework file h]
    refine ⟨iff_of_false (Option.some_ne_none _) ?_,
      iff_of_false XyberController.not_asked_empty ?_⟩
    · rintro ⟨cfg, enable, actuators, hhead, -⟩
      exact h ⟨cfg, enable, actuators, hhead⟩
    · rintro ⟨cfg, enable, actuators, hhead, -⟩
      exact h ⟨cfg, enable, actuators, hhead⟩

theorem sections_clearCommands (names : List String) :
    (clearCommands (K := K) names).Sections fun act =>
      ∀ s, Everywhere Starting s.ctrl → Everywhere Starting (act s).ctrl := by
  induction names with
  | nil => trivial
  | cons name names ih =>
    exact ⟨fun s hs => hs.setMitCmd XyberController.stable_starting name 0 0 0 0 0, fun _ => ih⟩

theorem sections_startActuators (enable : Bool) :
    (startActuators (K := K) enable).Sections fun act =>
      ∀ s, Everywhere Starting s.ctrl → Everywhere Starting (act s).ctrl := by
  refine ⟨fun s hs => hs.start, fun s => ?_⟩
  dsimp only
  split_ifs
  · trivial
  · refine (sections_enableActuators _).bind fun ok => ?_
    cases ok with
    | false => trivial
    | true => exact (sections_clearCommands _).bind fun _ => trivial
  · trivial

theorem sections_initDriver (enable : Bool) :
    (initDriver opens cfg enable).Sections fun act =>
      ∀ s, Everywhere Starting s.ctrl → Everywhere Starting (act s).ctrl := by
  unfold initDriver
  split
  next network service _ _ =>
    refine ⟨fun s hs => ?_, fun s => ?_⟩
    · exact (idle_configure CanBus.starting_new
        (fun b type name id hid hname hb => hb.attach type name id hid hname)
        opens _ network ⟨hs, rfl⟩).buses
    · dsimp only
      split
      · trivial
      · exact sections_startActuators enable
  · trivial

theorem sections_initializeModule :
    (initializeModule opens framework file).Sections fun act =>
      ∀ s, Everywhere Starting s.ctrl → Everywhere Starting (act s).ctrl := by
  unfold initializeModule
  split
  · trivial
  · split
    · refine ⟨fun s hs => hs, fun s => (sections_initDriver opens _ _).bind fun e => ?_⟩
      cases e with
      | some e => trivial
      | none =>
        refine ⟨fun s hs => ?_, fun s => ?_⟩
        · dsimp only
          rwa [initTransmission, bindTransmissions_ctrl]
        · dsimp only
          split <;> trivial
    · trivial

theorem starting_initializeModule :
    Everywhere Starting ((initializeModule opens framework file).run (others events) 0 .empty).state.ctrl :=
  Thread.run_invariant (I := fun s : JointDriverModule K => Everywhere Starting s.ctrl)
    (fun n _ hs => hs.others XyberController.stable_starting events n)
    (sections_initializeModule opens framework file) (XyberController.everywhere_empty _)

/-- When the start of an empty module fails, every enable request has its stop request. -/
def FailedStartStops : Prop :=
  let r := (initializeModule opens framework file).run (others events) 0 .empty
  r.value ≠ none → EnabledAreStopped r.state.ctrl

/-- A start that fails leaves no motor enabled exactly if it fails before its
first request or does not fail. -/
theorem failed_start_stops_iff :
    FailedStartStops events opens framework file ↔
      (StartAsks events opens file → StartReady events opens framework file) := by
  obtain ⟨hvalue, hasked⟩ := run_initializeModule events opens framework file
  have hstart := starting_initializeModule events opens framework file
  simp only [FailedStartStops, enabledAreStopped_iff hstart, hasked, ne_eq, hvalue]
  tauto

end Runs

def silentKnee : Config ℚ where
  actuatorDebug := some false
  enableActuator := some true
  publishFrequency := some 1000
  jointList := some ["knee_joint"]
  actuatorList := some ["knee"]
  driverNetwork := some [⟨"dcu", ["can0", "", "", ""], true,
    fun ch => if ch.val = 0 then [⟨"knee", "Robstride_02", 1⟩] else []⟩]
  canService := some ⟨-1, 80, 1538461⟩
  transmission := []

theorem silentKnee_fails :
    let r := (initializeModule (fun _ => true) true (some silentKnee)).run
      (others fun _ => []) 0 .empty
    r.value = some .enableActuator ∧
      r.state.ctrl.sentOnce (.first "dcu") = [CanBus.requestFrame .stateEnable ⟨1, by decide⟩] := by
  decide +kernel

theorem failed_start_not_stops :
    ¬ FailedStartStops (fun _ => []) (fun _ => true) true (some silentKnee) := by
  obtain ⟨hvalue, hsent⟩ := silentKnee_fails
  intro h
  refine (enabledAreStopped_iff (starting_initializeModule _ _ _ _)).mp (h ?_) ⟨.first "dcu", ?_⟩
  · rw [hvalue]
    exact Option.some_ne_none _
  · rw [hsent]
    exact List.cons_ne_nil _ _

end JointDriverModule
end MybipedalDeploy.JointDriver
