import MybipedalDeploy.Control.Envelope
import MybipedalDeploy.JointDriver.CommandEnvelope
import MybipedalDeploy.JointDriver.Quantisation

/-!
# From the networks to the bus

The control module and the driver of the joints on their topics, which may delay, repeat,
reorder or lose messages. A motor cannot report a position beyond the range of its frames,
so nothing has to be assumed of the sensors: the frames stay within an envelope that the
configuration alone sets.
-/

namespace MybipedalDeploy
open Control (CommandWithin Config ControlModule ControllerNode Cycling Platform)
open JointDriver (BusRef CanFrame CanId JointData JointDriverModule PublishSystem Published Reading
  RobstrideMotor SimpleTransmission TransmissionConfig XyberController)
open JointDriver.JointDriverModule (entries initTransmission unbound)
open JointDriver.RobstrideMotor (getLimits positionMax)
open Msg (JointCommand JointState)
open Runs (Run)

structure Robot (K : Type*) where
  control : Cycling K
  driver : PublishSystem K

namespace Robot

/-- The numbers say which of the published messages a callback gets. -/
inductive Action (K : Type*)
  | control (a : Cycling.Action K)
  | driver (a : PublishSystem.Action K)
  | jointState (k : ℕ)
  | command (i : ℕ)

section Step
variable {K : Type*} [Field K] [LinearOrder K] [FloorSemiring K]

def boot (m : ControlModule K) (s : JointDriverModule K) (actuatorDebug : Bool) : Robot K :=
  ⟨.boot m, .started s actuatorDebug⟩

/-- Joint states come from the driver only, and commands from the control module. -/
def step (io : Platform K) (s : Robot K) : Action K → Option (Robot K)
  | .control a =>
    match a with
    | .callback (.jointState _) => none
    | a => (s.control.step io a).map fun t => { s with control := t }
  | .driver a =>
    match a with
    | .message _ => none
    | .event e =>
      if e.isCommand then none
      else (s.driver.step (.event e)).map fun t => { s with driver := t }
    | a => (s.driver.step a).map fun t => { s with driver := t }
  | .jointState k => s.driver.published[k]?.bind fun e =>
      (s.control.step io (.callback (.jointState e.1.jointStates))).map fun t =>
        { s with control := t }
  | .command i => s.control.cycles[i]?.bind fun c =>
      (s.driver.step (.message c.published)).map fun t => { s with driver := t }

variable {io : Platform K} {s t : Robot K}

theorem step_cases {a : Action K} (h : s.step io a = some t) :
    (∃ b u, (∀ msg, b = .callback (.jointState msg) →
        ∃ e ∈ s.driver.published, msg = e.1.jointStates) ∧
      s.control.step io b = some u ∧ t = { s with control := u }) ∨
    ∃ b u, (∀ msg, b = .message msg → ∃ c ∈ s.control.cycles, msg = c.published) ∧
      (∀ e, b = .event e → e.isCommand = false) ∧
      s.driver.step b = some u ∧ t = { s with driver := u } := by
  cases a with
  | control b =>
    simp only [step] at h
    split at h
    · cases h
    next hb =>
      obtain ⟨u, hu, rfl⟩ := Option.map_eq_some_iff.mp h
      exact .inl ⟨b, u, fun msg hmsg => absurd hmsg (hb msg), hu, rfl⟩
  | driver b =>
    simp only [step] at h
    split at h
    · cases h
    next e =>
      split_ifs at h with he
      obtain ⟨u, hu, rfl⟩ := Option.map_eq_some_iff.mp h
      refine .inr ⟨.event e, u, fun msg hmsg => by simp at hmsg, fun e' he' => ?_, hu, rfl⟩
      cases he'
      exact Bool.eq_false_iff.mpr he
    next hmessage hevent =>
      obtain ⟨u, hu, rfl⟩ := Option.map_eq_some_iff.mp h
      exact .inr ⟨b, u, fun msg hmsg => absurd hmsg (hmessage msg),
        fun e he => absurd he (hevent e), hu, rfl⟩
  | jointState k =>
    obtain ⟨e, he, h⟩ := Option.bind_eq_some_iff.mp h
    obtain ⟨u, hu, rfl⟩ := Option.map_eq_some_iff.mp h
    refine .inl ⟨_, u, fun msg hmsg => ⟨e, List.mem_of_getElem? he, ?_⟩, hu, rfl⟩
    cases hmsg
    rfl
  | command i =>
    obtain ⟨c, hc, h⟩ := Option.bind_eq_some_iff.mp h
    obtain ⟨u, hu, rfl⟩ := Option.map_eq_some_iff.mp h
    refine .inr ⟨.message c.published, u, fun msg hmsg => ⟨c, List.mem_of_getElem? hc, ?_⟩,
      fun e he => by simp at he, hu, rfl⟩
    cases hmsg
    rfl

end Step

section Measured
variable {w : XyberController ℝ} {s₀ : JointDriverModule ℝ}

theorem limits_position (type : JointDriver.ActuatorType) :
    (getLimits type : JointDriver.Limits ℝ).position = positionMax := by
  cases type <;> rfl

theorem positionMax_pos : (0 : ℝ) < positionMax := by
  norm_num [positionMax]

theorem abs_position_decodeFeedback (m : RobstrideMotor ℝ) (f : CanFrame) :
    |(m.decodeFeedback f).position| ≤ positionMax := by
  have hlt : -(positionMax : ℝ) < positionMax := neg_lt_self positionMax_pos
  have hcode : (CanFrame.beWord f.data[0] f.data[1]).toNat ≤ 65535 :=
    Nat.le_of_lt_succ (CanFrame.beWord f.data[0] f.data[1]).isLt
  have hposition : (m.decodeFeedback f).position =
      RobstrideMotor.uint16ToFloat (CanFrame.beWord f.data[0] f.data[1]) (-positionMax) positionMax := by
    rw [RobstrideMotor.decodeFeedback, limits_position]
  rw [hposition, RobstrideMotor.uint16ToFloat_eq]
  exact abs_le.mpr (Quantizer.decode_mem hlt (by decide) hcode)

theorem abs_stated_le {name : String} (h : |(w.stated [] name 0).position| ≤ positionMax)
    (received : List (String × CanFrame)) (n : ℕ) :
    |(w.stated received name n).position| ≤ positionMax := by
  unfold XyberController.stated at h ⊢
  cases hplace : w.place name with
  | none =>
    simp only [abs_zero]
    exact positionMax_pos.le
  | some at_ =>
    rw [hplace] at h
    obtain ⟨ref, id⟩ := at_
    cases n with
    | zero => exact h
    | succ n =>
      simp only [RobstrideMotor.said]
      cases (w.heard received ref id)[n]? with
      | none => exact h
      | some f => exact abs_position_decodeFeedback _ f

theorem abs_published_le (hs₀ : s₀.Ready)
    (hdirections : ∀ t ∈ s₀.transmission, |t.direction| ≤ 1)
    (hrest : ∀ t ∈ s₀.transmission, |(s₀.ctrl.stated [] t.actuator 0).position| ≤ positionMax)
    {actuatorDebug : Bool} {as : List (PublishSystem.Action ℝ)} {c : PublishSystem ℝ}
    (h : Run PublishSystem.step (PublishSystem.started s₀ actuatorDebug) as c) :
    ∀ e ∈ c.published, ∀ x ∈ e.1.jointStates.position, |x| ≤ positionMax := by
  intro e he x hx
  obtain ⟨v, before, cut, age, hc⟩ := PublishSystem.following_run hs₀ h
  obtain ⟨k, hk⟩ := List.mem_iff_getElem?.mp he
  rw [(hc.told k e hk).2.1] at hx
  obtain ⟨joint, _, rfl⟩ := List.mem_map.mp hx
  unfold JointDriverModule.jointReading
  cases hlast : LastWrite.lastHit (fun t : SimpleTransmission ℝ => if t.joint = joint then
      some (t.transformActuatorToJoint (s₀.ctrl.sampled c.received t.actuator (v k t.actuator)))
      else none) s₀.transmission with
  | none =>
    rw [Option.getD_none, abs_zero]
    exact positionMax_pos.le
  | some r =>
    obtain ⟨p, t, q, hsplit, hhit, _⟩ := LastWrite.lastHit_eq_some _ hlast
    have ht : t ∈ s₀.transmission := by simp [hsplit]
    split_ifs at hhit
    cases hhit
    have hread := abs_stated_le (hrest t ht) c.received (v k t.actuator).position
    rw [Option.getD_some, SimpleTransmission.transformActuatorToJoint, abs_mul]
    exact (mul_le_mul hread (hdirections t ht) (abs_nonneg _) positionMax_pos.le).trans_eq (mul_one _)

end Measured

structure EntryWithin (nodes : List (ControllerNode ℝ)) (R : ℝ) (d : JointData ℝ) : Prop where
  position : |d.position| ≤ R
  velocity : d.velocity = 0
  effort : d.effort = 0
  kp : d.kp = 0 ∨ ∃ node ∈ nodes, d.kp ∈ node.stiffness
  kd : d.kd = 0 ∨ ∃ node ∈ nodes, d.kd ∈ node.damping

section Entries
variable {nodes : List (ControllerNode ℝ)} {R : ℝ}

theorem entryWithin_zero (hR : 0 ≤ R) : EntryWithin nodes R .zero := by
  refine ⟨?_, rfl, rfl, .inl rfl, .inl rfl⟩
  rw [JointData.zero, abs_zero]
  exact hR

theorem entryWithin_of_mem {msg : JointCommand ℝ} (h : CommandWithin nodes R msg) (hR : 0 ≤ R) :
    ∀ e ∈ entries msg, EntryWithin nodes R e.2 := by
  intro e he
  obtain ⟨e', _, rfl⟩ := List.mem_map.mp he
  refine ⟨?_, Control.getD_of_forall h.velocity rfl _, Control.getD_of_forall h.effort rfl _,
    Control.getD_of_forall h.stiffness (.inl rfl) _, Control.getD_of_forall h.damping (.inl rfl) _⟩
  exact Control.getD_of_forall (P := fun x => |x| ≤ R) h.position (by rwa [abs_zero]) _

theorem EntryWithin.transform {d : JointData ℝ} (h : EntryWithin nodes R d) (hR : 0 ≤ R)
    {t : SimpleTransmission ℝ} (ht : |t.direction| ≤ 1) :
    EntryWithin nodes R (t.transformJointToActuator d) := by
  refine ⟨?_, ?_, ?_, h.kp, h.kd⟩
  · rw [SimpleTransmission.transformJointToActuator, abs_mul]
    exact (mul_le_mul h.position ht (abs_nonneg _) hR).trans_eq (mul_one R)
  · simp [SimpleTransmission.transformJointToActuator, h.velocity]
  · simp [SimpleTransmission.transformJointToActuator, h.effort]

end Entries

section Envelope
variable {conf : Config ℝ} {s₀ : JointDriverModule ℝ} {actuatorDebug : Bool} {s t : Robot ℝ}

structure Contained (conf : Config ℝ) (s₀ : JointDriverModule ℝ) (actuatorDebug : Bool)
    (s : Robot ℝ) : Prop where
  control : s.control.Contained conf positionMax
  driver : ∃ as, Run PublishSystem.step (PublishSystem.started s₀ actuatorDebug) as s.driver ∧
    PublishSystem.Orderly as ∧ ∀ msg ∈ PublishSystem.messages as,
      CommandWithin (conf.controllers.map Prod.snd) (conf.reach positionMax) msg

theorem Contained.step {io : Platform ℝ} (h : s.Contained conf s₀ actuatorDebug) (hs₀ : s₀.Ready)
    (htuned : ∀ e ∈ conf.controllers, ∀ walk, e.2.walk = some walk → walk.Tuned)
    (hdirections : ∀ t ∈ s₀.transmission, |t.direction| ≤ 1)
    (hrest : ∀ t ∈ s₀.transmission, |(s₀.ctrl.stated [] t.actuator 0).position| ≤ positionMax)
    {a : Action ℝ} (hstep : s.step io a = some t) : t.Contained conf s₀ actuatorDebug := by
  obtain ⟨as, hrun, horderly, hmsgs⟩ := h.driver
  obtain ⟨b, u, hb, hu, rfl⟩ | ⟨b, u, hmessage, hevent, hu, rfl⟩ := step_cases hstep
  · have hmeasured : Cycling.MeasuredWithin positionMax b := by
      cases b with
      | callback c =>
        cases c with
        | jointState msg =>
          obtain ⟨e, he, rfl⟩ := hb msg rfl
          exact abs_published_le hs₀ hdirections hrest hrun e he
        | _ => trivial
      | _ => trivial
    exact ⟨h.control.step positionMax_pos.le htuned hmeasured hu, h.driver⟩
  · refine ⟨h.control, as ++ [b], hrun.next hu, fun e he => ?_, fun msg hmsg => ?_⟩
    · rcases List.mem_append.mp he with he | he
      · exact horderly e he
      · exact hevent e (List.mem_singleton.mp he).symm
    · rw [PublishSystem.messages, List.filterMap_append, List.mem_append] at hmsg
      rcases hmsg with hmsg | hmsg
      · exact hmsgs msg hmsg
      · obtain ⟨a, ha, hmsg⟩ := List.mem_filterMap.mp hmsg
        cases List.mem_singleton.mp ha
        split at hmsg
        next msg' =>
          cases hmsg
          obtain ⟨c, hc, rfl⟩ := hmessage msg rfl
          exact h.control.published c hc
        next => cases hmsg

end Envelope
section Pacing
open Control.Cycling (pacer pacing_initializes pacingConfig)

noncomputable def kneeBus : XyberController ℝ :=
  let w := (XyberController.empty.createDevice (fun _ => true) "dcu" ![("can0"), "", "", ""]).2
  (w.attachActuator "dcu" 0 .robstride02 "knee_motor" 1).2

noncomputable def turnedKnee : List (TransmissionConfig ℝ) :=
  [⟨some "knee_link", some "SimpleTransmission", some (-1), some "knee", some "knee_motor"⟩]

noncomputable def kneeDriver : JointDriverModule ℝ :=
  (initTransmission turnedKnee (unbound kneeBus ["knee"] ["knee_motor"])).2

def pacedKnee : List (Action ℝ) :=
  List.replicate 8 (.driver .publisher) ++
    [.jointState 0, .control (.wake ["rl_walk"]), .control .loop, .control .loop, .control .loop,
      .command 0] ++ List.replicate 5 (.driver .callback)

theorem pacedKnee_runs : (Runs.exec (step Platform.real) (boot pacer kneeDriver false)
    pacedKnee).isSome = true := by
  decide +kernel

noncomputable def paced : Robot ℝ :=
  (Runs.exec (step Platform.real) (boot pacer kneeDriver false) pacedKnee).get pacedKnee_runs

end Pacing
end Robot
end MybipedalDeploy
