import MybipedalDeploy.JointDriver.Delivery

/-!
# What a frame can command

The driver makes up no commands of its own. A property of single commands that every entry
of the messages has, and that the directions keep, holds of whatever is sent to a motor, at
every moment and not only when a message has been carried out.
-/

namespace MybipedalDeploy.JointDriver
open JointDriverModule (Ready SameCommands entries)
open Msg (JointCommand)
open Runs (Run)

namespace JointDriverModule
variable {K : Type*} [Field K] {P : JointData K → Prop}

theorem cmdAt_modifyCmd_of {data : List (String × DataSpace K)}
    (h : ∀ name, P (DataSpace.cmdAt data name)) {d : JointData K} (hd : P d) (name other : String) :
    P (DataSpace.cmdAt (DataSpace.modifyCmd data name fun _ => d) other) := by
  have hother := h other
  unfold DataSpace.cmdAt at hother ⊢
  rw [DataSpace.find_modifyCmd]
  split_ifs
  · cases hfind : DataSpace.find data other with
    | none => rwa [hfind] at hother
    | some e => exact hd
  · exact hother

theorem cmdAt_cacheCommand_of {s : JointDriverModule K}
    (h : ∀ name, P (DataSpace.cmdAt s.jointDataSpace name)) {msg : JointCommand K}
    (hmsg : ∀ e ∈ entries msg, P e.2) (name : String) :
    P (DataSpace.cmdAt (s.cacheCommand msg).jointDataSpace name) := by
  have hes : ∀ e ∈ msg.name.zipIdx, P (entry msg e.2) := fun e he =>
    hmsg (e.1, entry msg e.2) (List.mem_map_of_mem he)
  unfold cacheCommand
  generalize msg.name.zipIdx = es at hes
  induction es generalizing s with
  | nil => exact h name
  | cons e es ih =>
    refine ih (fun other => ?_) fun e' he' => hes e' (List.mem_cons_of_mem e he')
    exact cmdAt_modifyCmd_of h (hes e List.mem_cons_self) e.1 other

theorem cmdAt_transform_of {s : JointDriverModule K}
    (hdirections : ∀ t ∈ s.transmission, ∀ d, P d → P (t.transformJointToActuator d))
    (hjoint : ∀ name, P (DataSpace.cmdAt s.jointDataSpace name))
    (h : ∀ name, P (DataSpace.cmdAt s.actuatorDataSpace name)) (name : String) :
    P (DataSpace.cmdAt s.transformJointToActuator.actuatorDataSpace name) := by
  unfold transformJointToActuator
  generalize s.transmission = ts at hdirections
  induction ts generalizing s with
  | nil => exact h name
  | cons t ts ih =>
    have hrest := fun t' ht' => hdirections t' (List.mem_cons_of_mem t ht')
    rw [List.foldl_cons]
    cases hfind : DataSpace.find s.jointDataSpace t.joint with
    | none => exact ih hjoint h hrest
    | some joint =>
      have hcmd := hjoint t.joint
      rw [DataSpace.cmdAt, hfind] at hcmd
      refine ih hjoint (fun other => ?_) hrest
      exact cmdAt_modifyCmd_of h (hdirections t List.mem_cons_self joint.cmd hcmd) t.actuator other

variable [LinearOrder K] [FloorSemiring K]

structure Commanding (P : JointData K → Prop) (s₀ s : JointDriverModule K) : Prop where
  joint : ∀ name, P (DataSpace.cmdAt s.jointDataSpace name)
  actuator : ∀ name, P (DataSpace.cmdAt s.actuatorDataSpace name)
  slot : ∀ ref id, s.ctrl.slotAt ref id = s₀.ctrl.slotAt ref id ∨
    ∃ d, P d ∧ s.ctrl.slotAt ref id = (s₀.ctrl.motorAt ref id).setMit d.quantity

variable {s₀ s s' : JointDriverModule K}

theorem Commanding.same (h : s₀.Commanding P s) (hsame : s.SameCommands s') :
    s₀.Commanding P s' := by
  refine ⟨fun name => ?_, fun name => ?_, fun ref id => ?_⟩
  · rw [hsame.joint]
    exact h.joint name
  · rw [hsame.actuator]
    exact h.actuator name
  · rw [hsame.slot]
    exact h.slot ref id

theorem Commanding.sendCommand (h : s₀.Commanding P s) {received : List (String × CanFrame)}
    {age : BusRef → CanId → ℕ} (hdated : XyberController.Dated s₀.ctrl received s.ctrl age)
    (name : String) : s₀.Commanding P (s.sendCommand name) := by
  unfold JointDriverModule.sendCommand
  split
  · exact h
  next data hdata =>
    refine ⟨h.joint, h.actuator, fun ref id => ?_⟩
    have hput := s.ctrl.slotAt_setMitCmd name data.cmd ref id
    have hcmd := h.actuator name
    rw [DataSpace.cmdAt, hdata] at hcmd
    by_cases hplace : s.ctrl.place name = some (ref, id)
    · obtain ⟨htype, hid⟩ := hdated.motor ref id
      rw [if_pos hplace] at hput
      exact .inr ⟨data.cmd, hcmd, hput.trans (RobstrideMotor.setMit_congr htype hid _)⟩
    · rw [if_neg hplace] at hput
      rcases h.slot ref id with hold | ⟨d, hd, heq⟩
      · exact .inl (hput.trans hold)
      · exact .inr ⟨d, hd, hput.trans heq⟩

end JointDriverModule

namespace PublishSystem
open JointDriverModule (Commanding)
variable {K : Type*} [Field K] [LinearOrder K] [FloorSemiring K] {P : JointData K → Prop}
  {s₀ : JointDriverModule K} {c c' : PublishSystem K}

structure Commands (P : JointData K → Prop) (s₀ : JointDriverModule K) (c : PublishSystem K) :
    Prop where
  driver : s₀.Commanding P c.driver
  pending : ∀ msg, c.callback = .test msg ∨ c.callback = .cache msg → ∀ e ∈ entries msg, P e.2

theorem Commands.same (h : c.Commands P s₀) (hcallback : c'.callback = c.callback)
    (hsame : c.driver.SameCommands c'.driver) : c'.Commands P s₀ where
  driver := h.driver.same hsame
  pending msg hmsg := h.pending msg (hcallback ▸ hmsg)

theorem Commands.callbackStep (h : c.Commands P s₀) (hnames : s₀.SameNames c.driver)
    {received : List (String × CanFrame)} {age : BusRef → CanId → ℕ}
    (hdated : XyberController.Dated s₀.ctrl received c.driver.ctrl age)
    (hdirections : ∀ t ∈ s₀.transmission, ∀ d, P d → P (t.transformJointToActuator d)) :
    c.callbackStep.Commands P s₀ := by
  have hdriver := h.driver
  unfold PublishSystem.callbackStep
  cases hc : c.callback with
  | idle => exact ⟨hdriver, fun msg hmsg => by simp [Callback.step] at hmsg⟩
  | test msg =>
    have hmsg := h.pending msg (.inl hc)
    simp only [Callback.step]
    split_ifs
    · refine ⟨hdriver, fun msg' hmsg' => ?_⟩
      simp only [reduceCtorEq, Callback.cache.injEq, false_or] at hmsg'
      exact hmsg' ▸ hmsg
    · exact ⟨hdriver, fun msg' hmsg' => by simp at hmsg'⟩
  | cache msg =>
    have hmsg := h.pending msg (.inr hc)
    have hcache := (JointDriverModule.sameButJoints_cacheCommand msg c.driver).1
    refine ⟨⟨JointDriverModule.cmdAt_cacheCommand_of hdriver.joint hmsg, ?_, ?_⟩,
      fun msg' hmsg' => by simp [Callback.step] at hmsg'⟩
    · simp only [Callback.step]
      rw [hcache]
      exact hdriver.actuator
    · simp only [Callback.step]
      rw [hcache]
      exact hdriver.slot
  | transform =>
    have hpush := (JointDriverModule.sameButActuators_transform c.driver).1
    have hactuator := JointDriverModule.cmdAt_transform_of (hnames.transmission.symm ▸ hdirections)
      hdriver.joint hdriver.actuator
    refine ⟨⟨?_, hactuator, ?_⟩, fun msg' hmsg' => by simp [Callback.step] at hmsg'⟩
    · simp only [Callback.step]
      rw [hpush]
      exact hdriver.joint
    · simp only [Callback.step]
      rw [hpush]
      exact hdriver.slot
  | send left =>
    cases left with
    | nil => exact ⟨hdriver, fun msg' hmsg' => by simp [Callback.step] at hmsg'⟩
    | cons name left =>
      exact ⟨hdriver.sendCommand hdated name, fun msg' hmsg' => by simp [Callback.step] at hmsg'⟩

theorem commands_run (hs₀ : s₀.Ready) (hstart : s₀.Commanding P s₀)
    (hdirections : ∀ t ∈ s₀.transmission, ∀ d, P d → P (t.transformJointToActuator d))
    {actuatorDebug : Bool} {as : List (Action K)}
    (h : Run PublishSystem.step (started s₀ actuatorDebug) as c) (hothers : Orderly as)
    (hmsgs : ∀ msg ∈ messages as, ∀ e ∈ entries msg, P e.2) : c.Commands P s₀ := by
  induction h with
  | start => exact ⟨⟨hstart.joint, hstart.actuator, hstart.slot⟩, fun msg hmsg => by simp [started] at hmsg⟩
  | @next as s t a hr ht ih =>
    have hbefore : ∀ msg ∈ messages as, ∀ e ∈ entries msg, P e.2 := fun msg hmsg =>
      hmsgs msg (by simp [messages] at hmsg ⊢; exact .inl hmsg)
    have hs := ih (fun e he => hothers e (List.mem_append_left _ he)) hbefore
    cases a with
    | event e =>
      cases ht
      exact hs.same rfl (s.driver.sameCommands_withCtrl (hothers e (by simp)))
    | message msg =>
      simp only [PublishSystem.step] at ht
      split at ht
      next hidle =>
        cases ht
        refine ⟨hs.driver, fun msg' hmsg' => ?_⟩
        simp only [Callback.test.injEq, reduceCtorEq, or_false] at hmsg'
        exact hmsgs msg' (by simp [messages, hmsg'])
      next => cases ht
    | callback =>
      cases ht
      obtain ⟨v, before, cut, age, hfollowing⟩ := following_run hs₀ hr
      exact hs.callbackStep hfollowing.same hfollowing.dated hdirections
    | publisher =>
      cases ht
      obtain ⟨hcallback, hsame⟩ := Delivering.sameCommands_publisherStep s
      exact hs.same hcallback hsame
    | stop =>
      cases ht
      exact ⟨⟨hs.driver.joint, hs.driver.actuator, hs.driver.slot⟩, hs.pending⟩

end PublishSystem
end MybipedalDeploy.JointDriver
