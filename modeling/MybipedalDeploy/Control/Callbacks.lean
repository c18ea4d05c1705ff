import MybipedalDeploy.Control.LatestCommand

/-!
# What the callbacks leave alone

A callback sets controllers that are there and, for a trigger, the state machine and
its time; the joint states set the indices as well. A relation of modules that allows
these changes holds across every callback.
-/

namespace MybipedalDeploy.Control
open Msg (JointState)

namespace ControlModule
variable {K : Type*}

structure SetFrame (R : ControlModule K → ControlModule K → Prop) : Prop where
  refl : ∀ m, R m m
  trans : ∀ {m n o}, R m n → R n o → R m o
  set : ∀ (m : ControlModule K) name c c', m.controllerMap name = some c →
    R m (m.setController name c')

structure Frame (R : ControlModule K → ControlModule K → Prop) : Prop extends SetFrame R where
  note : ∀ (m : ControlModule K) now machine,
    R m { m with lastTriggerTime := now, stateMachine := machine }

variable {R : ControlModule K → ControlModule K → Prop} {m n : ControlModule K}

theorem SetFrame.withController (hR : SetFrame R) {name : String} {f : Controller K → Controller K}
    (h : m.withController name f = some n) : R m n := by
  obtain ⟨c, hc, rfl⟩ := withController_eq_some.mp h
  exact hR.set m name c (f c) hc

theorem SetFrame.forEach (hR : SetFrame R) {f : Controller K → Controller K} {names : List String}
    (h : ControlModule.forEach f names m = some n) : R m n := by
  induction names generalizing m with
  | nil =>
    cases h
    exact hR.refl _
  | cons name names ih =>
    obtain ⟨m', hm', hn⟩ := Option.bind_eq_some_iff.mp h
    exact hR.trans (hR.withController hm') (ih hn)

theorem Frame.onTrigger (hR : Frame R) (m : ControlModule K) (now : ℤ) (topic : String) :
    R m (m.onTrigger now topic).1 := by
  unfold ControlModule.onTrigger
  split_ifs
  · split
    · exact hR.note m now m.stateMachine
    · exact hR.note m now _
  · exact hR.refl m

theorem Frame.trigger [Zero K] (hR : Frame R) {now : ℤ} {topic : String}
    (h : m.trigger now topic = some n) : R m n := by
  rw [trigger_eq] at h
  exact hR.trans (hR.onTrigger m now topic) (hR.forEach h)

section JointState
variable [Field K]

theorem SetFrame.forwardJointState (hR : SetFrame R) (msg : JointState K) (names : List String)
    (m : ControlModule K) : R m (ControlModule.forwardJointState msg names m) := by
  induction names generalizing m with
  | nil => exact hR.refl m
  | cons name names ih =>
    simp only [ControlModule.forwardJointState]
    split
    · exact hR.refl m
    next c hc =>
      split_ifs
      · exact hR.trans (hR.set m name c _ hc) (ih _)
      · exact hR.set m name c _ hc

theorem SetFrame.onJointState (hR : SetFrame R) {msg : JointState K}
    (hnote : R m (m.noteIndices msg)) : R m (m.onJointState msg) := by
  unfold ControlModule.onJointState
  dsimp only
  split
  · exact hnote
  · exact hR.trans hnote (hR.forwardJointState _ _ _)

def handle (m : ControlModule K) : Reception.Callback K → Option (ControlModule K)
  | .trigger now topic => m.trigger now topic
  | .cmdVel joy => m.onCmdVel joy
  | .imu imu => m.onImu imu
  | .jointState msg => some (m.onJointState msg)

theorem Frame.handle (hR : Frame R) {c : Reception.Callback K}
    (hnote : ∀ msg, c = .jointState msg → R m (m.noteIndices msg)) (h : m.handle c = some n) :
    R m n := by
  cases c with
  | trigger now topic => exact hR.trigger h
  | cmdVel joy => exact hR.forEach h
  | imu imu => exact hR.forEach h
  | jointState msg =>
    cases h
    exact hR.onJointState (hnote msg rfl)

theorem Every.handle {P : String → Controller K → Prop} (h : m.Every P)
    (hrestart : ∀ name c, P name c → P name c.restartController)
    (hcmdVel : ∀ joy name c, P name c → P name (c.withBase (·.setCmdData joy)))
    (himu : ∀ imu name c, P name c → P name (c.withBase (·.setImuData imu)))
    (hjointState : ∀ name c msg indices, P name c →
      P name (c.withBase fun _ => (c.base.setJointStateData msg indices).2))
    {c : Reception.Callback K} (hn : m.handle c = some n) : n.Every P := by
  cases c with
  | trigger now topic => exact h.trigger hrestart hn
  | cmdVel joy => exact h.forEach (hcmdVel joy) hn
  | imu imu => exact h.forEach (himu imu) hn
  | jointState msg =>
    cases hn
    exact h.onJointState hjointState msg

end JointState
end ControlModule
end MybipedalDeploy.Control
