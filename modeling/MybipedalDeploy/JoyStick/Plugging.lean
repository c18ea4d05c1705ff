import Mathlib.Data.List.Induction
import MybipedalDeploy.JoyStick.Mirroring

/-!
# Devices that come and go

While no device is attached there are no entries, so that the next one finds them cleared.
-/

namespace MybipedalDeploy.JoyStick.Joy

variable {K : Type} {j : Joy K}

def Announces (j : Joy K) : Event → Prop
  | .deviceAdded which opened =>
    which = devId → j.joystick = none ∧ ∀ d, opened = some d → d.Usable
  | _ => True

def Blank (j : Joy K) : Prop := j.joystick = none → j.joyMsg = ⟨[], []⟩

theorem Blank.setButton (hj : Blank j) {button : ℕ} (h : ¬ button ≥ j.joyMsg.buttons.length) (x : ℕ) :
    Blank (j.setButton button x) := by
  intro hnone
  rw [hj hnone] at h
  exact absurd (Nat.zero_le button) h

theorem Blank.setAxis (hj : Blank j) {axis : ℕ} (h : ¬ axis ≥ j.joyMsg.axis.length) (x : K) :
    Blank (j.setAxis axis x) := by
  intro hnone
  rw [hj hnone] at h
  exact absurd (Nat.zero_le axis) h

variable [Field K]

theorem Blank.cleared (hj : Blank j) (hnone : j.joystick = none) : j.Cleared := by
  constructor <;> rw [hj hnone] <;> exact fun _ h => (List.not_mem_nil h).elim

theorem Blank.handleJoyHatMotion (hj : Blank j) (which : ℤ) (hat : ℕ) (value : HatValue) :
    Blank (j.handleJoyHatMotion which hat value) := by
  rw [Joy.handleJoyHatMotion]
  dsimp only
  split_ifs with hwhich hfailed
  · exact hj
  · exact hj
  · exact hj
  · intro hnone
    rw [moveHat_joystick] at hnone
    rw [sdlNumAxes, hnone] at hfailed
    exact absurd (by decide) hfailed

variable [LinearOrder K]

theorem Blank.handleJoyDeviceAdded (hj : Blank j) {which : ℤ} {opened : Option Device}
    (he : Announces j (.deviceAdded which opened)) : Blank (j.handleJoyDeviceAdded which opened) := by
  by_cases hwhich : which = devId
  · obtain ⟨hnone, hopened⟩ := he hwhich
    cases opened with
    | none =>
      intro _
      rw [Joy.handleJoyDeviceAdded, if_neg (not_not.mpr hwhich)]
      exact hj hnone
    | some d =>
      have hattends := (handleJoyDeviceAdded_mirror (hopened d rfl) (hj.cleared hnone)).1
      intro hgone
      rw [hwhich, hattends.joystick] at hgone
      cases hgone
  · rw [handleJoyDeviceAdded_of_ne hwhich]
    exact hj

theorem Blank.handle (hj : Blank j) {e : Event} (he : Announces j e) : Blank (j.handle e) := by
  cases e with
  | axisMotion which a value =>
    rw [Joy.handle, handleJoyAxis]
    split_ifs with hwhich ha
    · exact hj
    · exact hj
    · exact hj.setAxis ha _
  | buttonDown which b =>
    rw [Joy.handle, handleJoyButtonDown]
    split_ifs with hwhich hb
    · exact hj
    · exact hj
    · exact hj.setButton hb _
    · exact hj.setButton hb _
  | buttonUp which b =>
    rw [Joy.handle, handleJoyButtonUp]
    split_ifs with hwhich hb
    · exact hj
    · exact hj
    · exact hj
    · exact hj.setButton hb _
  | hatMotion which h value => exact hj.handleJoyHatMotion which h value
  | deviceAdded which opened => exact hj.handleJoyDeviceAdded he
  | deviceRemoved which =>
    rw [Joy.handle, handleJoyDeviceRemoved]
    split_ifs
    · exact hj
    · exact fun _ => by simp [resizeAxis, resizeButtons, resize]
  | other => exact hj

theorem cleared_of_detached (es : List Event)
    (h : ∀ p e q, es = p ++ e :: q → Announces (p.foldl handle (initial : Joy K)) e)
    (hnone : (es.foldl handle (initial : Joy K)).joystick = none) :
    (es.foldl handle (initial : Joy K)).Cleared := by
  refine Blank.cleared ?_ hnone
  clear hnone
  induction es using List.reverseRecOn with
  | nil => exact fun _ => rfl
  | append_singleton es e ih =>
    rw [List.foldl_append, List.foldl_cons, List.foldl_nil]
    exact (ih fun p e' q hsplit => h p e' (q ++ [e]) (by simp [hsplit])).handle (h es e [] rfl)

end MybipedalDeploy.JoyStick.Joy
