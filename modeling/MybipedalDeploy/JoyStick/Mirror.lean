import MybipedalDeploy.JoyStick.Joy
import MybipedalDeploy.Library.LastWrite
import MybipedalDeploy.Library.Tabulated

/-!
# What the joystick's entries should say

The mirror of a list of events is what the entries of an attached device should be after
it: what the last event of each button, axis and hat says. The hats follow the axes, two
entries each.
-/

namespace MybipedalDeploy.JoyStick
open Joy (convertRawAxisValueToROS)
open LastWrite (lastHit)
open Tabulated (map_update_of_le)

structure Device.Usable (d : Device) : Prop where
  instanceId : 0 ≤ d.instanceId
  numButtons : 0 ≤ d.numButtons
  numAxes : 0 ≤ d.numAxes
  numHats : 0 ≤ d.numHats

def Device.Keeps (d : Device) : Event → Prop
  | .deviceAdded which _ => which ≠ Joy.devId
  | .deviceRemoved which => which ≠ d.instanceId
  | _ => True

def Device.Foreign (d : Device) : Event → Prop
  | .axisMotion which a _ => which ≠ d.instanceId ∨ d.numAxes.toNat ≤ a
  | .buttonDown which b | .buttonUp which b => which ≠ d.instanceId ∨ d.numButtons.toNat ≤ b
  | .hatMotion which h _ => which ≠ d.instanceId ∨ d.numHats.toNat ≤ h
  | _ => True

section Mirror
variable (d : Device)

def pressHit (button : ℕ) : Event → Option ℕ
  | .buttonDown which b => if which = d.instanceId ∧ b = button then some 1 else none
  | .buttonUp which b => if which = d.instanceId ∧ b = button then some 0 else none
  | _ => none

def motionHit (axis : ℕ) : Event → Option (BitVec 16)
  | .axisMotion which a value => if which = d.instanceId ∧ a = axis then some value else none
  | _ => none

def hatHit (hat : ℕ) : Event → Option HatValue
  | .hatMotion which h value => if which = d.instanceId ∧ h = hat then some value else none
  | _ => none

def buttonEntry (es : List Event) (button : ℕ) : ℕ := (lastHit (pressHit d button) es).getD 0

def hatValue (es : List Event) (hat : ℕ) : HatValue := (lastHit (hatHit d hat) es).getD .centered

variable {K : Type} [Field K]

def direction (pos neg : Bool) : K := if pos then 1 else if neg then -1 else 0

def hatEntry (es : List Event) (k : ℕ) : K :=
  let v := hatValue d es (k / 2)
  if k % 2 = 0 then direction v.left v.right else direction v.up v.down

variable [LinearOrder K]

def motionEntry (es : List Event) (axis : ℕ) : K :=
  ((lastHit (motionHit d axis) es).or (d.initialState axis)).elim 0 Joy.convertRawAxisValueToROS

def axisEntry (es : List Event) (i : ℕ) : K :=
  if i < d.numAxes.toNat then motionEntry d es i else hatEntry d es (i - d.numAxes.toNat)

def mirror (es : List Event) : JoyStruct K where
  axis := (List.range (d.numAxes + d.numHats * 2).toNat).map (axisEntry d es)
  buttons := (List.range d.numButtons.toNat).map (buttonEntry d es)

end Mirror

section Concat
variable {K : Type} [Field K] [LinearOrder K] (d : Device) (es : List Event) (e : Event)

theorem buttonEntry_concat (b : ℕ) :
    buttonEntry d (es ++ [e]) b = (pressHit d b e).getD (buttonEntry d es b) := by
  rw [buttonEntry, LastWrite.lastHit_concat, buttonEntry]
  cases pressHit d b e <;> rfl

theorem motionEntry_concat (a : ℕ) : motionEntry (K := K) d (es ++ [e]) a =
    (motionHit d a e).elim (motionEntry d es a) convertRawAxisValueToROS := by
  rw [motionEntry, LastWrite.lastHit_concat, motionEntry]
  cases motionHit d a e <;> rfl

theorem hatValue_concat (h : ℕ) :
    hatValue d (es ++ [e]) h = (hatHit d h e).getD (hatValue d es h) := by
  rw [hatValue, LastWrite.lastHit_concat, hatValue]
  cases hatHit d h e <;> rfl

theorem axisEntry_of_none (hmotion : ∀ a, motionHit d a e = none)
    (hhat : ∀ h, hatHit d h e = none) : axisEntry (K := K) d (es ++ [e]) = axisEntry d es := by
  funext i
  simp only [axisEntry, hatEntry, motionEntry_concat, hatValue_concat, hmotion, hhat,
    Option.elim_none, Option.getD_none]

theorem axisEntry_axisMotion (a : ℕ) (value : BitVec 16) :
    axisEntry (K := K) d (es ++ [.axisMotion d.instanceId a value]) =
      if a < d.numAxes.toNat then
        Function.update (axisEntry d es) a (convertRawAxisValueToROS value)
      else axisEntry d es := by
  have hhit : ∀ i, motionHit d i (.axisMotion d.instanceId a value) =
      if a = i then some value else none := fun i => by simp [motionHit]
  funext i
  have hentry : axisEntry (K := K) d (es ++ [.axisMotion d.instanceId a value]) i =
      if i < d.numAxes.toNat ∧ a = i then convertRawAxisValueToROS value else axisEntry d es i := by
    simp only [axisEntry, hatEntry, hatValue_concat, motionEntry_concat, hhit, hatHit,
      Option.getD_none]
    split_ifs <;> simp_all
  rw [hentry]
  split_ifs with h ha ha
  · obtain ⟨-, rfl⟩ := h
    rw [Function.update_self]
  · omega
  · rw [Function.update_of_ne (by rintro rfl; exact h ⟨ha, rfl⟩)]
  · rfl

theorem axisEntry_hat (k : ℕ) :
    axisEntry (K := K) d es (d.numAxes.toNat + k) = hatEntry d es k := by
  rw [axisEntry, if_neg (by omega), Nat.add_sub_cancel_left]

theorem axisEntry_hatMotion (h : ℕ) (value : HatValue) :
    axisEntry (K := K) d (es ++ [.hatMotion d.instanceId h value]) =
      Function.update (Function.update (axisEntry d es) (d.numAxes.toNat + h * 2)
        (direction value.left value.right)) (d.numAxes.toNat + h * 2 + 1)
        (direction value.up value.down) := by
  have hhit : ∀ k, hatHit d k (.hatMotion d.instanceId h value) =
      if h = k then some value else none := fun k => by simp [hatHit]
  funext i
  rcases Nat.lt_or_ge i d.numAxes.toNat with hi | hi
  · rw [Function.update_of_ne (by omega), Function.update_of_ne (by omega)]
    simp [axisEntry, hi, motionEntry_concat, motionHit]
  · obtain ⟨k, rfl⟩ := Nat.exists_eq_add_of_le hi
    rw [axisEntry_hat, hatEntry, hatValue_concat, hhit]
    by_cases hk : h = k / 2
    · rcases Nat.mod_two_eq_zero_or_one k with heven | hodd
      · have hfirst : d.numAxes.toNat + k = d.numAxes.toNat + h * 2 := by omega
        rw [hfirst, Function.update_of_ne (by omega), Function.update_self, if_pos hk, if_pos heven]
        rfl
      · have hsecond : d.numAxes.toNat + k = d.numAxes.toNat + h * 2 + 1 := by omega
        rw [hsecond, Function.update_self, if_pos hk, if_neg (by omega)]
        rfl
    · rw [Function.update_of_ne (by omega), Function.update_of_ne (by omega), if_neg hk,
        axisEntry_hat, hatEntry]
      rfl

theorem buttonEntry_of_none (hpress : ∀ b, pressHit d b e = none) :
    buttonEntry d (es ++ [e]) = buttonEntry d es := by
  funext b
  rw [buttonEntry_concat, hpress]
  rfl

theorem buttonEntry_of_press {button x : ℕ}
    (hpress : ∀ b, pressHit d b e = if button = b then some x else none) :
    buttonEntry d (es ++ [e]) = Function.update (buttonEntry d es) button x := by
  funext b
  rw [buttonEntry_concat, hpress]
  by_cases hb : button = b
  · rw [if_pos hb, hb, Function.update_self]
    rfl
  · rw [if_neg hb, Function.update_of_ne (Ne.symm hb)]
    rfl

end Concat

section Unseen
variable {K : Type} [Field K] [LinearOrder K] {d : Device} {es : List Event}

theorem mirror_of_none {e : Event} (hpress : ∀ b, pressHit d b e = none)
    (hmotion : ∀ a, motionHit d a e = none) (hhat : ∀ h, hatHit d h e = none) :
    mirror (K := K) d (es ++ [e]) = mirror d es := by
  rw [mirror, axisEntry_of_none d es e hmotion hhat, buttonEntry_of_none d es e hpress]
  rfl

theorem mirror_of_press {button x : ℕ} (hd : d.numButtons.toNat ≤ button) {e : Event}
    (hpress : ∀ b, pressHit d b e = if button = b then some x else none)
    (hmotion : ∀ a, motionHit d a e = none) (hhat : ∀ h, hatHit d h e = none) :
    mirror (K := K) d (es ++ [e]) = mirror d es := by
  rw [mirror, axisEntry_of_none d es e hmotion hhat, buttonEntry_of_press d es e hpress,
    map_update_of_le _ hd]
  rfl

theorem mirror_of_foreign (hd : d.Usable) {e : Event} (he : d.Foreign e) :
    mirror (K := K) d (es ++ [e]) = mirror d es := by
  have haxes := hd.numAxes
  have hhats := hd.numHats
  cases e with
  | axisMotion which a value =>
    by_cases hown : which = d.instanceId
    · have ha : d.numAxes.toNat ≤ a := he.resolve_left (not_not.mpr hown)
      rw [hown, mirror, axisEntry_axisMotion, if_neg (Nat.not_lt.mpr ha),
        buttonEntry_of_none d es _ fun _ => rfl]
      rfl
    · exact mirror_of_none (fun _ => rfl) (fun i => by simp [motionHit, hown]) fun _ => rfl
  | buttonDown which button =>
    by_cases hown : which = d.instanceId
    · exact mirror_of_press (x := 1) (he.resolve_left (not_not.mpr hown))
        (fun b => by simp [pressHit, hown]) (fun _ => rfl) fun _ => rfl
    · exact mirror_of_none (fun b => by simp [pressHit, hown]) (fun _ => rfl) fun _ => rfl
  | buttonUp which button =>
    by_cases hown : which = d.instanceId
    · exact mirror_of_press (x := 0) (he.resolve_left (not_not.mpr hown))
        (fun b => by simp [pressHit, hown]) (fun _ => rfl) fun _ => rfl
    · exact mirror_of_none (fun b => by simp [pressHit, hown]) (fun _ => rfl) fun _ => rfl
  | hatMotion which h value =>
    by_cases hown : which = d.instanceId
    · have hh : d.numHats.toNat ≤ h := he.resolve_left (not_not.mpr hown)
      rw [hown, mirror, axisEntry_hatMotion, map_update_of_le _ (by omega),
        map_update_of_le _ (by omega), buttonEntry_of_none d es _ fun _ => rfl]
      rfl
    · exact mirror_of_none (fun _ => rfl) (fun _ => rfl) fun k => by simp [hatHit, hown]
  | deviceAdded which opened => exact mirror_of_none (fun _ => rfl) (fun _ => rfl) fun _ => rfl
  | deviceRemoved which => exact mirror_of_none (fun _ => rfl) (fun _ => rfl) fun _ => rfl
  | other => exact mirror_of_none (fun _ => rfl) (fun _ => rfl) fun _ => rfl

end Unseen
end MybipedalDeploy.JoyStick
