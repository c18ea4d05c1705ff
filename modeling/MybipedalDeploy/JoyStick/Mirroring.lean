import Mathlib.Algebra.Field.Rat
import Mathlib.Algebra.Order.Ring.Rat
import Mathlib.Tactic.Linarith
import MybipedalDeploy.JoyStick.Mirror
import MybipedalDeploy.Library.Runs

/-!
# The joystick's entries through its events

The handler of the hats leaves an entry as it was when its two bits are off, unless the
whole hat is centered, and the handler of the axes lets the entries of the hats count as
axes. Every other event leaves the entries a mirror of the events.
-/

namespace MybipedalDeploy.JoyStick
open Tabulated (set_map_range map_range_inj map_update_of_le map_update_inj map_update_pair_inj)

attribute [ext] JoyStruct

theorem resize_of_zeros {α : Type} {fill : α} {xs : List α} (h : ∀ x ∈ xs, x = fill) (n : ℕ) :
    resize fill n xs = List.replicate n fill := by
  rw [List.eq_replicate_iff]
  refine ⟨length_resize fill n xs, fun x hx => ?_⟩
  rcases List.mem_append.mp hx with htake | hfill
  · exact h x (List.mem_of_mem_take htake)
  · exact List.eq_of_mem_replicate hfill

namespace Joy
variable {K : Type} [Field K]

structure Cleared (j : Joy K) : Prop where
  buttons : ∀ b ∈ j.joyMsg.buttons, b = 0
  axis : ∀ x ∈ j.joyMsg.axis, x = 0

theorem initial_cleared : (initial : Joy K).Cleared :=
  ⟨fun _ h => (List.not_mem_nil h).elim, fun _ h => (List.not_mem_nil h).elim⟩

structure Attends (d : Device) (j : Joy K) : Prop where
  joystick : j.joystick = some d
  instanceId : j.joystickInstanceId = d.instanceId

def turned (v : HatValue) (pos neg : Bool) (x : K) : K :=
  if v = .centered then 0 else if neg then -1 else if pos then 1 else x

theorem moveHat_axis (j : Joy K) (v : HatValue) {f : ℕ → K} {n start : ℕ}
    (h : j.joyMsg.axis = (List.range n).map f) :
    (j.moveHat start v).joyMsg.axis = (List.range n).map (Function.update
      (Function.update f start (turned v v.left v.right (f start))) (start + 1)
      (turned v v.up v.down (f (start + 1)))) := by
  have hkept : ∀ x, Function.update (Function.update f start x) (start + 1) (f (start + 1)) =
      Function.update f start x := by
    intro x
    rw [Function.update_eq_self_iff, Function.update_of_ne (Nat.succ_ne_self start)]
  obtain ⟨up, right, down, left⟩ := v
  cases up <;> cases right <;> cases down <;> cases left <;>
    simp [moveHat, setAxis, h, set_map_range, turned, HatValue.centered, hkept]

theorem moveHat_buttons (j : Joy K) (start : ℕ) (v : HatValue) :
    (j.moveHat start v).joyMsg.buttons = j.joyMsg.buttons := by
  unfold moveHat
  split_ifs <;> rfl

theorem moveHat_joystick (j : Joy K) (start : ℕ) (v : HatValue) :
    (j.moveHat start v).joystick = j.joystick := by
  unfold moveHat
  split_ifs <;> rfl

theorem Attends.moveHat {d : Device} {j : Joy K} (hj : Attends d j) (start : ℕ) (v : HatValue) :
    Attends d (j.moveHat start v) := by
  unfold Joy.moveHat
  split_ifs <;> exact ⟨hj.joystick, hj.instanceId⟩

theorem handleJoyDeviceRemoved_of_ne {j : Joy K} {which : ℤ} (h : which ≠ j.joystickInstanceId) :
    j.handleJoyDeviceRemoved which = j :=
  if_pos h

variable [LinearOrder K]

section Attach

def loadAxis (d : Device) (j : Joy K) (i : ℕ) : Joy K :=
  (d.initialState i).elim j fun state => j.setAxis i (convertRawAxisValueToROS state)

theorem loadInitialState_eq (d : Device) (j : Joy K) :
    loadInitialState d j = (List.range d.numAxes.toNat).foldl (loadAxis d) j := by
  unfold loadInitialState
  congr 1
  funext j i
  unfold loadAxis
  cases d.initialState i <;> rfl

theorem loadInitialState_buttons (d : Device) (j : Joy K) :
    (loadInitialState d j).joyMsg.buttons = j.joyMsg.buttons := by
  rw [loadInitialState_eq]
  refine Runs.foldl_invariant (loadAxis d) (fun s => s.joyMsg.buttons = j.joyMsg.buttons) rfl ?_ _
  intro s i h
  unfold loadAxis
  cases d.initialState i <;> exact h

theorem loadInitialState_attends {d : Device} {j : Joy K} (h : Attends d j) :
    Attends d (loadInitialState d j) := by
  rw [loadInitialState_eq]
  refine Runs.foldl_invariant (loadAxis d) (Attends d) h ?_ _
  intro s i hs
  unfold loadAxis
  cases d.initialState i <;> exact ⟨hs.joystick, hs.instanceId⟩

theorem loadAxis_axis (d : Device) (j : Joy K) (f : ℕ → K) (n k : ℕ)
    (h : j.joyMsg.axis = (List.range n).map f) : (loadAxis d j k).joyMsg.axis =
      (List.range n).map (Function.update f k ((d.initialState k).elim (f k) convertRawAxisValueToROS)) := by
  unfold loadAxis
  cases d.initialState k with
  | none => simpa using h
  | some state =>
    dsimp only [Option.elim, setAxis]
    rw [h, set_map_range]

theorem loadInitialState_axis {d : Device} {j : Joy K} {n : ℕ}
    (h : j.joyMsg.axis = List.replicate n 0) :
    (loadInitialState d j).joyMsg.axis = (List.range n).map (axisEntry d []) := by
  have hloop : ∀ k, ((List.range k).foldl (loadAxis d) j).joyMsg.axis =
      (List.range n).map fun i => if i < k then motionEntry d [] i else 0 := by
    intro k
    induction k with
    | zero => simp [h]
    | succ k ih =>
      rw [List.range_succ, List.foldl_append, List.foldl_cons, List.foldl_nil,
        loadAxis_axis d _ _ n k ih, map_range_inj]
      intro i _
      rcases Nat.lt_trichotomy i k with hlt | rfl | hgt
      · simp [Nat.ne_of_lt hlt, hlt, Nat.lt_succ_of_lt hlt]
      · simp [motionEntry]
      · simp [Nat.ne_of_gt hgt, Nat.not_lt_of_gt hgt, Nat.not_lt_of_ge (Nat.succ_le_of_lt hgt)]
  rw [loadInitialState_eq, hloop, map_range_inj]
  intro i _
  simp [axisEntry, hatEntry, hatValue, direction, HatValue.centered]

theorem handleJoyDeviceAdded_mirror {d : Device} (hd : d.Usable) {j : Joy K} (hj : j.Cleared) :
    Attends d (j.handleJoyDeviceAdded devId (some d)) ∧
      (j.handleJoyDeviceAdded devId (some d)).joyMsg = mirror d [] := by
  let opened : Joy K := (({ j with joystick := some d, joystickInstanceId := d.instanceId }
    : Joy K).resizeButtons d.numButtons.toNat).resizeAxis (d.numAxes + d.numHats * 2).toNat
  have hadded : j.handleJoyDeviceAdded devId (some d) = loadInitialState d opened := by
    simp only [handleJoyDeviceAdded, ne_eq, not_true_eq_false, if_false,
      if_neg (Int.not_lt.mpr hd.instanceId), if_neg (Int.not_lt.mpr hd.numButtons),
      if_neg (Int.not_lt.mpr hd.numAxes), if_neg (Int.not_lt.mpr hd.numHats)]
    rfl
  rw [hadded]
  refine ⟨loadInitialState_attends ⟨rfl, rfl⟩, JoyStruct.ext ?_ ?_⟩
  · exact loadInitialState_axis (resize_of_zeros hj.axis _)
  · rw [loadInitialState_buttons]
    have hnone : buttonEntry d [] = fun _ => 0 := rfl
    refine (resize_of_zeros hj.buttons d.numButtons.toNat).trans ?_
    simp [mirror, hnone]

end Attach

section Handlers
variable {d : Device} {j : Joy K} {es : List Event}

/-- The entry of a hat shows a direction that its value does not contradict or leave out. -/
def Settled (pos neg : Bool) (x : K) : Prop :=
  ¬ (pos = true ∧ neg = true) ∧ (pos = true ∨ neg = true ∨ x = 0)

/-- An event after which the entries still mirror the events: no motion of an axis that
the device does not have, unless it shows what the hat in its place shows, and no value
of a hat that asks for both directions, or for none where the entry shows one. -/
def Steady (d : Device) (j : Joy K) : Event → Prop
  | .axisMotion which a value => which = d.instanceId → d.numAxes.toNat ≤ a →
      a < j.joyMsg.axis.length → j.joyMsg.axis.getD a 0 = convertRawAxisValueToROS value
  | .hatMotion which h v => which = d.instanceId → h < d.numHats.toNat → v ≠ .centered →
      let start := d.numAxes.toNat + h * 2
      Settled v.left v.right (j.joyMsg.axis.getD start 0) ∧
        Settled v.up v.down (j.joyMsg.axis.getD (start + 1) 0)
  | _ => True

theorem mirror_concat {e : Event} (hm : j.joyMsg = mirror d es)
    (hpress : ∀ b, pressHit d b e = none) (hmotion : ∀ a, motionHit d a e = none) (hhat : ∀ h, hatHit d h e = none) :
    j.joyMsg = mirror d (es ++ [e]) := by
  rw [mirror_of_none hpress hmotion hhat, hm]

theorem axis_of_mirror (hm : j.joyMsg = mirror d es) : j.joyMsg.axis =
    (List.range (d.numAxes + d.numHats * 2).toNat).map (axisEntry d es) :=
  congrArg JoyStruct.axis hm

theorem getD_axis_of_mirror (hm : j.joyMsg = mirror d es) {i : ℕ}
    (hi : i < (d.numAxes + d.numHats * 2).toNat) : j.joyMsg.axis.getD i 0 = axisEntry d es i := by
  simp [axis_of_mirror hm, List.getD, hi]

theorem buttons_of_none (hm : j.joyMsg = mirror d es) {e : Event}
    (hpress : ∀ b, pressHit d b e = none) :
    j.joyMsg.buttons = (mirror (K := K) d (es ++ [e])).buttons := by
  rw [hm, mirror, mirror, buttonEntry_of_none d es e hpress]

theorem handleJoyAxis_mirror (hd : d.Usable) (hj : Attends d j) (hm : j.joyMsg = mirror d es)
    (which : ℤ) (a : ℕ) (value : BitVec 16) :
    (j.handleJoyAxis which a value).joyMsg = mirror d (es ++ [.axisMotion which a value]) ↔
      Steady d j (.axisMotion which a value) := by
  have haxes := hd.numAxes
  have hhats := hd.numHats
  have haxis := axis_of_mirror hm
  have hlength : j.joyMsg.axis.length = (d.numAxes + d.numHats * 2).toNat := by simp [haxis]
  rw [handleJoyAxis, hj.instanceId]
  by_cases hown : which = d.instanceId
  · subst hown
    have hbuttons := buttons_of_none hm (e := .axisMotion d.instanceId a value) fun _ => rfl
    rw [if_neg (not_not.mpr rfl)]
    by_cases hlt : a < j.joyMsg.axis.length
    · rw [if_neg (Nat.not_le.mpr hlt), JoyStruct.ext_iff]
      refine (and_iff_left hbuttons).trans ?_
      rw [mirror, axisEntry_axisMotion, setAxis, haxis, set_map_range]
      rw [hlength] at hlt
      by_cases ha : a < d.numAxes.toNat
      · rw [if_pos ha]
        exact iff_of_true rfl fun _ hle => absurd ha (Nat.not_lt.mpr hle)
      · rw [if_neg ha, map_update_inj hlt]
        rw [Steady, getD_axis_of_mirror hm hlt]
        constructor
        · intro h _ _ _
          exact h.symm
        · intro h
          exact (h rfl (Nat.not_lt.mp ha) (hlength ▸ hlt)).symm
    · rw [if_pos (Nat.not_lt.mp hlt)]
      refine iff_of_true (JoyStruct.ext ?_ hbuttons) fun _ _ h => absurd h hlt
      rw [mirror, axisEntry_axisMotion, if_neg (by omega), haxis]
  · rw [if_pos hown]
    have hnone : ∀ i, motionHit d i (.axisMotion which a value) = none := fun i => by
      simp [motionHit, hown]
    exact iff_of_true (mirror_concat hm (fun _ => rfl) hnone fun _ => rfl) fun h => absurd h hown

theorem handleJoyButton_mirror (hj : Attends d j) (hm : j.joyMsg = mirror d es) {e : Event}
    (which : ℤ) (button x : ℕ)
    (hpress : ∀ b, pressHit d b e = if which = d.instanceId ∧ button = b then some x else none)
    (hmotion : ∀ a, motionHit d a e = none) (hhat : ∀ h, hatHit d h e = none) :
    (if which ≠ j.joystickInstanceId then j
      else if button ≥ j.joyMsg.buttons.length then j else j.setButton button x).joyMsg =
        mirror d (es ++ [e]) := by
  have hbuttons : j.joyMsg.buttons = (List.range d.numButtons.toNat).map (buttonEntry d es) := by
    rw [hm, mirror]
  have haxis : j.joyMsg.axis = (mirror (K := K) d (es ++ [e])).axis := by
    rw [hm, mirror, mirror, axisEntry_of_none d es e hmotion hhat]
  have hlength : j.joyMsg.buttons.length = d.numButtons.toNat := by simp [hbuttons]
  rw [hj.instanceId]
  by_cases hown : which = d.instanceId
  · have hpress' : ∀ b, pressHit d b e = if button = b then some x else none := by
      simpa only [hown, true_and] using hpress
    rw [if_neg (not_not.mpr hown)]
    by_cases hlt : button < j.joyMsg.buttons.length
    · rw [if_neg (Nat.not_le.mpr hlt)]
      refine JoyStruct.ext haxis ?_
      rw [mirror, buttonEntry_of_press d es e hpress', setButton, hbuttons, set_map_range]
    · rw [if_pos (Nat.not_lt.mp hlt)]
      refine JoyStruct.ext haxis ?_
      rw [mirror, buttonEntry_of_press d es e hpress', map_update_of_le _ (by omega), hbuttons]
  · rw [if_pos hown]
    exact mirror_concat hm (fun b => by simp [hpress, hown]) hmotion hhat

theorem handleJoyButtonDown_mirror (hj : Attends d j) (hm : j.joyMsg = mirror d es) (which : ℤ)
    (button : ℕ) :
    (j.handleJoyButtonDown which button).joyMsg = mirror d (es ++ [.buttonDown which button]) :=
  handleJoyButton_mirror hj hm which button 1 (fun _ => rfl) (fun _ => rfl) fun _ => rfl

theorem handleJoyButtonUp_mirror (hj : Attends d j) (hm : j.joyMsg = mirror d es) (which : ℤ)
    (button : ℕ) :
    (j.handleJoyButtonUp which button).joyMsg = mirror d (es ++ [.buttonUp which button]) :=
  handleJoyButton_mirror hj hm which button 0 (fun _ => rfl) (fun _ => rfl) fun _ => rfl

theorem turned_eq_direction [IsStrictOrderedRing K] {v : HatValue} (hv : v ≠ .centered)
    (pos neg : Bool) (x : K) : turned v pos neg x = direction pos neg ↔ Settled pos neg x := by
  have hne : (-1 : K) ≠ 1 := by
    intro h
    linarith
  rw [turned, if_neg hv]
  cases pos <;> cases neg <;> simp [direction, Settled, hne]

theorem handleJoyHatMotion_mirror [IsStrictOrderedRing K] (hd : d.Usable) (hj : Attends d j)
    (hm : j.joyMsg = mirror d es) (which : ℤ) (h : ℕ) (value : HatValue) :
    (j.handleJoyHatMotion which h value).joyMsg = mirror d (es ++ [.hatMotion which h value]) ↔
      Steady d j (.hatMotion which h value) := by
  have haxes := hd.numAxes
  have hhats := hd.numHats
  have haxis := axis_of_mirror hm
  have hlength : j.joyMsg.axis.length = (d.numAxes + d.numHats * 2).toNat := by simp [haxis]
  have hsdl : j.sdlNumAxes = d.numAxes := by rw [sdlNumAxes, hj.joystick]; rfl
  rw [handleJoyHatMotion, hj.instanceId, hsdl, if_neg (Int.not_lt.mpr haxes)]
  by_cases hown : which = d.instanceId
  · subst hown
    have hbuttons := buttons_of_none hm (e := .hatMotion d.instanceId h value) fun _ => rfl
    rw [if_neg (not_not.mpr rfl)]
    dsimp only
    by_cases hlt : h < d.numHats.toNat
    · have hlast : d.numAxes.toNat + h * 2 + 1 < (d.numAxes + d.numHats * 2).toNat := by omega
      rw [if_neg (by omega), JoyStruct.ext_iff, moveHat_buttons]
      refine (and_iff_left hbuttons).trans ?_
      rw [moveHat_axis j value haxis, mirror, axisEntry_hatMotion, map_update_pair_inj hlast]
      dsimp only [Steady]
      rw [getD_axis_of_mirror hm (by omega), getD_axis_of_mirror hm hlast]
      by_cases hcentered : value = .centered
      · subst hcentered
        exact iff_of_true ⟨if_pos rfl, if_pos rfl⟩ fun _ _ h => absurd rfl h
      · rw [turned_eq_direction hcentered, turned_eq_direction hcentered]
        exact ⟨fun h _ _ _ => h, fun h => h rfl hlt hcentered⟩
    · rw [if_pos (by omega)]
      refine iff_of_true (JoyStruct.ext ?_ hbuttons) fun _ hlt' => absurd hlt' hlt
      rw [mirror, axisEntry_hatMotion, map_update_of_le _ (by omega),
        map_update_of_le _ (by omega), haxis]
  · rw [if_pos hown]
    have hnone : ∀ i, hatHit d i (.hatMotion which h value) = none := fun i => by
      simp [hatHit, hown]
    exact iff_of_true (mirror_concat hm (fun _ => rfl) (fun _ => rfl) hnone) fun h => absurd h hown

theorem handleJoyDeviceAdded_of_ne {which : ℤ} (h : which ≠ devId) (opened : Option Device) :
    j.handleJoyDeviceAdded which opened = j :=
  if_pos h

theorem Attends.handle (hj : Attends d j) {e : Event} (he : d.Keeps e) :
    Attends d (j.handle e) := by
  cases e with
  | axisMotion which a value =>
    rw [Joy.handle, handleJoyAxis]
    split_ifs <;> exact ⟨hj.joystick, hj.instanceId⟩
  | buttonDown which b =>
    rw [Joy.handle, handleJoyButtonDown]
    split_ifs <;> exact ⟨hj.joystick, hj.instanceId⟩
  | buttonUp which b =>
    rw [Joy.handle, handleJoyButtonUp]
    split_ifs <;> exact ⟨hj.joystick, hj.instanceId⟩
  | hatMotion which h value =>
    rw [Joy.handle, handleJoyHatMotion]
    dsimp only
    split_ifs
    · exact hj
    · exact hj
    · exact hj
    · exact hj.moveHat _ value
  | deviceAdded which opened =>
    rw [Joy.handle, handleJoyDeviceAdded_of_ne he]
    exact hj
  | deviceRemoved which =>
    have hother : which ≠ j.joystickInstanceId := hj.instanceId.symm ▸ he
    rw [Joy.handle, handleJoyDeviceRemoved_of_ne hother]
    exact hj
  | other => exact hj

/-- One event: the entries that mirrored the events before it mirror it too, exactly if it
is steady. -/
theorem handle_mirror [IsStrictOrderedRing K] (hd : d.Usable) (hj : Attends d j)
    (hm : j.joyMsg = mirror d es) {e : Event} (he : d.Keeps e) :
    (j.handle e).joyMsg = mirror d (es ++ [e]) ↔ Steady d j e := by
  cases e with
  | axisMotion which a value => exact handleJoyAxis_mirror hd hj hm which a value
  | buttonDown which b => exact iff_of_true (handleJoyButtonDown_mirror hj hm which b) trivial
  | buttonUp which b => exact iff_of_true (handleJoyButtonUp_mirror hj hm which b) trivial
  | hatMotion which h value => exact handleJoyHatMotion_mirror hd hj hm which h value
  | deviceAdded which opened =>
    rw [handle, handleJoyDeviceAdded_of_ne he]
    exact iff_of_true (mirror_concat hm (fun _ => rfl) (fun _ => rfl) fun _ => rfl) trivial
  | deviceRemoved which =>
    have hother : which ≠ j.joystickInstanceId := hj.instanceId.symm ▸ he
    rw [handle, handleJoyDeviceRemoved_of_ne hother]
    exact iff_of_true (mirror_concat hm (fun _ => rfl) (fun _ => rfl) fun _ => rfl) trivial
  | other => exact iff_of_true (mirror_concat hm (fun _ => rfl) (fun _ => rfl) fun _ => rfl) trivial

end Handlers

def attend {d : Device} (j : Joy K) (es : List {e : Event // d.Keeps e}) : Joy K :=
  es.foldl (fun j e => j.handle e.1) j

/-- From the moment a device is attached, the entries mirror its events all along, exactly
if every event is steady. -/
theorem mirrors_iff [IsStrictOrderedRing K] {d : Device} (hd : d.Usable) {j : Joy K}
    (hj : j.Cleared) (es : List {e : Event // d.Keeps e}) :
    let start := j.handleJoyDeviceAdded devId (some d)
    (∀ p, p <+: es → (start.attend p).joyMsg = mirror d (p.map Subtype.val)) ↔
      ∀ p e q, es = p ++ e :: q → Steady d (start.attend p) e.1 := by
  intro start
  obtain ⟨hattends, hmirror⟩ := handleJoyDeviceAdded_mirror hd hj
  have hattend : ∀ p, Attends d (start.attend p) :=
    Runs.foldl_invariant _ (Attends d) hattends fun s e hs => hs.handle e.2
  refine Runs.foldl_always_iff _ (fun s e => Steady d s e.1)
    (fun p s => s.joyMsg = mirror d (p.map Subtype.val)) hmirror ?_ es
  intro p e hp
  rw [List.map_append, List.map_cons, List.map_nil]
  exact handle_mirror hd (hattend p) hp e.2

end Joy

section Pad

def smallPad : Device := ⟨5, 2, 2, 1, fun _ => none⟩

theorem smallPad_usable : smallPad.Usable := by
  constructor <;> decide

def hatTo (up left : Bool) : {e : Event // smallPad.Keeps e} :=
  ⟨.hatMotion 5 0 ⟨up, false, false, left⟩, trivial⟩

namespace Joy

theorem mirrors_released :
    ((handleJoyDeviceAdded initial devId (some smallPad) : Joy ℚ).attend
      [hatTo true true, hatTo false false]).joyMsg =
        mirror smallPad ([hatTo true true, hatTo false false].map Subtype.val) := by
  refine (mirrors_iff smallPad_usable initial_cleared _).mpr ?_ _ List.prefix_rfl
  intro p e q h
  match p, h with
  | [], h =>
    cases h
    exact fun _ _ _ => ⟨⟨by decide, .inl rfl⟩, by decide, .inl rfl⟩
  | [_], h =>
    cases h
    exact fun _ _ hvalue => absurd rfl hvalue
  | _ :: _ :: p, h => simp at h

/-- From up and left to left only: the second entry still says up. -/
theorem diagonal_sticks :
    ¬ ∀ (j : Joy ℚ) (d : Device) (es : List {e : Event // d.Keeps e}), d.Usable → j.Cleared →
      ((j.handleJoyDeviceAdded devId (some d)).attend es).joyMsg = mirror d (es.map Subtype.val) := by
  intro h
  have haxis := congrArg JoyStruct.axis
    (h initial smallPad [hatTo true true, hatTo false true] smallPad_usable initial_cleared)
  revert haxis
  decide +kernel

end Joy
end Pad
end MybipedalDeploy.JoyStick
