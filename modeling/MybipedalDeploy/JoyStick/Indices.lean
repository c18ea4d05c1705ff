import Mathlib.Algebra.Order.Ring.Rat
import MybipedalDeploy.JoyStick.JoyStickModule
import MybipedalDeploy.Library.Runs

/-!
# The indices of the loop

The arrays have the sizes the last opened device announced; the indices come from the
configuration, and the limiter has the dimension of its configured axes. The loop
compares none of these.
-/

namespace MybipedalDeploy.JoyStick

structure Attached where
  instanceId : ℤ
  buttons : ℕ
  axes : ℕ
  deriving DecidableEq

def Attached.none : Attached := ⟨0, 0, 0⟩

def Attached.open (s : Attached) (d : Device) : Attached where
  instanceId := d.instanceId
  buttons := if 0 ≤ d.instanceId ∧ 0 ≤ d.numButtons then d.numButtons.toNat else s.buttons
  axes :=
    if 0 ≤ d.instanceId ∧ 0 ≤ d.numButtons ∧ 0 ≤ d.numAxes ∧ 0 ≤ d.numHats then
      (d.numAxes + d.numHats * 2).toNat
    else s.axes

def Attached.after (s : Attached) : Event → Attached
  | .deviceAdded which (some d) => if which = Joy.devId then s.open d else s
  | .deviceRemoved which => if which = s.instanceId then ⟨s.instanceId, 0, 0⟩ else s
  | _ => s

namespace Joy
variable {K : Type}

def attached (j : Joy K) : Attached :=
  ⟨j.joystickInstanceId, j.joyMsg.buttons.length, j.joyMsg.axis.length⟩

@[simp] theorem attached_setAxis (j : Joy K) (i : ℕ) (x : K) :
    (j.setAxis i x).attached = j.attached := by
  simp [attached, setAxis]

@[simp] theorem attached_setButton (j : Joy K) (i x : ℕ) :
    (j.setButton i x).attached = j.attached := by
  simp [attached, setButton]

@[simp] theorem attached_resizeButtons (j : Joy K) (n : ℕ) :
    (j.resizeButtons n).attached = { j.attached with buttons := n } := by
  simp [attached, resizeButtons, length_resize]

theorem attached_open (j : Joy K) (opened : Option Device) (id : ℤ) :
    ({ j with joystick := opened, joystickInstanceId := id } : Joy K).attached =
      { j.attached with instanceId := id } := rfl

variable [Field K]

@[simp] theorem attached_resizeAxis (j : Joy K) (n : ℕ) :
    (j.resizeAxis n).attached = { j.attached with axes := n } := by
  simp [attached, resizeAxis, length_resize]

theorem attached_moveHat (j : Joy K) (start : ℕ) (v : HatValue) :
    (j.moveHat start v).attached = j.attached := by
  unfold moveHat
  split_ifs <;> simp

variable [LinearOrder K]

theorem attached_loadInitialState (d : Device) (j : Joy K) :
    (loadInitialState d j).attached = j.attached := by
  refine Runs.foldl_invariant _ (fun j' : Joy K => j'.attached = j.attached) rfl ?_ _
  intro j' i h
  split
  · rw [attached_setAxis, h]
  · exact h

theorem attached_handle (j : Joy K) (e : Event) : (j.handle e).attached = j.attached.after e := by
  cases e with
  | axisMotion which axis value =>
    simp only [handle, handleJoyAxis, Attached.after]
    split_ifs <;> simp
  | buttonDown which button =>
    simp only [handle, handleJoyButtonDown, Attached.after]
    split_ifs <;> simp
  | buttonUp which button =>
    simp only [handle, handleJoyButtonUp, Attached.after]
    split_ifs <;> simp
  | hatMotion which hat value =>
    simp only [handle, handleJoyHatMotion, Attached.after]
    split_ifs <;> simp [attached_moveHat]
  | deviceAdded which opened =>
    simp only [handle, handleJoyDeviceAdded]
    cases opened with
    | none =>
      simp only [Attached.after]
      split_ifs <;> rfl
    | some d =>
      simp only [Attached.after]
      by_cases hwhich : which = devId
      · rw [if_neg (not_not.mpr hwhich), if_pos hwhich, Attached.open]
        split_ifs with hid hbuttons haxes hhats
        all_goals
          simp only [attached_open, attached_resizeButtons, attached_resizeAxis,
            attached_loadInitialState]
        all_goals first
          | rfl
          | omega
      · rw [if_pos hwhich, if_neg hwhich]
  | deviceRemoved which =>
    have hid : j.attached.instanceId = j.joystickInstanceId := rfl
    simp only [handle, handleJoyDeviceRemoved, Attached.after]
    by_cases hwhich : which = j.joystickInstanceId
    · rw [if_neg (not_not.mpr hwhich), hid, if_pos hwhich, attached_open, attached_resizeAxis,
        attached_resizeButtons]
      rfl
    · rw [if_pos hwhich, hid, if_neg hwhich]
  | other => rfl

end Joy

/-- What a cycle does with the arrays: the indices it uses, and the size of a target
against the dimension of the limiter. -/
inductive Access
  | button (i : ℕ)
  | axis (i : ℕ)
  | update (size dim : ℕ)
  deriving DecidableEq

def Access.InRange {K : Type} (d : JoyStruct K) : Access → Prop
  | .button i => i < d.buttons.length
  | .axis i => i < d.axis.length
  | .update size dim => size = dim

instance {K : Type} (d : JoyStruct K) (a : Access) : Decidable (a.InRange d) := by
  unfold Access.InRange
  split <;> infer_instance

@[simp] theorem Access.inRange_button {K : Type} (d : JoyStruct K) (i : ℕ) :
    (Access.button i).InRange d ↔ i < d.buttons.length := Iff.rfl

@[simp] theorem Access.inRange_axis {K : Type} (d : JoyStruct K) (i : ℕ) :
    (Access.axis i).InRange d ↔ i < d.axis.length := Iff.rfl

@[simp] theorem Access.inRange_update {K : Type} (d : JoyStruct K) (size dim : ℕ) :
    (Access.update size dim).InRange d ↔ size = dim := Iff.rfl

def TwistPub.axisIndices {K : Type} (p : TwistPub K) : List ℕ := p.axes.map Prod.snd

section Accesses
variable {K : Type} (l : Option (JoyVelLimiter K)) (d : JoyStruct K)

def TwistPub.accesses (p : TwistPub K) : List Access :=
  p.buttons.map .button ++
    match l with
    | some l =>
      if d.pressed p.buttons then p.axisIndices.map .axis ++ [.update d.axis.length l.dim] else []
    | none => []

def Config.accesses (c : Config K) : List Access :=
  (c.floatPubs.flatMap FloatPub.buttons).map .button ++
    c.twistPubs.flatMap (TwistPub.accesses l d) ++
    (c.srvClients.flatMap ServiceClient.buttons).map .button

end Accesses

def Config.buttonIndices {K : Type} (c : Config K) : List ℕ :=
  c.floatPubs.flatMap FloatPub.buttons ++ c.twistPubs.flatMap TwistPub.buttons ++
    c.srvClients.flatMap ServiceClient.buttons

/-- The device fits the configuration: it has the buttons, and where a twist is about to be
published it has the axes, as many as the limiter's publisher configures. -/
def Config.Fits {K : Type} (c : Config K) (s : Attached) (d : JoyStruct K) : Prop :=
  (∀ b ∈ c.buttonIndices, b < s.buttons) ∧
    ∀ e ∈ owner c.twistPubs, ∀ p ∈ c.twistPubs, d.pressed p.buttons = true →
      s.axes = e.1.axis.length ∧ ∀ n ∈ p.axisIndices, n < s.axes

instance {K : Type} (c : Config K) (s : Attached) (d : JoyStruct K) : Decidable (c.Fits s d) :=
  inferInstanceAs (Decidable (_ ∧ _))

structure Stick (K : Type) where
  joy : Joy K
  loop : MainLoop K

namespace Stick
variable {K : Type}

inductive Input (K : Type)
  | event (e : Event)
  | cycle (stray : Stray K)

def Input.event? : Input K → Option Event
  | .event e => some e
  | .cycle _ => none

def attachedBy (as : List (Input K)) : Attached :=
  (as.filterMap Input.event?).foldl Attached.after .none

variable [Field K] [LinearOrder K] (solver : Solver K) (c : Config K)

def step (s : Stick K) : Input K → Stick K
  | .event e => { s with joy := s.joy.handle e }
  | .cycle u =>
    { s with loop := s.loop.cycle solver c { s.joy.getJoyData with stray := u } }

def run (m : MainLoop K) (as : List (Input K)) : Stick K := as.foldl (step solver c) ⟨.initial, m⟩

end Stick

def Stick.InRange {K : Type} (c : Config K) (s : Stick K) : Prop :=
  ∀ a ∈ c.accesses s.loop.limiter s.joy.getJoyData, a.InRange s.joy.getJoyData

instance {K : Type} (c : Config K) (s : Stick K) : Decidable (s.InRange c) :=
  inferInstanceAs (Decidable (∀ a ∈ _, _))

theorem Access.forall_button {K : Type} (d : JoyStruct K) (bs : List ℕ) :
    (∀ a ∈ bs.map Access.button, a.InRange d) ↔ ∀ b ∈ bs, b < d.buttons.length := by
  simp only [List.forall_mem_map, inRange_button]

theorem TwistPub.forall_accesses {K : Type} (l : Option (JoyVelLimiter K)) (d : JoyStruct K)
    (p : TwistPub K) :
    (∀ a ∈ p.accesses l d, a.InRange d) ↔
      (∀ b ∈ p.buttons, b < d.buttons.length) ∧
        ∀ l' ∈ l, d.pressed p.buttons = true →
          d.axis.length = l'.dim ∧ ∀ n ∈ p.axisIndices, n < d.axis.length := by
  unfold TwistPub.accesses
  rw [List.forall_mem_append, Access.forall_button]
  refine and_congr_right fun _ => ?_
  cases l with
  | none => simp
  | some l =>
    by_cases hpressed : d.pressed p.buttons = true
    · simp only [hpressed, if_true, List.forall_mem_append, List.forall_mem_map, List.mem_singleton,
        forall_eq, Access.inRange_axis, Access.inRange_update, Option.mem_some, forall_eq',
        true_implies]
      exact and_comm
    · simp [hpressed]

theorem Config.forall_accesses {K : Type} (c : Config K) (l : Option (JoyVelLimiter K))
    (d : JoyStruct K) :
    (∀ a ∈ c.accesses l d, a.InRange d) ↔
      (∀ b ∈ c.buttonIndices, b < d.buttons.length) ∧
        ∀ l' ∈ l, ∀ p ∈ c.twistPubs, d.pressed p.buttons = true →
          d.axis.length = l'.dim ∧ ∀ n ∈ p.axisIndices, n < d.axis.length := by
  simp only [Config.accesses, Config.buttonIndices, List.forall_mem_append, Access.forall_button,
    List.forall_mem_flatMap, TwistPub.forall_accesses]
  grind

section Dimension
variable {K : Type} [Field K] (solver : Solver K)

theorem MainLoop.cycle_dim (c : Config K) (m : MainLoop K) (d : Reading K) :
    (m.cycle solver c d).limiter.map JoyVelLimiter.dim = m.limiter.map JoyVelLimiter.dim := by
  have hplay := MainLoop.foldl_play_dim solver m (c.turns.map (Prod.mk d))
  rw [List.foldl_map] at hplay
  rw [MainLoop.cycle_eq]
  exact hplay

theorem Stick.run_dim {c : Config K} [LinearOrder K] {m : MainLoop K} (as : List (Input K)) :
    (Stick.run solver c m as).loop.limiter.map JoyVelLimiter.dim =
      m.limiter.map JoyVelLimiter.dim := by
  refine Runs.foldl_invariant _
    (fun s : Stick K => s.loop.limiter.map JoyVelLimiter.dim = m.limiter.map JoyVelLimiter.dim) rfl
    (fun s i h => ?_) as
  cases i with
  | event e => exact h
  | cycle u => exact (s.loop.cycle_dim solver c _).trans h

theorem Stick.run_attached [LinearOrder K] (c : Config K) (m : MainLoop K) (as : List (Input K)) :
    (Stick.run solver c m as).joy.attached = attachedBy as := by
  refine Runs.foldl_history _ (fun (p : List (Input K)) (s : Stick K) => s.joy.attached = attachedBy p)
    rfl (fun p i h => ?_) as
  rw [attachedBy, List.filterMap_append, List.foldl_append, ← attachedBy]
  cases i with
  | event e => exact (Joy.attached_handle _ e).trans (congrArg (Attached.after · e) h)
  | cycle u => exact h

theorem Config.start_dim {c : Config K} {m : MainLoop K} (h : c.start = .ok m) :
    m.limiter.map JoyVelLimiter.dim = (owner c.twistPubs).map fun e => e.1.axis.length := by
  rcases limiter_of_start h with ⟨ho, hl⟩ | ⟨p, k, lb, ub, l, ho, -, hcreate, hl⟩
  · rw [ho, hl]
    rfl
  · rw [ho, hl, Option.map_some, Option.map_some, (JoyVelLimiter.create_eq_ok hcreate).1]

/-- In every run, every index is in range and every target has the limiter's dimension
exactly if the attached device fits the configuration in every cycle. -/
theorem accesses_inRange_iff [LinearOrder K] (c : Config K) {m : MainLoop K} (hm : c.start = .ok m)
    (as : List (Stick.Input K)) :
    (∀ p u q, as = p ++ .cycle u :: q → (Stick.run solver c m p).InRange c) ↔
      ∀ p u q, as = p ++ .cycle u :: q →
        c.Fits (Stick.attachedBy p) (Stick.run solver c m p).joy.getJoyData := by
  refine forall_congr' fun p => forall₃_congr fun u q _ => ?_
  rw [Stick.InRange, Config.forall_accesses, Config.Fits, ← Stick.run_attached solver c m p]
  refine and_congr_right fun _ => ?_
  have hdim : (Stick.run solver c m p).loop.limiter.map JoyVelLimiter.dim =
      (owner c.twistPubs).map fun e => e.1.axis.length :=
    (Stick.run_dim solver p).trans (Config.start_dim hm)
  cases ho : owner c.twistPubs with
  | none =>
    rw [ho, Option.map_none, Option.map_eq_none_iff] at hdim
    simp [hdim]
  | some e =>
    rw [ho, Option.map_some, Option.map_eq_some_iff] at hdim
    obtain ⟨l, hl, hlen⟩ := hdim
    simp only [hl, Option.mem_some, forall_eq', hlen]
    rfl

end Dimension

section Devices
open Stick (Input)

def pad (axes hats : ℤ) : Device := ⟨5, 11, axes, hats, fun _ => none⟩

def plugged (d : Device) : List (Input ℚ) :=
  [.event (.deviceAdded 0 (some d)), .event (.buttonDown 5 4)]

theorem shipped_out_of_range :
    ¬ (Stick.run boxSolver shipped (loopOf shipped) []).InRange shipped ∧
      ¬ (Stick.run boxSolver shipped (loopOf shipped) (plugged (pad 6 1))).InRange shipped := by
  decide +kernel

theorem indices_unchecked :
    ¬ ∀ (c : Config ℚ) (m : MainLoop ℚ), c.start = .ok m → ∀ p : List (Input ℚ),
      (Stick.run boxSolver c m p).InRange c :=
  fun h => shipped_out_of_range.1 (h shipped _ start_shipped [])

theorem inRange_threeAxes :
    threeAxes.start = .ok (loopOf threeAxes) ∧
      ∀ p u q, plugged (pad 3 0) ++ [.cycle (.zero ℚ)] = p ++ .cycle u :: q →
        (Stick.run boxSolver threeAxes (loopOf threeAxes) p).InRange threeAxes := by
  refine ⟨rfl, (accesses_inRange_iff boxSolver threeAxes start_threeAxes _).mpr fun p u q h => ?_⟩
  have hp : p = plugged (pad 3 0) := by
    match p, h with
    | [], h => cases h
    | [_], h => cases h
    | [_, _], h => cases h; rfl
    | _ :: _ :: _ :: p, h => simp [plugged] at h
  subst hp
  decide +kernel

end Devices
end MybipedalDeploy.JoyStick
