import Mathlib.Algebra.Order.Field.Basic

/-!
# The joystick device

The event thread handles one event at a time under the mutex that `GetJoyData` takes
for its copy. What SDL says of a device is part of the event that announces it.
-/

namespace MybipedalDeploy.JoyStick

/-- A device as SDL describes it; a negative number is a failed query. -/
structure Device where
  instanceId : ℤ
  numButtons : ℤ
  numAxes : ℤ
  numHats : ℤ
  initialState : ℕ → Option (BitVec 16)

structure JoyStruct (K : Type) where
  axis : List K
  buttons : List ℕ

structure Joy (K : Type) where
  joystick : Option Device
  joystickInstanceId : ℤ
  joyMsg : JoyStruct K

structure HatValue where
  up : Bool
  right : Bool
  down : Bool
  left : Bool
  deriving DecidableEq

inductive Event
  | axisMotion (which : ℤ) (axis : ℕ) (value : BitVec 16)
  | buttonDown (which : ℤ) (button : ℕ)
  | buttonUp (which : ℤ) (button : ℕ)
  | hatMotion (which : ℤ) (hat : ℕ) (value : HatValue)
  | deviceAdded (which : ℤ) (opened : Option Device)
  | deviceRemoved (which : ℤ)
  | other

def HatValue.centered : HatValue := ⟨false, false, false, false⟩

def resize {α : Type} (fill : α) (n : ℕ) (xs : List α) : List α :=
  xs.take n ++ List.replicate (n - xs.length) fill

theorem length_resize {α : Type} (fill : α) (n : ℕ) (xs : List α) :
    (resize fill n xs).length = n := by
  simp only [resize, List.length_append, List.length_take, List.length_replicate]
  omega

namespace Joy
variable {K : Type} [Field K]

def devId : ℤ := 0
def stickyButtons : Bool := false

def initial : Joy K := ⟨none, 0, ⟨[], []⟩⟩

def getJoyData (j : Joy K) : JoyStruct K := j.joyMsg

def scaledDeadzone : K := ((5 : ℕ) : K) / ((100 : ℕ) : K)
def unscaledDeadzone : K := ((32767 : ℕ) : K) * scaledDeadzone
def scale : K := -1 / (1 - scaledDeadzone) / ((32767 : ℕ) : K)

def setAxis (j : Joy K) (i : ℕ) (x : K) : Joy K :=
  { j with joyMsg := { j.joyMsg with axis := j.joyMsg.axis.set i x } }

def setButton (j : Joy K) (i : ℕ) (x : ℕ) : Joy K :=
  { j with joyMsg := { j.joyMsg with buttons := j.joyMsg.buttons.set i x } }

def handleJoyButtonDown (j : Joy K) (which : ℤ) (button : ℕ) : Joy K :=
  if which ≠ j.joystickInstanceId then j
  else if button ≥ j.joyMsg.buttons.length then j
  else if stickyButtons then j.setButton button (1 - j.joyMsg.buttons.getD button 0)
  else j.setButton button 1

def handleJoyButtonUp (j : Joy K) (which : ℤ) (button : ℕ) : Joy K :=
  if which ≠ j.joystickInstanceId then j
  else if button ≥ j.joyMsg.buttons.length then j
  else if stickyButtons then j
  else j.setButton button 0

/-- `SDL_JoystickNumAxes`, which fails without a device. -/
def sdlNumAxes (j : Joy K) : ℤ := j.joystick.elim (-1) Device.numAxes

/-- Only the bits that are set, or a centered hat, change the pair of a hat. -/
def moveHat (j : Joy K) (start : ℕ) (value : HatValue) : Joy K :=
  let j := if value.left then j.setAxis start 1 else j
  let j := if value.right then j.setAxis start (-1) else j
  let j := if value.up then j.setAxis (start + 1) 1 else j
  let j := if value.down then j.setAxis (start + 1) (-1) else j
  if value = .centered then (j.setAxis start 0).setAxis (start + 1) 0 else j

def handleJoyHatMotion (j : Joy K) (which : ℤ) (hat : ℕ) (value : HatValue) : Joy K :=
  if which ≠ j.joystickInstanceId then j
  else if j.sdlNumAxes < 0 then j
  else
    let start := j.sdlNumAxes.toNat + hat * 2
    if start + 1 ≥ j.joyMsg.axis.length then j else j.moveHat start value

def resizeButtons (j : Joy K) (n : ℕ) : Joy K :=
  { j with joyMsg := { j.joyMsg with buttons := resize 0 n j.joyMsg.buttons } }

def resizeAxis (j : Joy K) (n : ℕ) : Joy K :=
  { j with joyMsg := { j.joyMsg with axis := resize 0 n j.joyMsg.axis } }

def handleJoyDeviceRemoved (j : Joy K) (which : ℤ) : Joy K :=
  if which ≠ j.joystickInstanceId then j
  else { (j.resizeButtons 0).resizeAxis 0 with joystick := none }

variable [LinearOrder K]

def convertRawAxisValueToROS (val : BitVec 16) : K :=
  let val := if val.toInt = -32768 then -32767 else val.toInt
  let x : K := (val : K)
  (if unscaledDeadzone < x then x - unscaledDeadzone
    else if x < -unscaledDeadzone then x + unscaledDeadzone
    else 0) * scale

def handleJoyAxis (j : Joy K) (which : ℤ) (axis : ℕ) (value : BitVec 16) : Joy K :=
  if which ≠ j.joystickInstanceId then j
  else if axis ≥ j.joyMsg.axis.length then j
  else j.setAxis axis (convertRawAxisValueToROS value)

def loadInitialState (d : Device) (j : Joy K) : Joy K :=
  (List.range d.numAxes.toNat).foldl (fun j i =>
    match d.initialState i with
    | some state => j.setAxis i (convertRawAxisValueToROS state)
    | none => j) j

/-- A query that fails closes the device again; what was resized before stays so. -/
def handleJoyDeviceAdded (j : Joy K) (which : ℤ) (opened : Option Device) : Joy K :=
  if which ≠ devId then j
  else
    match opened with
    | none => { j with joystick := none }
    | some d =>
      let j := { j with joystick := some d, joystickInstanceId := d.instanceId }
      let closed (j : Joy K) : Joy K := { j with joystick := none }
      if d.instanceId < 0 then closed j
      else if d.numButtons < 0 then closed j
      else
        let j := j.resizeButtons d.numButtons.toNat
        if d.numAxes < 0 then closed j
        else if d.numHats < 0 then closed j
        else loadInitialState d (j.resizeAxis (d.numAxes + d.numHats * 2).toNat)

def handle (j : Joy K) : Event → Joy K
  | .axisMotion which axis value => j.handleJoyAxis which axis value
  | .buttonDown which button => j.handleJoyButtonDown which button
  | .buttonUp which button => j.handleJoyButtonUp which button
  | .hatMotion which hat value => j.handleJoyHatMotion which hat value
  | .deviceAdded which opened => j.handleJoyDeviceAdded which opened
  | .deviceRemoved which => j.handleJoyDeviceRemoved which
  | .other => j

end Joy
end MybipedalDeploy.JoyStick
