import Mathlib.Algebra.Field.Basic
import Mathlib.Algebra.Order.Floor.Defs
import MybipedalDeploy.JointDriver.CanFrame

/-!
# The Robstride actuator

Command writers compose the frame that goes into the send slot; the feedback
decoder reads the receive slot into cached fields and is run by every getter.
Physical quantities are exact values of `K`. A parameter written by
`WriteSetParamFloat` is copied bytewise, so it is kept as its 32-bit pattern.
The MIT parameter record is not modelled: no command or getter reads it.
-/

namespace MybipedalDeploy.JointDriver

inductive ActuatorType
  | robstride00 | robstride02 | robstride05 | unknown
  deriving DecidableEq, Repr

def stringToType (type : String) : ActuatorType :=
  if type = "Robstride_00" then .robstride00
  else if type = "Robstride_02" then .robstride02
  else if type = "Robstride_05" then .robstride05
  else .unknown

inductive ActuatorState
  | stateDisable | stateEnable | stateCalibration
  deriving DecidableEq, Repr

/-- An enumeration over `uint8_t`: any byte can be cast to it, the five below are defined. -/
structure ActuatorMode where
  byte : Byte
  deriving DecidableEq, Repr

namespace ActuatorMode
def modeMit : ActuatorMode := ⟨0⟩
def modePosition : ActuatorMode := ⟨1⟩
def modeVelocity : ActuatorMode := ⟨2⟩
def modeCurrent : ActuatorMode := ⟨3⟩
def modeZero : ActuatorMode := ⟨4⟩

def Defined (mode : ActuatorMode) : Prop := mode.byte.toNat < 5
instance (mode : ActuatorMode) : Decidable mode.Defined := inferInstanceAs (Decidable (_ < _))
end ActuatorMode

/-- Commands that go through `SendOnce`. -/
inductive OneShot
  | requestState (state : ActuatorState)
  | clearError
  | setHomingPosition
  | saveConfig
  | setMode (mode : ActuatorMode)
  deriving DecidableEq, Repr

inductive Periodic (K : Type*)
  | setMitCmd (pos vel effort kp kd : K)
  | setVelocity (vel : BitVec 32)
  | setPosition (pos : BitVec 32)
  | setEffort (cur : BitVec 32)
  deriving DecidableEq, Repr

structure Limits (K : Type*) where
  position : K
  velocity : K
  torque : K
  kp : K
  kd : K

structure RobstrideMotor (K : Type*) where
  type : ActuatorType
  name : String
  canId : Byte
  currentMode : ActuatorMode
  powerState : ActuatorState
  position : K
  velocity : K
  torque : K
  temperature : K
  errorFlags : Byte

structure Readings (K : Type*) where
  position : K
  velocity : K
  effort : K
  tempure : K
  powerState : ActuatorState
  errorString : String
  deriving DecidableEq

namespace RobstrideMotor

def commMitControl : Byte := 0x01
def commFeedback : Byte := 0x02
def commEnable : Byte := 0x03
def commStop : Byte := 0x04
def commSetZero : Byte := 0x06
def commSetParam : Byte := 0x12

def paramRunMode : BitVec 16 := 0x7005
def paramIqRef : BitVec 16 := 0x7006
def paramSpdRef : BitVec 16 := 0x700A
def paramLocRef : BitVec 16 := 0x7016

def masterId : BitVec 16 := 0x00FF

/-- Mode byte of the array `kModeMap`, whose entries are their own indices. -/
def kModeMap : List Byte := [0, 1, 2, 3, 4]

section Numeric
variable {K : Type*} [Field K]

def new (type : ActuatorType) (name : String) (canId : Byte) : RobstrideMotor K where
  type := type
  name := name
  canId := canId
  currentMode := .modeMit
  powerState := .stateDisable
  position := 0
  velocity := 0
  torque := 0
  temperature := 0
  errorFlags := 0

/-- `4.0f * static_cast<float>(M_PI)`, with the single-precision value of pi. -/
def positionMax : K := 4 * (13176795 / 4194304)

def getLimits (type : ActuatorType) : Limits K :=
  match type with
  | .robstride00 => ⟨positionMax, 33, 14, 500, 5⟩
  | .robstride02 => ⟨positionMax, 44, 17, 500, 5⟩
  | .robstride05 | .unknown => ⟨positionMax, 50, 6, 500, 5⟩

def uint16ToFloat (x : BitVec 16) (xMin xMax : K) : K :=
  xMin + (x.toNat : K) / 65535 * (xMax - xMin)

def floatToUint16 [LinearOrder K] [FloorSemiring K] (x xMin xMax : K) : BitVec 16 :=
  let x := if x < xMin then xMin else x
  let x := if x > xMax then xMax else x
  BitVec.ofNat 16 ⌊(x - xMin) / (xMax - xMin) * 65535⌋₊

end Numeric

section Writers
variable {K : Type*} (m : RobstrideMotor K)

def writeFrame (comm : Byte) (extra : BitVec 16) (data : Payload) : CanFrame :=
  ⟨CanFrame.composeId comm extra m.canId, data⟩

def writeSetParamFloat (index : BitVec 16) (value : BitVec 32) : CanFrame :=
  m.writeFrame commSetParam masterId
    #v[index.setWidth 8, (index >>> 8).setWidth 8, 0, 0,
      value.setWidth 8, (value >>> 8).setWidth 8, (value >>> 16).setWidth 8,
      (value >>> 24).setWidth 8]

def writeSetParamInt (index : BitVec 16) (value : Byte) : CanFrame :=
  m.writeFrame commSetParam masterId
    #v[index.setWidth 8, (index >>> 8).setWidth 8, 0, 0, value, 0, 0, 0]

def requestState (state : ActuatorState) : CanFrame :=
  if state = .stateEnable then m.writeFrame commEnable masterId #v[0, 0, 0, 0, 0, 0, 0, 0]
  else m.writeFrame commStop masterId #v[0, 0, 0, 0, 0, 0, 0, 0]

def clearError : CanFrame := m.writeFrame commStop masterId #v[1, 0, 0, 0, 0, 0, 0, 0]

def setHomingPosition : CanFrame := m.writeFrame commSetZero masterId #v[1, 0, 0, 0, 0, 0, 0, 0]

def saveConfig : CanFrame := CanFrame.zero

/-- An undefined mode leaves both the slot and the tracked mode alone. -/
def setMode (mode : ActuatorMode) (slot : CanFrame) : RobstrideMotor K × CanFrame :=
  match kModeMap[mode.byte.toNat]? with
  | none => (m, slot)
  | some runMode => ({ m with currentMode := mode }, m.writeSetParamInt paramRunMode runMode)

def oneShot (c : OneShot) (slot : CanFrame) : RobstrideMotor K × CanFrame :=
  match c with
  | .requestState state => (m, m.requestState state)
  | .clearError => (m, m.clearError)
  | .setHomingPosition => (m, m.setHomingPosition)
  | .saveConfig => (m, saveConfig)
  | .setMode mode => m.setMode mode slot

theorem oneShot_frame (c : OneShot) (slot : CanFrame) :
    ∃ mode, (m.oneShot c slot).1 = { m with currentMode := mode } := by
  cases c with
  | setMode mode =>
    simp only [oneShot, setMode]
    cases kModeMap[mode.byte.toNat]? with
    | none => exact ⟨m.currentMode, rfl⟩
    | some runMode => exact ⟨mode, rfl⟩
  | _ => exact ⟨m.currentMode, rfl⟩

def setVelocity (vel : BitVec 32) : CanFrame := m.writeSetParamFloat paramSpdRef vel
def setPosition (pos : BitVec 32) : CanFrame := m.writeSetParamFloat paramLocRef pos
def setEffort (cur : BitVec 32) : CanFrame := m.writeSetParamFloat paramIqRef cur

variable [Field K] [LinearOrder K] [FloorSemiring K]

def setMitCmd (pos vel effort kp kd : K) : CanFrame :=
  let lim : Limits K := getLimits m.type
  let toqU16 := floatToUint16 effort (-lim.torque) lim.torque
  let posU16 := floatToUint16 pos (-lim.position) lim.position
  let velU16 := floatToUint16 vel (-lim.velocity) lim.velocity
  let kpU16 := floatToUint16 kp 0 lim.kp
  let kdU16 := floatToUint16 kd 0 lim.kd
  m.writeFrame commMitControl toqU16
    #v[(posU16 >>> 8).setWidth 8, posU16.setWidth 8, (velU16 >>> 8).setWidth 8, velU16.setWidth 8,
      (kpU16 >>> 8).setWidth 8, kpU16.setWidth 8, (kdU16 >>> 8).setWidth 8, kdU16.setWidth 8]

def periodic (c : Periodic K) : CanFrame :=
  match c with
  | .setMitCmd pos vel effort kp kd => m.setMitCmd pos vel effort kp kd
  | .setVelocity vel => m.setVelocity vel
  | .setPosition pos => m.setPosition pos
  | .setEffort cur => m.setEffort cur

theorem periodic_frame (c : Periodic K) :
    ∃ comm extra data, comm < 0x20#8 ∧ m.periodic c = m.writeFrame comm extra data := by
  cases c with
  | setMitCmd => exact ⟨_, _, _, by decide, rfl⟩
  | _ => exact ⟨_, _, _, by decide, rfl⟩

theorem periodic_canId_ne_zero (c : Periodic K) : (m.periodic c).canId ≠ 0 := by
  obtain ⟨comm, extra, data, _, h⟩ := m.periodic_frame c
  rw [h]
  exact CanFrame.composeId_ne_zero comm extra m.canId

theorem periodic_motorId (c : Periodic K) : (m.periodic c).motorId = m.canId := by
  obtain ⟨comm, extra, data, _, h⟩ := m.periodic_frame c
  rw [h]
  exact CanFrame.composeId_motorId comm extra m.canId data

end Writers
end RobstrideMotor

namespace CanFrame

/-- The frames `ParseFeedback` decodes: extended, of communication type 0x02. -/
def isFeedback (f : CanFrame) : Bool := f.isEff && f.commType == RobstrideMotor.commFeedback

def statusMode (f : CanFrame) : Byte := (f.extra >>> 14).setWidth 8 &&& 0x03

def feedbackPower (f : CanFrame) : ActuatorState :=
  if f.statusMode = 2 then .stateEnable else .stateDisable

def beWord (hi lo : Byte) : BitVec 16 := hi.setWidth 16 <<< 8 ||| lo.setWidth 16

end CanFrame

namespace RobstrideMotor

section Feedback
variable {K : Type*} [Field K] (m : RobstrideMotor K)

def decodeFeedback (f : CanFrame) : RobstrideMotor K :=
  let lim : Limits K := getLimits m.type
  { m with
    errorFlags := (f.extra >>> 8).setWidth 8 &&& 0x3F
    powerState := f.feedbackPower
    position := uint16ToFloat (CanFrame.beWord f.data[0] f.data[1]) (-lim.position) lim.position
    velocity := uint16ToFloat (CanFrame.beWord f.data[2] f.data[3]) (-lim.velocity) lim.velocity
    torque := uint16ToFloat (CanFrame.beWord f.data[4] f.data[5]) (-lim.torque) lim.torque
    temperature := ((CanFrame.beWord f.data[6] f.data[7]).toNat : K) * (1 / 10) }

def runningFeedback : CanFrame := ⟨0x828001FD#32, #v[0x80, 0, 0x80, 0, 0x80, 0, 1, 0]⟩

def parseFeedback (slot : CanFrame) : RobstrideMotor K :=
  if slot.isFeedback then m.decodeFeedback slot else m

def errorNames : List (ℕ × String) :=
  [(5, "uncalibrated"), (4, "hall_encoder_fault"), (3, "magnetic_encoder_fault"),
    (2, "over_temperature"), (1, "over_current"), (0, "under_voltage")]

def errorString (flags : Byte) : String :=
  if flags = 0 then "OK"
  else " ".intercalate ((errorNames.filter fun e => flags.getLsbD e.1).map Prod.snd)

def readings : Readings K where
  position := m.position
  velocity := m.velocity
  effort := m.torque
  tempure := m.temperature
  powerState := m.powerState
  errorString := errorString m.errorFlags

end Feedback

section FeedbackLaws
variable {K : Type*} [Field K] (m : RobstrideMotor K) {f : CanFrame}

theorem parseFeedback_of_feedback (h : f.isFeedback = true) :
    m.parseFeedback f = m.decodeFeedback f := by
  simp [parseFeedback, h]

theorem parseFeedback_of_not (h : f.isFeedback = false) : m.parseFeedback f = m := by
  simp [parseFeedback, h]

theorem decodeFeedback_decodeFeedback (f g : CanFrame) :
    (m.decodeFeedback f).decodeFeedback g = m.decodeFeedback g := rfl

theorem parseFeedback_parseFeedback (f : CanFrame) :
    (m.parseFeedback f).parseFeedback f = m.parseFeedback f := by
  cases h : f.isFeedback with
  | true => simp [parseFeedback, h, decodeFeedback_decodeFeedback]
  | false => simp [parseFeedback, h]

theorem parseFeedback_powerState (f : CanFrame) :
    (m.parseFeedback f).powerState = if f.isFeedback then f.feedbackPower else m.powerState := by
  cases h : f.isFeedback <;> simp [parseFeedback, h, decodeFeedback]

@[simp] theorem parseFeedback_type (f : CanFrame) : (m.parseFeedback f).type = m.type := by
  cases h : f.isFeedback <;> simp [parseFeedback, h, decodeFeedback]

@[simp] theorem parseFeedback_canId (f : CanFrame) : (m.parseFeedback f).canId = m.canId := by
  cases h : f.isFeedback <;> simp [parseFeedback, h, decodeFeedback]

@[simp] theorem parseFeedback_zero : m.parseFeedback CanFrame.zero = m :=
  parseFeedback_of_not m (by decide)

end FeedbackLaws
end RobstrideMotor
end MybipedalDeploy.JointDriver
