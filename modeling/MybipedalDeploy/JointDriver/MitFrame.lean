import Mathlib.Algebra.Order.Ring.Rat
import Mathlib.Data.Rat.Floor
import MybipedalDeploy.JointDriver.RobstrideMotor
import MybipedalDeploy.Library.Quantizer

/-!
# The MIT command on the wire

The five quantities of a command, each in steps of its range, decoded by the layout
of the protocol notes: the torque from the identifier, the others from big-endian
words of the payload.
-/

namespace MybipedalDeploy.JointDriver
open Clamp (clamp)
open Quantizer (encode decode)

inductive Quantity
  | position | velocity | effort | kp | kd
  deriving DecidableEq

structure Range (K : Type*) where
  lower : K
  upper : K

def Limits.range {K : Type*} [Field K] (lim : Limits K) : Quantity → Range K
  | .position => ⟨-lim.position, lim.position⟩
  | .velocity => ⟨-lim.velocity, lim.velocity⟩
  | .effort => ⟨-lim.torque, lim.torque⟩
  | .kp => ⟨0, lim.kp⟩
  | .kd => ⟨0, lim.kd⟩

namespace CanFrame

def mitWord (f : CanFrame) : Quantity → BitVec 16
  | .position => beWord (f.data.get 0) (f.data.get 1)
  | .velocity => beWord (f.data.get 2) (f.data.get 3)
  | .effort => f.extra
  | .kp => beWord (f.data.get 4) (f.data.get 5)
  | .kd => beWord (f.data.get 6) (f.data.get 7)

theorem beWord_bytes (x : BitVec 16) : beWord ((x >>> 8).setWidth 8) (x.setWidth 8) = x := by
  apply BitVec.eq_of_getLsbD_eq
  intro i hi
  simp only [beWord, BitVec.getLsbD_or, BitVec.getLsbD_shiftLeft, BitVec.getLsbD_setWidth,
    BitVec.getLsbD_ushiftRight]
  grind

end CanFrame

namespace RobstrideMotor
variable {K : Type*} [Field K]

theorem range_lt [LinearOrder K] [IsStrictOrderedRing K] (type : ActuatorType) (q : Quantity) :
    ((getLimits type : Limits K).range q).lower < ((getLimits type : Limits K).range q).upper := by
  have hposition : (0 : K) < positionMax := by norm_num [positionMax]
  cases type <;> cases q <;> simp only [getLimits, Limits.range] <;> linarith

def decodeMit (m : RobstrideMotor K) (f : CanFrame) (q : Quantity) : K :=
  let r := (getLimits m.type : Limits K).range q
  uint16ToFloat (f.mitWord q) r.lower r.upper

variable [LinearOrder K] [FloorSemiring K]

def setMit (m : RobstrideMotor K) (c : Quantity → K) : CanFrame :=
  m.setMitCmd (c .position) (c .velocity) (c .effort) (c .kp) (c .kd)

theorem mitWord_setMit (m : RobstrideMotor K) (c : Quantity → K) (q : Quantity) :
    (m.setMit c).mitWord q = floatToUint16 (c q) ((getLimits m.type : Limits K).range q).lower
      ((getLimits m.type : Limits K).range q).upper := by
  cases q with
  | effort => exact CanFrame.composeId_extra _ _ _ _
  | _ => exact CanFrame.beWord_bytes _

variable [IsStrictOrderedRing K]

theorem floatToUint16_toNat {x lo hi : K} (h : lo < hi) :
    (floatToUint16 x lo hi).toNat = encode 65535 lo hi x := by
  have hclamp : (let x := if x < lo then lo else x; if x > hi then hi else x) = clamp lo hi x := by
    unfold clamp
    grind
  have hle : encode 65535 lo hi x ≤ 65535 := Quantizer.encode_le h
  have hword : floatToUint16 x lo hi = BitVec.ofNat 16 (encode 65535 lo hi x) := by
    unfold floatToUint16 encode
    rw [← hclamp]
    norm_num
  rw [hword, BitVec.toNat_ofNat, Nat.mod_eq_of_lt (by omega)]

theorem decodeMit_setMit (m : RobstrideMotor K) (c : Quantity → K) (q : Quantity) :
    let r := (getLimits m.type : Limits K).range q
    m.decodeMit (m.setMit c) q = decode 65535 r.lower r.upper (encode 65535 r.lower r.upper (c q)) := by
  simp only [decodeMit, mitWord_setMit, uint16ToFloat, decode,
    floatToUint16_toNat (range_lt m.type q)]
  norm_num

/-- Every quantity comes back less than a step below the command, cut to its range,
and depends on its own command alone. -/
theorem mit_round_trip (m : RobstrideMotor K) (c : Quantity → K) :
    (m.setMit c).commType = commMitControl ∧ (m.setMit c).motorId = m.canId ∧
    (m.setMit c).flags = 0b100#3 ∧
    ∀ q, let r := (getLimits m.type : Limits K).range q
      clamp r.lower r.upper (c q) - (r.upper - r.lower) / 65535 < m.decodeMit (m.setMit c) q ∧
      m.decodeMit (m.setMit c) q ≤ clamp r.lower r.upper (c q) ∧
      ∀ c', c q ≤ c' q → m.decodeMit (m.setMit c) q ≤ m.decodeMit (m.setMit c') q := by
  refine ⟨CanFrame.composeId_commType _ _ _ _ (by decide), CanFrame.composeId_motorId _ _ _ _,
    CanFrame.composeId_flags _ _ _ _ (by decide), fun q => ?_⟩
  have hrange := range_lt (K := K) m.type q
  simp only [decodeMit_setMit]
  refine ⟨?_, Quantizer.decode_encode_le hrange (by decide), fun c' hc => ?_⟩
  · have hstep := Quantizer.lt_decode_encode (n := 65535) (x := c q) hrange (by decide)
    norm_num at hstep ⊢
    exact hstep
  · exact Quantizer.decode_mono hrange (Quantizer.encode_mono hrange hc)

theorem mit_round_trip_gain :
    let m : RobstrideMotor ℚ := .new .robstride02 "knee_left" 1
    100 - 500 / 65535 < m.decodeMit (m.setMit fun _ => 100) .kp ∧
      m.decodeMit (m.setMit fun _ => 100) .kp ≤ 100 := by
  intro m
  have hgain := (mit_round_trip m fun _ => 100).2.2.2 .kp
  have hclamp : clamp (0 : ℚ) 500 100 = 100 := Clamp.clamp_eq_self (by norm_num) (by norm_num)
  simp only [m, new, getLimits, Limits.range, hclamp, sub_zero] at hgain
  exact ⟨hgain.1, hgain.2.1⟩

end RobstrideMotor
end MybipedalDeploy.JointDriver
