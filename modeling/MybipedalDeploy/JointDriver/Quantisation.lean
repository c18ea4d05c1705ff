import MybipedalDeploy.JointDriver.MitFrame

/-!
# Codes of sixteen bits

The quantiser and its inverse, over any range. A code survives the way through a number,
so that what was decoded once is sent again as the same bits.
-/

namespace MybipedalDeploy.JointDriver.RobstrideMotor
open Clamp (clamp)
open Quantizer (encode decode)

variable {K : Type*} [Field K]

theorem uint16ToFloat_eq (c : BitVec 16) (xMin xMax : K) :
    uint16ToFloat c xMin xMax = decode 65535 xMin xMax c.toNat := by
  rw [uint16ToFloat, decode, Nat.cast_ofNat]

variable [LinearOrder K]

def scaled (x xMin xMax : K) : K := (clamp xMin xMax x - xMin) / (xMax - xMin) * ((65535 : ℕ) : K)

theorem scaled_mem [IsStrictOrderedRing K] {xMin xMax : K} (h : xMin < xMax) (x : K) :
    0 ≤ scaled x xMin xMax ∧ scaled x xMin xMax ≤ ((65535 : ℕ) : K) := by
  obtain ⟨hnonneg, hle⟩ := Quantizer.share_mem (x := x) h
  exact ⟨mul_nonneg hnonneg (Nat.cast_nonneg _), mul_le_of_le_one_left (Nat.cast_nonneg _) hle⟩

variable [FloorSemiring K]

def requantised (x xMin xMax : K) : K := uint16ToFloat (floatToUint16 x xMin xMax) xMin xMax

theorem floor_scaled (x xMin xMax : K) : ⌊scaled x xMin xMax⌋₊ = encode 65535 xMin xMax x := rfl

variable [IsStrictOrderedRing K] {xMin xMax : K}

theorem floatToUint16_uint16ToFloat (h : xMin < xMax) (c : BitVec 16) :
    floatToUint16 (uint16ToFloat c xMin xMax) xMin xMax = c := by
  have hc : c.toNat ≤ 65535 := Nat.le_of_lt_succ c.isLt
  apply BitVec.eq_of_toNat_eq
  rw [floatToUint16_toNat h, uint16ToFloat_eq, Quantizer.encode_decode h (by decide) hc]

/-- The quantiser and its inverse, for every range: no code is lost, the codes are in the
order of the numbers and end with the range, the cast never leaves sixteen bits, and
another pass changes nothing. -/
theorem quantiser_sound (h : xMin < xMax) :
    (∀ c, floatToUint16 (uint16ToFloat c xMin xMax) xMin xMax = c) ∧
    (∀ x y, x ≤ y → floatToUint16 x xMin xMax ≤ floatToUint16 y xMin xMax) ∧
    (∀ x, x ≤ xMin → floatToUint16 x xMin xMax = 0) ∧
    (∀ x, xMax ≤ x → floatToUint16 x xMin xMax = 65535) ∧
    (∀ x, (0 ≤ scaled x xMin xMax ∧ scaled x xMin xMax ≤ ((65535 : ℕ) : K)) ∧
      (floatToUint16 x xMin xMax).toNat = ⌊scaled x xMin xMax⌋₊) ∧
    ∀ x, requantised (requantised x xMin xMax) xMin xMax = requantised x xMin xMax := by
  refine ⟨floatToUint16_uint16ToFloat h, fun x y hxy => ?_, fun x hx => ?_, fun x hx => ?_,
    fun x => ⟨scaled_mem h x, ?_⟩, fun x => ?_⟩
  · rw [BitVec.le_def, floatToUint16_toNat h, floatToUint16_toNat h]
    exact Quantizer.encode_mono h hxy
  · apply BitVec.eq_of_toNat_eq
    rw [floatToUint16_toNat h, Quantizer.encode_of_le hx]
    rfl
  · apply BitVec.eq_of_toNat_eq
    rw [floatToUint16_toNat h, Quantizer.encode_of_ge h hx]
    rfl
  · rw [floatToUint16_toNat h, floor_scaled]
  · rw [requantised, requantised, floatToUint16_uint16ToFloat h]

theorem quantiser_sound_torque :
    floatToUint16 (uint16ToFloat 0x7FFF (-17 : ℚ) 17) (-17) 17 = 0x7FFF :=
  (quantiser_sound (by norm_num)).1 0x7FFF

theorem mitWord_setMit_decodeMit (m : RobstrideMotor K) (f : CanFrame) (q : Quantity) :
    (m.setMit (m.decodeMit f)).mitWord q = f.mitWord q := by
  rw [mitWord_setMit]
  exact floatToUint16_uint16ToFloat (range_lt m.type q) (f.mitWord q)

end MybipedalDeploy.JointDriver.RobstrideMotor
