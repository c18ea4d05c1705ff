import Mathlib.Data.Fintype.Pi
import Mathlib.Data.Vector.Basic
import Mathlib.Tactic.IntervalCases
import MybipedalDeploy.Library.SlotBuffer

/-!
# Extended CAN frames

`CanFrame` is the packed twelve-byte record the actuators write: the 29-bit
identifier with the flags of the Linux CAN interface, then the payload. The
bit fields are those of the protocol notes: the communication type in bits
[28:24], the extra data in [23:8], the motor of a command in [7:0]; a feedback
frame carries its motor in [15:8].
-/

namespace MybipedalDeploy.JointDriver
open SlotBuffer (Codec Buffer)

abbrev Byte := BitVec 8
abbrev Payload := Vector Byte 8

def Payload.ofHead (b : Byte) : Payload := #v[b, 0, 0, 0, 0, 0, 0, 0]

structure CanFrame where
  canId : BitVec 32
  data : Payload
  deriving DecidableEq, Repr

def canEffFlag : BitVec 32 := 0x80000000#32
def canEffMask : BitVec 32 := 0x1FFFFFFF#32

namespace CanFrame

/-- The all-zero record; its identifier marks the slot as empty. -/
def zero : CanFrame := ⟨0, Vector.replicate 8 0⟩

def flags (f : CanFrame) : BitVec 3 := (f.canId >>> 29).setWidth 3
def isEff (f : CanFrame) : Bool := f.canId &&& canEffFlag != 0
def idVal (f : CanFrame) : BitVec 32 := f.canId &&& canEffMask
def commType (f : CanFrame) : Byte := ((f.idVal >>> 24) &&& 0xFF#32).setWidth 8
def extra (f : CanFrame) : BitVec 16 := ((f.idVal >>> 8) &&& 0xFFFF#32).setWidth 16
def motorId (f : CanFrame) : Byte := f.canId.setWidth 8

/-- The dispatch key of the receiver thread, `CanCbkId` being sixteen bits wide. -/
def keyExtractor (f : CanFrame) : BitVec 16 := ((f.canId >>> 8) &&& 0xFF#32).setWidth 16

/-- Memory layout of the packed record on the little-endian targets. -/
def toBytes (f : CanFrame) (k : Fin 12) : Byte :=
  if h : k.val < 4 then (f.canId >>> (8 * k.val)).setWidth 8
  else f.data[k.val - 4]

def ofBytes (b : Fin 12 → Byte) : CanFrame where
  canId := b 3 ++ b 2 ++ b 1 ++ b 0
  data := Vector.ofFn fun i => b ⟨i.val + 4, by omega⟩

theorem word_of_bytes (x : BitVec 32) :
    ((x >>> 24).setWidth 8 ++ (x >>> 16).setWidth 8 ++ (x >>> 8).setWidth 8 ++ x.setWidth 8 :
      BitVec 32) = x := by
  apply BitVec.eq_of_getLsbD_eq
  intro i hi
  simp only [BitVec.getLsbD_append, BitVec.getLsbD_setWidth, BitVec.getLsbD_ushiftRight]
  grind

theorem ofBytes_toBytes (f : CanFrame) : ofBytes f.toBytes = f := by
  obtain ⟨canId, data⟩ := f
  simp only [ofBytes, toBytes, mk.injEq]
  constructor
  · simpa using word_of_bytes canId
  · apply Vector.ext
    intro i hi
    simp

def codec : Codec CanFrame Byte 12 := ⟨toBytes, ofBytes, ofBytes_toBytes⟩

theorem codec_read_fill_zero {m : ℕ} (i : Fin m) : codec.read (m := m) (fun _ => 0) i = zero := by
  rw [Codec.read_fill]
  decide

/-- The identifier `WriteFrame` composes: flag, type, extra data and motor. -/
def composeId (comm : Byte) (extra : BitVec 16) (id : Byte) : BitVec 32 :=
  (comm.setWidth 32 <<< 24) ||| (extra.setWidth 32 <<< 8) ||| id.setWidth 32 ||| canEffFlag

section Fields
variable (comm : Byte) (extra : BitVec 16) (id : Byte) (data : Payload)

theorem composeId_isEff : isEff ⟨composeId comm extra id, data⟩ = true := by
  have hbit : (composeId comm extra id &&& canEffFlag).getLsbD 31 = true := by
    simp [composeId, canEffFlag]
  simp only [isEff, bne_iff_ne, ne_eq]
  intro hz
  simp [hz] at hbit

theorem composeId_ne_zero : composeId comm extra id ≠ 0 := by
  have h := composeId_isEff comm extra id (Vector.replicate 8 0)
  intro hz
  simp [isEff, hz] at h

theorem composeId_motorId : motorId ⟨composeId comm extra id, data⟩ = id := by
  apply BitVec.eq_of_getLsbD_eq
  intro i hi
  simp only [motorId, composeId, canEffFlag, BitVec.getLsbD_setWidth, BitVec.getLsbD_or,
    BitVec.getLsbD_shiftLeft]
  interval_cases i <;> simp

theorem composeId_extra : CanFrame.extra ⟨composeId comm extra id, data⟩ = extra := by
  apply BitVec.eq_of_getLsbD_eq
  intro i hi
  simp only [CanFrame.extra, idVal, composeId, canEffFlag, canEffMask, BitVec.getLsbD_setWidth,
    BitVec.getLsbD_or, BitVec.getLsbD_and, BitVec.getLsbD_shiftLeft, BitVec.getLsbD_ushiftRight]
  interval_cases i <;> simp

theorem bit_eq_false_of_lt {comm : Byte} (hcomm : comm < 0x20#8) (i : ℕ) (_ : i < 8)
    (hi : 5 ≤ i) : comm[i] = false := by
  have h32 : comm.toNat < 2 ^ 5 := hcomm
  have hlt : comm.toNat < 2 ^ i := h32.trans_le (Nat.pow_le_pow_right (by decide) hi)
  exact Nat.testBit_lt_two_pow hlt

/-- The three top bits of the type fall on the flag bits and are not read back. -/
theorem composeId_commType (hcomm : comm < 0x20#8) :
    commType ⟨composeId comm extra id, data⟩ = comm := by
  have hhigh := bit_eq_false_of_lt hcomm
  apply BitVec.eq_of_getLsbD_eq
  intro i hi
  simp only [commType, idVal, composeId, canEffFlag, canEffMask, BitVec.getLsbD_setWidth,
    BitVec.getLsbD_or, BitVec.getLsbD_and, BitVec.getLsbD_shiftLeft, BitVec.getLsbD_ushiftRight]
  interval_cases i <;> simp [hhigh]

theorem composeId_flags (hcomm : comm < 0x20#8) :
    flags ⟨composeId comm extra id, data⟩ = 0b100#3 := by
  have hhigh := bit_eq_false_of_lt hcomm
  apply BitVec.eq_of_getLsbD_eq
  intro i hi
  simp only [flags, composeId, canEffFlag, BitVec.getLsbD_setWidth, BitVec.getLsbD_or,
    BitVec.getLsbD_shiftLeft, BitVec.getLsbD_ushiftRight]
  interval_cases i <;> simp [hhigh]

end Fields

structure Fields where
  flags : BitVec 3
  commType : Byte
  extra : BitVec 16
  motorId : Byte
  data : Payload
  deriving DecidableEq

def fields (f : CanFrame) : Fields := ⟨f.flags, f.commType, f.extra, f.motorId, f.data⟩

theorem composeId_fields (comm : Byte) (extra : BitVec 16) (id : Byte) (data : Payload)
    (hcomm : comm < 0x20#8) :
    fields ⟨composeId comm extra id, data⟩ = ⟨0b100#3, comm, extra, id, data⟩ := by
  simp only [fields, composeId_flags _ _ _ _ hcomm, composeId_commType _ _ _ _ hcomm,
    composeId_extra, composeId_motorId]

end CanFrame
end MybipedalDeploy.JointDriver
