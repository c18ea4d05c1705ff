import MybipedalDeploy.Imu.ImuDriver
import MybipedalDeploy.Library.XorLinear

/-!
# Bursts and the frame check

The table is the one of CRC-16 (CCITT), which goes with a shift of the register by eight
bits. With the shift by one bit the register keeps what the bytes of a burst did to it
only in part, and some bursts cancel themselves.
-/

namespace MybipedalDeploy.Imu
open XorLinear (Additive)

def crc16Entry (b : Byte) : BitVec 16 :=
  let x := (b ^^^ b >>> 4).setWidth 16
  x <<< 12 ^^^ x <<< 5 ^^^ x

theorem crc16Table_eq (b : Byte) : crc16Table.getD b.toNat 0 = crc16Entry b := by
  revert b
  decide +kernel

theorem crc16Entry_additive : Additive crc16Entry := by
  have hx : Additive fun b : Byte => (b ^^^ b >>> 4).setWidth 16 :=
    (Additive.id.xor (Additive.id.ushiftRight 4)).setWidth 16
  exact ((hx.shiftLeft 12).xor (hx.shiftLeft 5)).xor hx

def crc16Shift (crc : BitVec 16) : BitVec 16 := crc <<< 1 ^^^ crc16Entry ((crc >>> 8).setWidth 8)

theorem crc16Shift_additive : Additive crc16Shift :=
  (Additive.id.shiftLeft 1).xor (crc16Entry_additive.comp ((Additive.id.ushiftRight 8).setWidth 8))

theorem crc16Step_eq (crc : BitVec 16) (byte : Byte) :
    crc16Step crc byte = crc16Shift crc ^^^ crc16Entry byte := by
  have hindex : ((crc >>> 8) ^^^ byte.setWidth 16).setWidth 8 =
      (crc >>> 8).setWidth 8 ^^^ byte := by
    rw [BitVec.setWidth_xor, BitVec.setWidth_setWidth_of_le _ (by decide), BitVec.setWidth_eq]
  rw [crc16Step, crc16Table_eq, hindex, crc16Entry_additive, crc16Shift, BitVec.xor_assoc]

theorem crc16_foldl_xor (m m' : List Byte) (c c' : BitVec 16) (h : m.length = m'.length) :
    m.foldl crc16Step c ^^^ m'.foldl crc16Step c' =
      (List.zipWith (· ^^^ ·) m m').foldl crc16Step (c ^^^ c') := by
  induction m generalizing m' c c' with
  | nil =>
    obtain rfl := List.length_eq_zero_iff.mp h.symm
    rfl
  | cons b m ih =>
    cases m' with
    | nil => cases h
    | cons b' m' =>
      simp only [List.foldl_cons, List.zipWith_cons_cons]
      rw [ih m' _ _ (Nat.succ.inj h)]
      congr 1
      rw [crc16Step_eq, crc16Step_eq, crc16Step_eq, crc16Shift_additive, crc16Entry_additive]
      ac_rfl

theorem foldl_zeros (k : ℕ) (c : BitVec 16) :
    (List.replicate k 0).foldl crc16Step c = crc16Shift^[k] c := by
  induction k generalizing c with
  | zero => rfl
  | succ k ih =>
    rw [List.replicate_succ, List.foldl_cons, ih, Function.iterate_succ_apply, crc16Step_eq,
      crc16Entry_additive.map_zero]
    exact congrArg _ BitVec.xor_zero

section Register

/-- The byte that undoes, one byte later, what a byte below 128 did. -/
def echo (e : Byte) : Byte := (e ^^^ e >>> 4) <<< 1 ^^^ (e ^^^ e >>> 4) <<< 4

def carried (once twice : Bool) : BitVec 16 :=
  (if once then 0x3331 else 0) ^^^ if twice then 0x6052 else 0

theorem crc16Shift_entry (e : Byte) :
    crc16Shift (crc16Entry e) = crc16Entry (echo e) ^^^ carried e.msb false := by
  revert e
  decide +kernel

theorem crc16Shift_carried (p : Bool) : crc16Shift (carried p false) = carried false p := by
  cases p <;> decide +kernel

theorem carried_visible : ∀ (y : Byte) (p q : Bool),
    crc16Shift (crc16Shift (crc16Entry y ^^^ carried p q)) = 0 → y = 0 ∧ p = false ∧ q = false := by
  decide +kernel

theorem crc16Shift_two (c : BitVec 16) :
    crc16Shift^[2] c = crc16Shift^[9] c ^^^ crc16Shift^[12] c ^^^ crc16Shift^[16] c := by
  have hiter := fun k => crc16Shift_additive.iterate k
  refine XorLinear.Additive.ext (hiter 2) (((hiter 9).xor (hiter 12)).xor (hiter 16)) ?_ c
  decide +kernel

def register (e₁ e₂ e₃ : Byte) : BitVec 16 := [e₁, e₂, e₃].foldl crc16Step 0

/-- Three bytes that the register does not notice: the second and the third undo what the
bytes before them did, and nothing is carried. -/
def Unseen (e₁ e₂ e₃ : Byte) : Prop :=
  e₁ < 128 ∧ e₂ ^^^ echo e₁ < 128 ∧ e₃ = echo (e₂ ^^^ echo e₁)

instance (e₁ e₂ e₃ : Byte) : Decidable (Unseen e₁ e₂ e₃) := inferInstanceAs (Decidable (_ ∧ _ ∧ _))

theorem carried_xor (p q p' q' : Bool) :
    carried p q ^^^ carried p' q' = carried (p ^^ p') (q ^^ q') := by
  cases p <;> cases q <;> cases p' <;> cases q' <;> rfl

theorem register_eq (e₁ e₂ e₃ : Byte) :
    register e₁ e₂ e₃ = crc16Entry (e₃ ^^^ echo (e₂ ^^^ echo e₁)) ^^^
      carried (e₂ ^^^ echo e₁).msb e₁.msb := by
  have hfirst : crc16Step 0 e₁ = crc16Entry e₁ := by
    rw [crc16Step_eq, crc16Shift_additive.map_zero]
    exact BitVec.zero_xor
  have hsecond : crc16Step (crc16Entry e₁) e₂ =
      crc16Entry (e₂ ^^^ echo e₁) ^^^ carried e₁.msb false := by
    rw [crc16Step_eq, crc16Shift_entry, crc16Entry_additive]
    ac_rfl
  have hthird : crc16Step (crc16Entry (e₂ ^^^ echo e₁) ^^^ carried e₁.msb false) e₃ =
      crc16Entry (e₃ ^^^ echo (e₂ ^^^ echo e₁)) ^^^
        (carried (e₂ ^^^ echo e₁).msb false ^^^ carried false e₁.msb) := by
    rw [crc16Step_eq, crc16Shift_additive, crc16Shift_entry, crc16Shift_carried,
      crc16Entry_additive]
    ac_rfl
  simp only [register, List.foldl_cons, List.foldl_nil, hfirst, hsecond, hthird, carried_xor,
    Bool.xor_false, Bool.false_xor]

theorem iterate_shift_zero (k : ℕ) : crc16Shift^[k] 0 = 0 :=
  (crc16Shift_additive.iterate k).map_zero

theorem iterate_zero_of_le {c : BitVec 16} {k j : ℕ} (h : crc16Shift^[k] c = 0) (hkj : k ≤ j) :
    crc16Shift^[j] c = 0 := by
  obtain ⟨i, rfl⟩ := Nat.exists_eq_add_of_le' hkj
  rw [Function.iterate_add_apply, h, iterate_shift_zero]

/-- What dies out does so within two bytes. -/
theorem two_of_iterate_zero {c : BitVec 16} {k : ℕ} (h : crc16Shift^[k] c = 0) :
    crc16Shift^[2] c = 0 := by
  induction k with
  | zero => exact iterate_zero_of_le h (by omega)
  | succ k ih =>
    rcases Nat.lt_or_ge k 2 with hlt | hge
    · exact iterate_zero_of_le h (by omega)
    · obtain ⟨i, rfl⟩ := Nat.exists_eq_add_of_le' hge
      have hthree : crc16Shift^[3] (crc16Shift^[i] c) = 0 := by
        rw [← Function.iterate_add_apply, Nat.add_comm]
        exact h
      -- the three terms are later values of a register that is zero
      refine ih ?_
      rw [Nat.add_comm, Function.iterate_add_apply, crc16Shift_two,
        iterate_zero_of_le hthree (by omega : 3 ≤ 9), iterate_zero_of_le hthree (by omega : 3 ≤ 12),
        iterate_zero_of_le hthree (by omega : 3 ≤ 16)]
      rfl

theorem iterate_register_eq_zero (k : ℕ) (e₁ e₂ e₃ : Byte) :
    crc16Shift^[k] (register e₁ e₂ e₃) = 0 ↔ Unseen e₁ e₂ e₃ := by
  have hmsb : ∀ e : Byte, e.msb = false ↔ e < 128 := by decide +kernel
  constructor
  · intro h
    have htwo := two_of_iterate_zero h
    rw [register_eq] at htwo
    obtain ⟨hlast, hsecond, hfirst⟩ := carried_visible _ _ _ htwo
    exact ⟨(hmsb _).mp hfirst, (hmsb _).mp hsecond, BitVec.xor_eq_zero_iff.mp hlast⟩
  · rintro ⟨hfirst, hsecond, hlast⟩
    rw [register_eq, (hmsb _).mpr hfirst, (hmsb _).mpr hsecond, hlast, BitVec.xor_self]
    exact iterate_shift_zero k

end Register
end MybipedalDeploy.Imu
