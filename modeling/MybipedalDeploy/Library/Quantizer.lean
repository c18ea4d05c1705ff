import Mathlib.Algebra.Order.Field.Basic
import Mathlib.Algebra.Order.Floor.Semiring
import Mathlib.Tactic.Linarith
import MybipedalDeploy.Library.Clamp

/-!
# Numbers in steps of a range

A number is cut to a range and sent as the count of whole steps above its lower end.
What is read back lies less than a step below the cut number.
-/

namespace MybipedalDeploy.Quantizer

open Clamp (clamp)
variable {K : Type*} [Field K] [LinearOrder K] {n : ℕ} {lo hi x y : K}

theorem share_mem [IsStrictOrderedRing K] (h : lo < hi) :
    0 ≤ (clamp lo hi x - lo) / (hi - lo) ∧ (clamp lo hi x - lo) / (hi - lo) ≤ 1 := by
  have hwidth : 0 < hi - lo := sub_pos.mpr h
  exact ⟨div_nonneg (sub_nonneg.mpr Clamp.le_clamp) hwidth.le,
    (div_le_one hwidth).mpr (sub_le_sub_right (Clamp.clamp_le h.le) lo)⟩

variable [FloorSemiring K]

def decode (n : ℕ) (lo hi : K) (k : ℕ) : K := lo + (k : K) / n * (hi - lo)

def encode (n : ℕ) (lo hi x : K) : ℕ := ⌊(clamp lo hi x - lo) / (hi - lo) * n⌋₊

variable [IsStrictOrderedRing K]

theorem encode_le (h : lo < hi) : encode n lo hi x ≤ n :=
  Nat.floor_le_of_le (mul_le_of_le_one_left n.cast_nonneg (share_mem h).2)

theorem encode_mono (h : lo < hi) (hxy : x ≤ y) : encode n lo hi x ≤ encode n lo hi y := by
  have hwidth : 0 ≤ hi - lo := (sub_pos.mpr h).le
  refine Nat.floor_mono (mul_le_mul_of_nonneg_right ?_ n.cast_nonneg)
  exact div_le_div_of_nonneg_right (sub_le_sub_right (Clamp.clamp_mono hxy) lo) hwidth

theorem decode_mono (h : lo < hi) {k l : ℕ} (hkl : k ≤ l) : decode n lo hi k ≤ decode n lo hi l := by
  have hwidth : 0 ≤ hi - lo := (sub_pos.mpr h).le
  have hcast : (k : K) ≤ l := Nat.cast_le.mpr hkl
  have hshare := div_le_div_of_nonneg_right hcast (Nat.cast_nonneg (α := K) n)
  exact add_le_add_right (mul_le_mul_of_nonneg_right hshare hwidth) lo

theorem decode_encode_le (h : lo < hi) (hn : 0 < n) :
    decode n lo hi (encode n lo hi x) ≤ clamp lo hi x := by
  have hwidth : 0 < hi - lo := sub_pos.mpr h
  have hn : (0 : K) < n := Nat.cast_pos.mpr hn
  have hnonneg : 0 ≤ (clamp lo hi x - lo) / (hi - lo) * n :=
    mul_nonneg (share_mem h).1 hn.le
  have hfloor : (encode n lo hi x : K) / n ≤ (clamp lo hi x - lo) / (hi - lo) :=
    (div_le_iff₀ hn).mpr (Nat.floor_le hnonneg)
  have hscaled := mul_le_mul_of_nonneg_right hfloor hwidth.le
  rw [div_mul_cancel₀ _ hwidth.ne'] at hscaled
  unfold decode
  linarith

theorem lt_decode_encode (h : lo < hi) (hn : 0 < n) :
    clamp lo hi x - (hi - lo) / n < decode n lo hi (encode n lo hi x) := by
  have hwidth : 0 < hi - lo := sub_pos.mpr h
  have hn : (0 : K) < n := Nat.cast_pos.mpr hn
  have hfloor : (clamp lo hi x - lo) / (hi - lo) < ((encode n lo hi x : K) + 1) / n :=
    (lt_div_iff₀ hn).mpr (Nat.lt_floor_add_one _)
  have hscaled := mul_lt_mul_of_pos_right hfloor hwidth
  rw [div_mul_cancel₀ _ hwidth.ne', add_div, add_mul, one_div, inv_mul_eq_div] at hscaled
  unfold decode
  linarith

theorem decode_mem (h : lo < hi) (hn : 0 < n) {k : ℕ} (hk : k ≤ n) :
    lo ≤ decode n lo hi k ∧ decode n lo hi k ≤ hi := by
  have hwidth : 0 < hi - lo := sub_pos.mpr h
  have hn : (0 : K) < n := Nat.cast_pos.mpr hn
  have hcast : (k : K) ≤ n := Nat.cast_le.mpr hk
  have hshare : (k : K) / n * (hi - lo) ≤ hi - lo :=
    mul_le_of_le_one_left hwidth.le ((div_le_one hn).mpr hcast)
  have hnonneg : 0 ≤ (k : K) / n * (hi - lo) :=
    mul_nonneg (div_nonneg k.cast_nonneg hn.le) hwidth.le
  unfold decode
  exact ⟨by linarith, by linarith⟩

theorem encode_decode (h : lo < hi) (hn : 0 < n) {k : ℕ} (hk : k ≤ n) :
    encode n lo hi (decode n lo hi k) = k := by
  have hwidth : hi - lo ≠ 0 := (sub_pos.mpr h).ne'
  have hn' : (n : K) ≠ 0 := (Nat.cast_pos.mpr hn).ne'
  obtain ⟨hlo, hhi⟩ := decode_mem h hn hk
  rw [encode, Clamp.clamp_eq_self hlo hhi, decode, add_sub_cancel_left,
    mul_div_cancel_right₀ _ hwidth, div_mul_cancel₀ _ hn', Nat.floor_natCast]

theorem encode_of_le (h : x ≤ lo) : encode n lo hi x = 0 := by
  rw [encode, Clamp.clamp_of_le h, sub_self, zero_div, zero_mul, Nat.floor_zero]

theorem encode_of_ge (h : lo < hi) (hx : hi ≤ x) : encode n lo hi x = n := by
  have hwidth : hi - lo ≠ 0 := (sub_pos.mpr h).ne'
  rw [encode, Clamp.clamp_of_ge h.le hx, div_self hwidth, one_mul, Nat.floor_natCast]

end MybipedalDeploy.Quantizer
