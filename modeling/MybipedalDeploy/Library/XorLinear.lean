import Mathlib.Logic.Function.Iterate
import Mathlib.Tactic.SplitIfs

/-!
# Maps of bit vectors that are linear in exclusive or

Such a map is known by its values on the vectors with one bit, so that an equation
between two of them is a matter of so many evaluations.
-/

namespace MybipedalDeploy.XorLinear

variable {l m n : ℕ}

def Additive (f : BitVec m → BitVec n) : Prop := ∀ a b, f (a ^^^ b) = f a ^^^ f b

namespace Additive
variable {f g : BitVec m → BitVec n}

theorem map_zero (hf : Additive f) : f 0 = 0 := by
  have h := hf 0 0
  rwa [BitVec.xor_self, BitVec.xor_self] at h

theorem id : Additive (fun a : BitVec m => a) := fun _ _ => rfl

theorem comp {h : BitVec n → BitVec l} (hh : Additive h) (hf : Additive f) :
    Additive fun a => h (f a) := by
  intro a b
  simp only [hf a b, hh (f a)]

theorem xor (hf : Additive f) (hg : Additive g) : Additive fun a => f a ^^^ g a := by
  intro a b
  simp only [hf a b, hg a b]
  ac_rfl

theorem iterate {h : BitVec n → BitVec n} (hh : Additive h) (k : ℕ) : Additive h^[k] := by
  induction k with
  | zero => exact fun _ _ => rfl
  | succ k ih =>
    intro a b
    rw [Function.iterate_succ_apply', Function.iterate_succ_apply', Function.iterate_succ_apply',
      ih a b, hh]

theorem shiftLeft (hf : Additive f) (k : ℕ) : Additive fun a => f a <<< k := by
  intro a b
  simp only [hf a b, BitVec.shiftLeft_xor_distrib]

theorem ushiftRight (hf : Additive f) (k : ℕ) : Additive fun a => f a >>> k := by
  intro a b
  simp only [hf a b, BitVec.ushiftRight_xor_distrib]

theorem setWidth (hf : Additive f) (k : ℕ) : Additive fun a => (f a).setWidth k := by
  intro a b
  simp only [hf a b, BitVec.setWidth_xor]

end Additive

def low (k : ℕ) (a : BitVec m) : BitVec m := (a.setWidth k).setWidth m

theorem getLsbD_low {k i : ℕ} (hi : i < m) (a : BitVec m) :
    (low k a).getLsbD i = (decide (i < k) && a.getLsbD i) := by
  simp [low, BitVec.getLsbD_setWidth, hi]

theorem low_succ (k : ℕ) (a : BitVec m) :
    low (k + 1) a = low k a ^^^ if a.getLsbD k then BitVec.twoPow m k else 0 := by
  apply BitVec.eq_of_getLsbD_eq
  intro i hi
  have hbit : (if a.getLsbD k then BitVec.twoPow m k else 0).getLsbD i =
      (decide (i = k) && a.getLsbD k) := by
    split_ifs with hk
    · simp [hk, hi, eq_comm]
    · simp [hk]
  rw [getLsbD_low hi, BitVec.getLsbD_xor, getLsbD_low hi, hbit]
  rcases Nat.lt_trichotomy i k with hlt | rfl | hgt
  · simp [hlt, Nat.lt_succ_of_lt hlt, Nat.ne_of_lt hlt]
  · simp
  · have hnot : ¬i < k := by omega
    have hnext : ¬i < k + 1 := by omega
    simp [hnot, hnext, Nat.ne_of_gt hgt]

theorem Additive.ext {f g : BitVec m → BitVec n} (hf : Additive f) (hg : Additive g)
    (h : ∀ i < m, f (BitVec.twoPow m i) = g (BitVec.twoPow m i)) (a : BitVec m) : f a = g a := by
  have hlow : ∀ k ≤ m, f (low k a) = g (low k a) := by
    intro k
    induction k with
    | zero =>
      intro _
      have hzero : low 0 a = 0 := by
        apply BitVec.eq_of_getLsbD_eq
        intro i hi
        simp [getLsbD_low hi]
      rw [hzero, hf.map_zero, hg.map_zero]
    | succ k ih =>
      intro hk
      rw [low_succ, hf, hg, ih (by omega)]
      split_ifs
      · rw [h k (by omega)]
      · rw [hf.map_zero, hg.map_zero]
  have hall : low m a = a := by
    apply BitVec.eq_of_getLsbD_eq
    intro i hi
    rw [getLsbD_low hi, decide_eq_true hi, Bool.true_and]
  rw [← hall]
  exact hlow m (Nat.le_refl m)

end MybipedalDeploy.XorLinear
