import Mathlib.Algebra.Order.Archimedean.Basic
import Mathlib.Algebra.Order.Group.Abs
import Mathlib.Order.Interval.Set.UnorderedInterval
import MybipedalDeploy.Library.Clamp

/-!
# Pursuit with bounded moves

A point follows a target and moves by at least `lo` and at most `hi` at a time. It never
passes the target, and it reaches one that rests.
-/

namespace MybipedalDeploy.Pursuit
open Clamp (clamp)

variable {G : Type*} [AddCommGroup G] [LinearOrder G]

def move (lo hi x target : G) : G := x + clamp lo hi (target - x)

def pursue (lo hi : G) (target : ℕ → G) (x : G) : ℕ → G
  | 0 => x
  | n + 1 => move lo hi (pursue lo hi target x n) (target n)

variable {lo hi x t : G} {target : ℕ → G} {m : ℕ}

theorem move_self (hlo : lo ≤ 0) (hhi : 0 ≤ hi) : move lo hi t t = t := by
  rw [move, sub_self, Clamp.clamp_eq_self hlo hhi, add_zero]

theorem move_sub_mem (hbox : lo ≤ hi) : move lo hi x t - x ∈ Set.Icc lo hi := by
  rw [move, add_sub_cancel_left]
  exact ⟨Clamp.le_clamp, Clamp.clamp_le hbox⟩

theorem pursue_stays (hlo : lo ≤ 0) (hhi : 0 ≤ hi) (hrest : ∀ k ≥ m, target k = t) {n : ℕ}
    (hn : m ≤ n) (h : pursue lo hi target x n = t) : ∀ k ≥ n, pursue lo hi target x k = t := by
  intro k hk
  induction k, hk using Nat.le_induction with
  | base => exact h
  | succ k hk ih => rw [pursue, ih, hrest k (hn.trans hk), move_self hlo hhi]

variable [IsOrderedAddMonoid G]

theorem move_cases (hbox : lo ≤ hi) :
    (t < x + lo ∧ move lo hi x t = x + lo) ∨ (x + hi < t ∧ move lo hi x t = x + hi) ∨
      (x + lo ≤ t ∧ t ≤ x + hi ∧ move lo hi x t = t) := by
  rcases lt_or_ge t (x + lo) with hlow | hlow
  · exact .inl ⟨hlow, by rw [move, Clamp.clamp_of_le (sub_le_iff_le_add'.mpr hlow.le)]⟩
  · rcases lt_or_ge (x + hi) t with hhigh | hhigh
    · have hmove : move lo hi x t = x + hi := by
        rw [move, Clamp.clamp_of_ge hbox (le_sub_iff_add_le'.mpr hhigh.le)]
      exact .inr (.inl ⟨hhigh, hmove⟩)
    · have hmove : move lo hi x t = t := by
        rw [move, Clamp.clamp_eq_self (le_sub_iff_add_le'.mpr hlow) (sub_le_iff_le_add'.mpr hhigh),
          add_sub_cancel]
      exact .inr (.inr ⟨hlow, hhigh, hmove⟩)

theorem move_mem_uIcc (hlo : lo ≤ 0) (hhi : 0 ≤ hi) : move lo hi x t ∈ Set.uIcc x t := by
  rcases move_cases (x := x) (t := t) (hlo.trans hhi) with ⟨hlow, h⟩ | ⟨hhigh, h⟩ | ⟨-, -, h⟩
  · rw [h]
    exact Set.mem_uIcc_of_ge hlow.le (add_le_of_nonpos_right hlo)
  · rw [h]
    exact Set.mem_uIcc_of_le (le_add_of_nonneg_right hhi) hhigh.le
  · rw [h]
    exact Set.right_mem_uIcc

theorem move_closer (hlo : lo ≤ 0) (hhi : 0 ≤ hi) :
    move lo hi x t = t ∨ |t - move lo hi x t| + min (-lo) hi ≤ |t - x| := by
  rcases move_cases (x := x) (t := t) (hlo.trans hhi) with ⟨hlow, h⟩ | ⟨hhigh, h⟩ | ⟨-, -, h⟩
  · have hbelow : t < x := hlow.trans_le (add_le_of_nonpos_right hlo)
    right
    rw [h, abs_of_neg (sub_neg.mpr hlow), abs_of_neg (sub_neg.mpr hbelow)]
    calc -(t - (x + lo)) + min (-lo) hi
      _ ≤ -(t - (x + lo)) + -lo := add_le_add_right (min_le_left _ _) _
      _ = -(t - x) := by abel
  · have habove : x < t := (le_add_of_nonneg_right hhi).trans_lt hhigh
    right
    rw [h, abs_of_pos (sub_pos.mpr hhigh), abs_of_pos (sub_pos.mpr habove)]
    calc t - (x + hi) + min (-lo) hi
      _ ≤ t - (x + hi) + hi := add_le_add_right (min_le_right _ _) _
      _ = t - x := by abel
  · exact .inl h

theorem pursue_closer (hlo : lo ≤ 0) (hhi : 0 ≤ hi) (hrest : ∀ k ≥ m, target k = t) (n : ℕ) :
    pursue lo hi target x (m + n) = t ∨
      |t - pursue lo hi target x (m + n)| + n • min (-lo) hi ≤ |t - pursue lo hi target x m| := by
  induction n with
  | zero => exact .inr (by simp)
  | succ n ih =>
    have hstep : pursue lo hi target x (m + (n + 1)) =
        move lo hi (pursue lo hi target x (m + n)) t := by
      rw [← Nat.add_assoc, pursue, hrest _ (Nat.le_add_right m n)]
    rcases ih with harrived | hcloser
    · exact .inl (by rw [hstep, harrived, move_self hlo hhi])
    · rcases move_closer (x := pursue lo hi target x (m + n)) (t := t) hlo hhi with h | h
      · exact .inl (by rw [hstep, h])
      · right
        rw [hstep, succ_nsmul', ← add_assoc]
        exact (add_le_add_left h _).trans hcloser

theorem pursue_arrives [Archimedean G] (hlo : lo < 0) (hhi : 0 < hi)
    (hrest : ∀ k ≥ m, target k = t) : ∃ n, ∀ k ≥ n, pursue lo hi target x k = t := by
  have hpace : 0 < min (-lo) hi := lt_min (neg_pos.mpr hlo) hhi
  obtain ⟨n, hn⟩ := exists_lt_nsmul hpace |t - pursue lo hi target x m|
  refine ⟨m + n, pursue_stays hlo.le hhi.le hrest (Nat.le_add_right m n) ?_⟩
  rcases pursue_closer hlo.le hhi.le hrest n with harrived | hcloser
  · exact harrived
  · exact absurd ((le_add_of_nonneg_left (abs_nonneg _)).trans hcloser) (not_le_of_gt hn)

end MybipedalDeploy.Pursuit
