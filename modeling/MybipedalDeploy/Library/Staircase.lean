import Mathlib.Algebra.Order.Group.Int
import Mathlib.Data.Nat.Find
import Mathlib.Order.Monotone.Basic

/-!
# Stairs down to the diagonal

Heights over the columns `0, 1, 2, …` that go down by one at most from a column to the
next. They reach the diagonal, and stay below it from then on.
-/

namespace MybipedalDeploy.Staircase

/-- Down by one, or not at all. -/
def Stairs (h : ℕ → ℤ) : Prop := ∀ k, h (k + 1) = h k ∨ h (k + 1) = h k - 1

namespace Stairs
variable {h : ℕ → ℤ}

theorem antitone (hs : Stairs h) {m k : ℕ} (hmk : m ≤ k) : h k ≤ h m := by
  refine antitone_nat_of_succ_le (fun k => ?_) hmk
  rcases hs k with hflat | hdown
  · exact hflat.le
  · omega

theorem exists_below (hs : Stairs h) : ∃ k : ℕ, h k < k := by
  refine ⟨(h 0).toNat + 1, ?_⟩
  have hle := hs.antitone (Nat.zero_le ((h 0).toNat + 1))
  push_cast
  omega

def width (hs : Stairs h) : ℕ := Nat.find hs.exists_below

theorem lt_width_iff (hs : Stairs h) {k : ℕ} : k < hs.width ↔ (k : ℤ) ≤ h k := by
  rw [width, Nat.lt_find_iff]
  constructor
  · intro hall
    exact Int.not_lt.mp (hall k le_rfl)
  · intro hk m hm hbelow
    have hle := hs.antitone hm
    omega

theorem last_le (hs : Stairs h) {k : ℕ} (hk : hs.width = k + 1) : h k ≤ k + 1 := by
  have hbelow : ¬ ((k + 1 : ℕ) : ℤ) ≤ h (k + 1) := by
    rw [← hs.lt_width_iff, hk]
    exact lt_irrefl _
  push_cast at hbelow
  rcases hs k with hflat | hdown <;> omega

end Stairs
end MybipedalDeploy.Staircase
