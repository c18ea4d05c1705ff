import Mathlib.Algebra.Order.Group.Int
import Mathlib.Tactic.Linarith

/-!
# Digital lines

The height of a line with slope `n / m`, at most 1, above the points of its major axis,
rounded to a whole number: in closed form, and as the steps that an error term decides.
-/

namespace MybipedalDeploy.DigitalLine

variable {m n : ℕ}

def rise (m n i : ℕ) : ℕ := (i * n + (m - 1 - m / 2)) / m

def slack (m n i : ℕ) : ℕ := m - 1 - (i * n + (m - 1 - m / 2)) % m

theorem slack_lt (hm : 0 < m) (i : ℕ) : slack m n i < m := by
  unfold slack
  omega

theorem rise_balance (hm : 0 < m) (i : ℕ) : m * rise m n i + m / 2 = i * n + slack m n i := by
  have hdiv := Nat.div_add_mod (i * n + (m - 1 - m / 2)) m
  have hmod := Nat.mod_lt (i * n + (m - 1 - m / 2)) hm
  unfold rise slack
  omega

theorem rise_unique (hm : 0 < m) {i q s : ℕ} (hs : s < m) (h : m * q + m / 2 = i * n + s) :
    rise m n i = q ∧ slack m n i = s := by
  have hrest : (m - 1 - s) + m * q = i * n + (m - 1 - m / 2) := by omega
  obtain ⟨hdiv, hmod⟩ := (Nat.div_mod_unique hm).mpr ⟨hrest, (by omega : m - 1 - s < m)⟩
  refine ⟨hdiv, ?_⟩
  rw [slack, hmod]
  omega

theorem rise_zero : rise m n 0 = 0 ∧ slack m n 0 = m / 2 := by
  rcases Nat.eq_zero_or_pos m with rfl | hm
  · simp [rise, slack]
  · exact rise_unique hm (by omega) (by omega)

theorem rise_succ_of_lt (hn : n ≤ m) {i : ℕ} (h : slack m n i < n) :
    rise m n (i + 1) = rise m n i + 1 ∧ slack m n (i + 1) = slack m n i + m - n := by
  have hm : 0 < m := by omega
  have hbalance := rise_balance (n := n) hm i
  refine rise_unique hm (by omega) ?_
  rw [Nat.mul_succ, Nat.succ_mul]
  omega

theorem rise_succ_of_le (hm : 0 < m) {i : ℕ} (h : n ≤ slack m n i) :
    rise m n (i + 1) = rise m n i ∧ slack m n (i + 1) = slack m n i - n := by
  have hbalance := rise_balance (n := n) hm i
  have hlt := slack_lt (n := n) hm i
  refine rise_unique hm (by omega) ?_
  rw [Nat.succ_mul]
  omega

theorem rise_succ_cases (hn : n ≤ m) (hm : 0 < m) (i : ℕ) :
    rise m n (i + 1) = rise m n i ∨ rise m n (i + 1) = rise m n i + 1 := by
  rcases Nat.lt_or_ge (slack m n i) n with hup | hstay
  · exact .inr (rise_succ_of_lt hn hup).1
  · exact .inl (rise_succ_of_le hm hstay).1

theorem rise_end (hn : n ≤ m) : rise m n m = n := by
  rcases Nat.eq_zero_or_pos m with rfl | hm
  · rw [rise_zero.1, Nat.le_zero.mp hn]
  · exact (rise_unique (s := m / 2) hm (by omega) rfl).1

theorem rise_self (hm : 0 < m) (i : ℕ) : rise m m i = i :=
  (rise_unique (s := m / 2) hm (by omega) (by rw [Nat.mul_comm])).1

/-- Never more than half a step off the line. -/
theorem rise_close (hm : 0 < m) (i : ℕ) : 2 * |(m * rise m n i : ℤ) - i * n| ≤ m := by
  have hbalance := rise_balance (n := n) hm i
  have hlt := slack_lt (n := n) hm i
  have hcast := congrArg (Nat.cast (R := ℤ)) hbalance
  push_cast at hcast
  rcases abs_cases ((m * rise m n i : ℤ) - i * n) with ⟨habs, -⟩ | ⟨habs, -⟩
  · rw [habs]
    omega
  · rw [habs]
    omega

end MybipedalDeploy.DigitalLine
