import Mathlib.Order.Lattice
import Mathlib.Order.MinMax

/-!
# Cutting a number to a range
-/

namespace MybipedalDeploy.Clamp

variable {K : Type*} [LinearOrder K] {lo hi x y : K}

def clamp (lo hi x : K) : K := max lo (min x hi)

theorem le_clamp : lo ≤ clamp lo hi x := le_max_left _ _

theorem clamp_le (h : lo ≤ hi) : clamp lo hi x ≤ hi := max_le h (min_le_right _ _)

theorem clamp_mono (h : x ≤ y) : clamp lo hi x ≤ clamp lo hi y :=
  max_le_max le_rfl (min_le_min_right hi h)

theorem clamp_eq_self (hlo : lo ≤ x) (hhi : x ≤ hi) : clamp lo hi x = x := by
  rw [clamp, min_eq_left hhi, max_eq_right hlo]

theorem clamp_of_le (h : x ≤ lo) : clamp lo hi x = lo :=
  max_eq_left ((min_le_left x hi).trans h)

theorem clamp_of_ge (hle : lo ≤ hi) (h : hi ≤ x) : clamp lo hi x = hi := by
  rw [clamp, min_eq_right h, max_eq_right hle]

theorem map_clamp {L : Type*} [LinearOrder L] {f : K → L} (hf : Monotone f) :
    f (clamp lo hi x) = clamp (f lo) (f hi) (f x) := by
  rw [clamp, clamp, hf.map_max, hf.map_min]

theorem clamp_le_iff {b : K} : clamp lo hi x ≤ b ↔ lo ≤ b ∧ (x ≤ b ∨ hi ≤ b) := by
  rw [clamp, max_le_iff, min_le_iff]

theorem le_clamp_iff {b : K} (h : lo ≤ hi) :
    b ≤ clamp lo hi x ↔ b ≤ hi ∧ (b ≤ x ∨ b ≤ lo) := by
  rw [clamp, le_max_iff, le_min_iff]
  constructor
  · rintro (hlo | ⟨hx, hhi⟩)
    · exact ⟨hlo.trans h, .inr hlo⟩
    · exact ⟨hhi, .inl hx⟩
  · rintro ⟨hhi, hx | hlo⟩
    · exact .inr ⟨hx, hhi⟩
    · exact .inl hlo

end MybipedalDeploy.Clamp
