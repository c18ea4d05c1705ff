import Mathlib.Data.List.Range
import Mathlib.Logic.Function.Basic

/-!
# Tabulated functions

A list as the values of a function on the first numbers, and what it means to change one
entry of it, or two neighbours.
-/

namespace MybipedalDeploy.Tabulated

variable {α : Type*}

theorem set_map_range (f : ℕ → α) (n i : ℕ) (x : α) :
    ((List.range n).map f).set i x = (List.range n).map (Function.update f i x) := by
  apply List.ext_getElem (by simp)
  intro k hk hk'
  rw [List.getElem_set, List.getElem_map, List.getElem_map, List.getElem_range, Function.update_apply]
  simp only [eq_comm]

theorem map_range_inj {f g : ℕ → α} {n : ℕ} :
    (List.range n).map f = (List.range n).map g ↔ ∀ i < n, f i = g i := by
  rw [List.map_inj_left]
  simp only [List.mem_range]

theorem map_update_of_le (f : ℕ → α) {n i : ℕ} (hi : n ≤ i) (x : α) :
    (List.range n).map (Function.update f i x) = (List.range n).map f := by
  rw [map_range_inj]
  intro k hk
  rw [Function.update_of_ne (by omega)]

theorem map_update_inj {f : ℕ → α} {n i : ℕ} (hi : i < n) {x : α} :
    (List.range n).map (Function.update f i x) = (List.range n).map f ↔ x = f i := by
  rw [map_range_inj]
  constructor
  · intro h
    have hi := h i hi
    rwa [Function.update_self] at hi
  · rintro rfl k _
    rw [Function.update_eq_self]

theorem map_update_pair_inj {f : ℕ → α} {n i : ℕ} (hi : i + 1 < n) {x y x' y' : α} :
    (List.range n).map (Function.update (Function.update f i x) (i + 1) y) =
      (List.range n).map (Function.update (Function.update f i x') (i + 1) y') ↔
        x = x' ∧ y = y' := by
  rw [map_range_inj]
  constructor
  · intro h
    have hfirst := h i (by omega)
    have hsecond := h (i + 1) hi
    rw [Function.update_of_ne (by omega), Function.update_self, Function.update_of_ne (by omega),
      Function.update_self] at hfirst
    rw [Function.update_self, Function.update_self] at hsecond
    exact ⟨hfirst, hsecond⟩
  · rintro ⟨rfl, rfl⟩ k _
    rfl

end MybipedalDeploy.Tabulated
