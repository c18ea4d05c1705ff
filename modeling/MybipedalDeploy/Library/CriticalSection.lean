import Mathlib.Logic.Function.Basic

/-!
# Critical sections

A lock with an owner, over threads whose control points are one function. Only the
owner stands inside; the rules say what keeps it so.
-/

namespace MybipedalDeploy.CriticalSection

variable {τ π : Type*} {inside : π → Prop} {owner : Option τ} {pc : τ → π}

def Exclusive (inside : π → Prop) (owner : Option τ) (pc : τ → π) : Prop :=
  ∀ t, inside (pc t) → owner = some t

theorem Exclusive.eq (h : Exclusive inside owner pc) {t u : τ} (ht : inside (pc t))
    (hu : inside (pc u)) : t = u :=
  Option.some.inj ((h t ht).symm.trans (h u hu))

variable [DecidableEq τ]

theorem Exclusive.move (h : Exclusive inside owner pc) {t : τ} {p : π}
    (hp : inside p → inside (pc t)) : Exclusive inside owner (Function.update pc t p) := by
  intro u hu
  by_cases heq : u = t
  · subst heq
    rw [Function.update_self] at hu
    exact h u (hp hu)
  · rw [Function.update_of_ne heq] at hu
    exact h u hu

theorem Exclusive.acquire (h : Exclusive inside none pc) (t : τ) (p : π) :
    Exclusive inside (some t) (Function.update pc t p) := by
  intro u hu
  by_cases heq : u = t
  · rw [heq]
  · rw [Function.update_of_ne heq] at hu
    cases h u hu

theorem Exclusive.release (h : Exclusive inside owner pc) {t : τ} {p : π}
    (ht : inside (pc t)) (hp : ¬ inside p) : Exclusive inside none (Function.update pc t p) := by
  intro u hu
  by_cases heq : u = t
  · subst heq
    rw [Function.update_self] at hu
    exact absurd hu hp
  · rw [Function.update_of_ne heq] at hu
    exact absurd (h.eq hu ht) heq

end MybipedalDeploy.CriticalSection
