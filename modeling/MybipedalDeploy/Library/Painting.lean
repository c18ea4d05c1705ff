import Mathlib.Data.List.Basic

/-!
# Painting

A canvas holds a value for each point. An operation paints a set of points with one
value when it leaves all other points alone; the sets of operations in a row add up.
-/

namespace MybipedalDeploy.Painting

variable {C P V ι : Type*} (get : C → P → V)

structure Paints (f : C → C) (S : P → Prop) (v : V) : Prop where
  inside : ∀ c p, S p → get (f c) p = v
  outside : ∀ c p, ¬ S p → get (f c) p = get c p

namespace Paints
variable {get} {f g : C → C} {S T : P → Prop} {v w : V}

theorem nothing (v : V) : Paints get (fun c => c) (fun _ => False) v :=
  ⟨fun _ _ h => h.elim, fun _ _ _ => rfl⟩

theorem congr (h : Paints get f S v) (hiff : ∀ p, S p ↔ T p) : Paints get f T v :=
  ⟨fun c p hp => h.inside c p ((hiff p).mpr hp),
    fun c p hp => h.outside c p fun hS => hp ((hiff p).mp hS)⟩

theorem comp (hf : Paints get f S v) (hg : Paints get g T v) :
    Paints get (fun c => g (f c)) (fun p => S p ∨ T p) v := by
  constructor
  · intro c p hp
    by_cases hT : T p
    · exact hg.inside (f c) p hT
    · rw [hg.outside (f c) p hT]
      exact hf.inside c p (hp.resolve_right hT)
  · intro c p hp
    rw [hg.outside (f c) p fun hT => hp (.inr hT)]
    exact hf.outside c p fun hS => hp (.inl hS)

theorem foldl {step : C → ι → C} {S : ι → P → Prop} {is : List ι}
    (h : ∀ i ∈ is, Paints get (fun c => step c i) (S i) v) :
    Paints get (fun c => is.foldl step c) (fun p => ∃ i ∈ is, S i p) v := by
  induction is with
  | nil => exact (nothing v).congr fun p => by simp
  | cons i is ih =>
    have hhead := h i List.mem_cons_self
    have htail := ih fun j hj => h j (List.mem_cons_of_mem i hj)
    exact (hhead.comp htail).congr fun p => by simp

theorem guarded {b : Prop} [Decidable b] (h : Paints get f S v) :
    Paints get (fun c => if b then f c else c) (fun p => b ∧ S p) v := by
  by_cases hb : b
  · simp only [hb, if_true, true_and]
    exact h
  · simp only [hb, if_false, false_and]
    exact nothing v

theorem layered (hf : Paints get f S v) (hg : Paints get g T w) (c : C) (p : P) (hS : S p) :
    (T p → get (g (f c)) p = w) ∧ (¬ T p → get (g (f c)) p = v) :=
  ⟨hg.inside (f c) p, fun hT => (hg.outside (f c) p hT).trans (hf.inside c p hS)⟩

end Paints

theorem get_foldl_alone (get : C → P → V) (step : C → ι → C) (Q : V → Prop) {p : P} {i : ι} {v : V}
    (hi : ∀ c, get c p = v → Q (get (step c i) p)) {is : List ι} (hmem : i ∈ is) (hnodup : is.Nodup)
    (hother : ∀ j ∈ is, j ≠ i → ∀ c, get (step c j) p = get c p) {c : C} (hc : get c p = v) :
    Q (get (is.foldl step c) p) := by
  have hrest : ∀ {js : List ι}, (∀ j ∈ js, ∀ c, get (step c j) p = get c p) → ∀ c,
      get (js.foldl step c) p = get c p := by
    intro js hjs
    induction js with
    | nil => exact fun _ => rfl
    | cons j js ih =>
      intro c
      rw [List.foldl_cons, ih fun k hk => hjs k (List.mem_cons_of_mem j hk)]
      exact hjs j List.mem_cons_self c
  induction is generalizing c with
  | nil => exact absurd hmem List.not_mem_nil
  | cons j is ih =>
    obtain ⟨hnot, htail⟩ := List.nodup_cons.mp hnodup
    rw [List.foldl_cons]
    rcases List.mem_cons.mp hmem with rfl | hmem
    · rw [hrest fun k hk => hother k (List.mem_cons_of_mem i hk) fun heq => hnot (heq ▸ hk)]
      exact hi c hc
    · refine ih hmem htail (fun k hk => hother k (List.mem_cons_of_mem j hk)) ?_
      rw [hother j List.mem_cons_self fun heq => hnot (heq ▸ hmem)]
      exact hc

end MybipedalDeploy.Painting
