import Mathlib.Data.List.Nodup
import Mathlib.Data.List.Induction
import Mathlib.Data.Option.Basic

/-!
# The last write wins

A list of writes and a part of the state that only some of them hit. What is read
at the end is what the last write that hits the part has put there.
-/

namespace MybipedalDeploy.LastWrite

variable {ε ε' σ β : Type*} (hit : ε → Option β)

def lastHit (es : List ε) : Option β := es.reverse.findSome? hit

@[simp] theorem lastHit_nil : lastHit hit [] = none := rfl

theorem lastHit_append (xs ys : List ε) :
    lastHit hit (xs ++ ys) = (lastHit hit ys).or (lastHit hit xs) := by
  simp [lastHit, List.findSome?_append]

@[simp] theorem lastHit_singleton (e : ε) : lastHit hit [e] = hit e := by
  simp [lastHit]

theorem lastHit_concat (es : List ε) (e : ε) :
    lastHit hit (es ++ [e]) = (hit e).or (lastHit hit es) := by
  rw [lastHit_append, lastHit_singleton]

theorem lastHit_map (f : ε' → ε) (es : List ε') :
    lastHit hit (es.map f) = lastHit (fun e => hit (f e)) es := by
  simp [lastHit, ← List.map_reverse, List.findSome?_map, Function.comp_def]

theorem lastHit_flatMap (f : ε' → List ε) (es : List ε') :
    lastHit hit (es.flatMap f) = lastHit (fun e => lastHit hit (f e)) es := by
  induction es using List.reverseRecOn with
  | nil => rfl
  | append_singleton es e ih =>
    rw [List.flatMap_append, List.flatMap_singleton, lastHit_append, lastHit_concat, ih]

theorem lastHit_map_hit {γ : Type*} (g : β → γ) (es : List ε) :
    lastHit (fun e => (hit e).map g) es = (lastHit hit es).map g := by
  induction es using List.reverseRecOn with
  | nil => rfl
  | append_singleton es e ih =>
    rw [lastHit_concat, lastHit_concat, ih]
    cases hit e <;> rfl

theorem lastHit_eq_none_iff {es : List ε} : lastHit hit es = none ↔ ∀ e ∈ es, hit e = none := by
  simp [lastHit]

theorem lastHit_congr {hit hit' : ε → Option β} {es : List ε} (h : ∀ e ∈ es, hit e = hit' e) :
    lastHit hit es = lastHit hit' es := by
  induction es using List.reverseRecOn with
  | nil => rfl
  | append_singleton es e ih =>
    rw [lastHit_concat, lastHit_concat, h e (by simp), ih fun e' he' => h e' (by simp [he'])]

theorem lastHit_eq_some {es : List ε} {b : β} (h : lastHit hit es = some b) :
    ∃ p e q, es = p ++ e :: q ∧ hit e = some b ∧ ∀ e' ∈ q, hit e' = none := by
  induction es using List.reverseRecOn with
  | nil => cases h
  | append_singleton es e ih =>
    rw [lastHit_concat] at h
    cases he : hit e with
    | some b' =>
      rw [he] at h
      cases h
      exact ⟨es, e, [], rfl, he, by simp⟩
    | none =>
      rw [he] at h
      obtain ⟨p, e', q, rfl, he', hq⟩ := ih h
      refine ⟨p, e', q ++ [e], by simp, he', ?_⟩
      intro e'' hmem
      rcases List.mem_append.mp hmem with hmem | hmem
      · exact hq e'' hmem
      · rw [List.mem_singleton.mp hmem]
        exact he

theorem lastHit_of_unique {es : List ε} {e : ε} {b : β} (hmem : e ∈ es) (he : hit e = some b)
    (hother : ∀ e' ∈ es, ∀ b', hit e' = some b' → b' = b) : lastHit hit es = some b := by
  cases h : lastHit hit es with
  | none =>
    rw [(lastHit_eq_none_iff hit).mp h e hmem] at he
    cases he
  | some b' =>
    obtain ⟨p, e', q, rfl, he', _⟩ := lastHit_eq_some hit h
    rw [hother e' (by simp) b' he']

theorem lastHit_filter {P : β → Bool} {es : List ε}
    (h : ∀ b, lastHit hit es = some b → P b = true) :
    lastHit (fun e => (hit e).filter P) es = lastHit hit es := by
  induction es using List.reverseRecOn with
  | nil => rfl
  | append_singleton es e ih =>
    rw [lastHit_concat] at h ⊢
    rw [lastHit_concat]
    cases he : hit e with
    | none =>
      rw [he] at h
      simpa using ih h
    | some b =>
      rw [he] at h
      simp [Option.filter, h b rfl]

theorem view_foldl (put : σ → ε → σ) (view : σ → β) (I : σ → Prop)
    (hI : ∀ s e, I s → I (put s e))
    (hview : ∀ s e, I s → view (put s e) = (hit e).getD (view s)) (es : List ε) {s : σ}
    (hs : I s) : view (es.foldl put s) = (lastHit hit es).getD (view s) := by
  induction es generalizing s with
  | nil => rfl
  | cons e es ih =>
    have hsplit : lastHit hit (e :: es) = (lastHit hit es).or (hit e) := by
      rw [← lastHit_singleton hit e, ← lastHit_append]
      rfl
    rw [List.foldl_cons, ih (hI s e hs), hview s e hs, hsplit]
    cases lastHit hit es <;> rfl

end MybipedalDeploy.LastWrite
