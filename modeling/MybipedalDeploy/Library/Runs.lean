import Mathlib.Data.List.Induction
import Mathlib.Data.Option.Basic

/-!
# Runs of machines whose scheduler picks the next action

A machine is a partial step function: the action names who moves, and a refused
action is `none`. A run is built at its end, so an invariant speaks of the whole
history that led to the state. Guarded runs ask a condition of every step in the
state before it; the last rule says when such a condition is exact.
-/

namespace MybipedalDeploy.Runs

variable {σ α : Type*}

inductive Run (step : σ → α → Option σ) (s₀ : σ) : List α → σ → Prop
  | start : Run step s₀ [] s₀
  | next {as : List α} {s t : σ} {a : α} :
      Run step s₀ as s → step s a = some t → Run step s₀ (as ++ [a]) t

def exec (step : σ → α → Option σ) : σ → List α → Option σ
  | s, [] => some s
  | s, a :: as => (step s a).bind fun t => exec step t as

theorem exec_append (step : σ → α → Option σ) (s : σ) (as bs : List α) :
    exec step s (as ++ bs) = (exec step s as).bind fun t => exec step t bs := by
  induction as generalizing s with
  | nil => rfl
  | cons a as ih =>
    simp only [List.cons_append, exec, Option.bind_assoc]
    exact congrArg _ (funext fun t => ih t)

theorem Run.exec_eq {step : σ → α → Option σ} {s₀ s : σ} {as : List α}
    (h : Run step s₀ as s) : exec step s₀ as = some s := by
  induction h with
  | start => rfl
  | next _ hstep ih => simp [exec_append, ih, exec, hstep]

theorem run_of_exec {step : σ → α → Option σ} {s₀ : σ} (as : List α) {s : σ}
    (h : exec step s₀ as = some s) : Run step s₀ as s := by
  induction as using List.reverseRecOn generalizing s with
  | nil => cases h; exact .start
  | append_singleton as a ih =>
    rw [exec_append] at h
    obtain ⟨t, ht, hs⟩ := Option.bind_eq_some_iff.mp h
    simp only [exec] at hs
    exact .next (ih ht) (by simpa using hs)

theorem Run.unique {step : σ → α → Option σ} {s₀ s t : σ} {as : List α}
    (hs : Run step s₀ as s) (ht : Run step s₀ as t) : s = t :=
  Option.some.inj (hs.exec_eq.symm.trans ht.exec_eq)

theorem run_append_iff {step : σ → α → Option σ} {s₀ t : σ} {as bs : List α} :
    Run step s₀ (as ++ bs) t ↔ ∃ s, Run step s₀ as s ∧ Run step s bs t := by
  constructor
  · intro h
    have hexec := h.exec_eq
    rw [exec_append] at hexec
    obtain ⟨s, hs, ht⟩ := Option.bind_eq_some_iff.mp hexec
    exact ⟨s, run_of_exec as hs, run_of_exec bs ht⟩
  · rintro ⟨s, hs, ht⟩
    refine run_of_exec _ ?_
    rw [exec_append, hs.exec_eq]
    exact ht.exec_eq

theorem run_cons_iff {step : σ → α → Option σ} {s₀ t : σ} {a : α} {as : List α} :
    Run step s₀ (a :: as) t ↔ ∃ s, step s₀ a = some s ∧ Run step s as t := by
  constructor
  · intro h
    obtain ⟨s, hs, ht⟩ := Option.bind_eq_some_iff.mp h.exec_eq
    exact ⟨s, hs, run_of_exec as ht⟩
  · rintro ⟨s, hs, ht⟩
    refine run_of_exec _ ?_
    simp only [exec, hs, Option.bind_some, ht.exec_eq]

/-- Every action of the schedule met the guard in the state it was taken in. -/
def Along (step : σ → α → Option σ) (G : σ → α → Prop) (s₀ : σ) (as : List α) : Prop :=
  ∀ p a q s, as = p ++ a :: q → Run step s₀ p s → G s a

theorem along_nil (step : σ → α → Option σ) (G : σ → α → Prop) (s₀ : σ) :
    Along step G s₀ [] := by
  intro p a q s h
  simp at h

theorem along_of_forall {step : σ → α → Option σ} {G : α → Prop} {s₀ : σ} {as : List α}
    (h : ∀ a ∈ as, G a) : Along step (fun _ a => G a) s₀ as := by
  rintro p a q s rfl _
  exact h a (by simp)

theorem Along.init {step : σ → α → Option σ} {G : σ → α → Prop} {s₀ : σ}
    {as : List α} {a : α} (h : Along step G s₀ (as ++ [a])) : Along step G s₀ as := by
  intro p b q s hp hr
  exact h p b (q ++ [a]) s (by simp [hp]) hr

theorem Along.last {step : σ → α → Option σ} {G : σ → α → Prop} {s₀ s : σ}
    {as : List α} {a : α} (h : Along step G s₀ (as ++ [a])) (hr : Run step s₀ as s) : G s a :=
  h as a [] s rfl hr

theorem Along.snoc {step : σ → α → Option σ} {G : σ → α → Prop} {s₀ s : σ}
    {as : List α} {a : α} (h : Along step G s₀ as) (hr : Run step s₀ as s) (ha : G s a) :
    Along step G s₀ (as ++ [a]) := by
  intro p b q t hp ht
  rcases List.eq_nil_or_concat q with rfl | ⟨q, c, rfl⟩
  · obtain ⟨rfl, hb⟩ := List.append_inj' hp rfl
    obtain rfl := (List.cons.inj hb).1
    exact hr.unique ht ▸ ha
  · have hsplit : as ++ [a] = (p ++ b :: q) ++ [c] := by simpa using hp
    exact h p b q t (List.append_inj' hsplit rfl).1 ht

theorem along_cons_iff {step : σ → α → Option σ} {G : σ → α → Prop} {s : σ} {a : α} {as : List α} :
    Along step G s (a :: as) ↔ G s a ∧ ∀ t, step s a = some t → Along step G t as := by
  constructor
  · intro h
    refine ⟨h [] a as s rfl .start, fun t ht p b q u hsplit hr => ?_⟩
    exact h (a :: p) b q u (congrArg (a :: ·) hsplit) (run_cons_iff.mpr ⟨t, ht, hr⟩)
  · rintro ⟨ha, htail⟩ p b q u hsplit hr
    cases p with
    | nil =>
      obtain ⟨rfl, _⟩ := List.cons.inj hsplit
      cases hr.exec_eq
      exact ha
    | cons c p =>
      obtain ⟨rfl, hrest⟩ := List.cons.inj hsplit
      obtain ⟨t, ht, hr⟩ := run_cons_iff.mp hr
      exact htail t ht p b q u hrest hr

def guardsHold (step : σ → α → Option σ) (G : σ → α → Prop) [∀ s a, Decidable (G s a)] :
    σ → List α → Bool
  | _, [] => true
  | s, a :: as =>
    decide (G s a) && match step s a with
      | none => true
      | some t => guardsHold step G t as

theorem guardsHold_iff {step : σ → α → Option σ} {G : σ → α → Prop}
    [∀ s a, Decidable (G s a)] {s₀ : σ} {as : List α} :
    guardsHold step G s₀ as = true ↔ Along step G s₀ as := by
  induction as generalizing s₀ with
  | nil => exact iff_of_true rfl (along_nil step G s₀)
  | cons a as ih =>
    rw [along_cons_iff, guardsHold, Bool.and_eq_true, decide_eq_true_iff]
    cases step s₀ a with
    | none => simp
    | some t => simp [ih]

theorem along_of_guardsHold {step : σ → α → Option σ} {G : σ → α → Prop}
    [∀ s a, Decidable (G s a)] {s₀ : σ} {as : List α} (h : guardsHold step G s₀ as = true) :
    Along step G s₀ as :=
  guardsHold_iff.mp h

theorem Run.invariant {step : σ → α → Option σ} {s₀ s : σ} {as : List α}
    (I : σ → Prop) (h0 : I s₀) (hstep : ∀ s a t, I s → step s a = some t → I t)
    (h : Run step s₀ as s) : I s := by
  induction h with
  | start => exact h0
  | next _ hs ih => exact hstep _ _ _ ih hs

theorem Run.guarded {step : σ → α → Option σ} {s₀ s : σ} {as : List α}
    (G : σ → α → Prop) (J : List α → σ → Prop) (h0 : J [] s₀)
    (hstep : ∀ p s a t, J p s → G s a → step s a = some t → J (p ++ [a]) t)
    (h : Run step s₀ as s) (hG : Along step G s₀ as) : J as s := by
  induction h with
  | start => exact h0
  | next hr hs ih => exact hstep _ _ _ _ (ih hG.init) (hG.last hr) hs

/-- When a step keeps the property exactly if the guard held before it, the
property holds of a run exactly if the guard held at every step. -/
theorem Run.iff_along {step : σ → α → Option σ} {s₀ s : σ} {as : List α}
    (G : σ → α → Prop) (P : σ → Prop) (h0 : P s₀)
    (hstep : ∀ p s a t, Run step s₀ p s → step s a = some t → (P t ↔ P s ∧ G s a))
    (h : Run step s₀ as s) : P s ↔ Along step G s₀ as := by
  induction h with
  | start => exact ⟨fun _ => along_nil step G s₀, fun _ => h0⟩
  | next hr hs ih =>
    rw [hstep _ _ _ _ hr hs, ih]
    exact ⟨fun h => h.1.snoc hr h.2, fun h => ⟨h.init, h.last hr⟩⟩

theorem Run.of_prefix {step : σ → α → Option σ} {s₀ s : σ} {p q : List α}
    (h : Run step s₀ (p ++ q) s) : ∃ t, Run step s₀ p t :=
  (run_append_iff.mp h).imp fun _ ht => ht.1

theorem Run.of_concat {step : σ → α → Option σ} {s₀ t : σ} {p : List α} {a : α}
    (h : Run step s₀ (p ++ [a]) t) : ∃ s, Run step s₀ p s ∧ step s a = some t := by
  obtain ⟨s, hs, ht⟩ := run_append_iff.mp h
  obtain ⟨t', hst, hnil⟩ := run_cons_iff.mp ht
  cases hnil.exec_eq
  exact ⟨s, hs, hst⟩

/-- Where a step out of a good state is good exactly if its guard held, all states of
a run are good exactly if every guard held. The guard may speak of the history. -/
theorem Run.always_iff_history {step : σ → α → Option σ} {s₀ s : σ} {as : List α}
    (J : List α → σ → Prop) (P : σ → Prop) (G : List α → σ → α → Prop) (hJ : J [] s₀) (h0 : P s₀)
    (hnext : ∀ p s a t, J p s → P s → step s a = some t →
      (P t ↔ G p s a) ∧ (P t → J (p ++ [a]) t))
    (h : Run step s₀ as s) :
    (∀ p t, p <+: as → Run step s₀ p t → P t) ↔
      ∀ p a q s, as = p ++ a :: q → Run step s₀ p s → G p s a := by
  have hkeep : ∀ {p t}, Run step s₀ p t → (∀ p' t', p' <+: p → Run step s₀ p' t' → P t') →
      J p t := by
    intro p t hr hP
    induction hr with
    | start => exact hJ
    | @next p s t a hr ht ih =>
      have hprev := ih fun p' t' hp' => hP p' t' (hp'.trans (List.prefix_append _ _))
      have hs := hP p s (List.prefix_append _ _) hr
      exact (hnext p s a t hprev hs ht).2 (hP _ t List.prefix_rfl (hr.next ht))
  constructor
  · rintro hP p a q s rfl hr
    have hinit : p <+: p ++ a :: q := List.prefix_append _ _
    have hs := hkeep hr fun p' t' hp' => hP p' t' (hp'.trans hinit)
    rw [List.append_cons] at h
    obtain ⟨t, ht⟩ := h.of_prefix
    obtain ⟨s', hr', hst⟩ := ht.of_concat
    obtain rfl := hr.unique hr'
    exact (hnext p s a t hs (hP p s hinit hr) hst).1.mp (hP (p ++ [a]) t ⟨q, by simp⟩ ht)
  · intro hG
    have hgood : ∀ {p t}, Run step s₀ p t → p <+: as → J p t ∧ P t := by
      intro p t hr hp
      induction hr with
      | start => exact ⟨hJ, h0⟩
      | @next p s t a hr ht ih =>
        obtain ⟨q, rfl⟩ := hp
        have hs := ih ⟨a :: q, by simp⟩
        have hkept := hnext p s a t hs.1 hs.2 ht
        have hPt := hkept.1.mpr (hG p a q s (by simp) hr)
        exact ⟨hkept.2 hPt, hPt⟩
    exact fun p t hp hr => (hgood hr hp).2

theorem Run.always_iff_along {step : σ → α → Option σ} {s₀ s : σ} {as : List α}
    (G : σ → α → Prop) (P : σ → Prop) (h0 : P s₀)
    (hstep : ∀ p s a t, Run step s₀ p s → P s → step s a = some t → (P t ↔ G s a))
    (h : Run step s₀ as s) :
    (∀ p t, p <+: as → Run step s₀ p t → P t) ↔ Along step G s₀ as :=
  h.always_iff_history (Run step s₀) P (fun _ => G) .start h0
    fun p s a t hr hs ht => ⟨hstep p s a t hr hs ht, fun _ => .next hr ht⟩

theorem along_congr {step : σ → α → Option σ} {G G' : σ → α → Prop} (J : σ → Prop) (W : α → Prop)
    (hiff : ∀ s a, J s → W a → (G s a ↔ G' s a))
    (hstep : ∀ s a t, J s → W a → G s a → step s a = some t → J t) {s₀ : σ} (h0 : J s₀)
    (as : List α) (hW : ∀ a ∈ as, W a) : Along step G s₀ as ↔ Along step G' s₀ as := by
  induction as generalizing s₀ with
  | nil => exact iff_of_true (along_nil step G s₀) (along_nil step G' s₀)
  | cons a as ih =>
    have ha := hW a List.mem_cons_self
    rw [along_cons_iff, along_cons_iff, ← hiff s₀ a h0 ha]
    apply and_congr_right
    intro hG
    apply forall₂_congr
    intro t ht
    exact ih (hstep s₀ a t h0 ha hG ht) fun b hb => hW b (List.mem_cons_of_mem a hb)

/-- Two machines in lock step: one is stuck when the other is, and their states stay
related while the guard holds. -/
theorem exec_rel {τ β : Type*} {step : σ → α → Option σ} {step' : τ → β → Option τ} (f : β → α)
    (R : σ → τ → Prop) (G : σ → α → Prop)
    (hstep : ∀ s t b, R s t → G s (f b) → Option.Rel R (step s (f b)) (step' t b)) {s : σ} {t : τ}
    (h : R s t) (bs : List β) (hG : Along step G s (bs.map f)) :
    Option.Rel R (exec step s (bs.map f)) (exec step' t bs) := by
  induction bs generalizing s t with
  | nil => exact .some h
  | cons b bs ih =>
    obtain ⟨hhead, htail⟩ := along_cons_iff.mp hG
    have hrel := hstep s t b h hhead
    simp only [List.map_cons, exec]
    generalize step s (f b) = u at hrel htail
    generalize step' t b = v at hrel
    cases hrel with
    | none => exact .none
    | some huv => exact ih huv (htail _ rfl)

section Total
variable (f : σ → α → σ)

theorem foldl_history {s₀ : σ} (J : List α → σ → Prop) (h0 : J [] s₀)
    (hstep : ∀ p a, J p (p.foldl f s₀) → J (p ++ [a]) (f (p.foldl f s₀) a)) (as : List α) :
    J as (as.foldl f s₀) := by
  induction as using List.reverseRecOn with
  | nil => exact h0
  | append_singleton as a ih => simpa using hstep as a ih

theorem foldl_invariant {s₀ : σ} (I : σ → Prop) (h0 : I s₀)
    (hstep : ∀ s a, I s → I (f s a)) (as : List α) : I (as.foldl f s₀) :=
  foldl_history f (fun _ s => I s) h0 (fun _ a h => hstep _ a h) as

theorem foldl_always_iff {s₀ : σ} (G : σ → α → Prop) (P : List α → σ → Prop) (h0 : P [] s₀)
    (hstep : ∀ p a, P p (p.foldl f s₀) → (P (p ++ [a]) (f (p.foldl f s₀) a) ↔ G (p.foldl f s₀) a))
    (as : List α) :
    (∀ p, p <+: as → P p (p.foldl f s₀)) ↔
      ∀ p a q, as = p ++ a :: q → G (p.foldl f s₀) a := by
  constructor
  · rintro hP p a q rfl
    refine (hstep p a (hP p (by simp))).mp ?_
    simpa using hP (p ++ [a]) ⟨q, by simp⟩
  · intro hG p hp
    induction p using List.reverseRecOn with
    | nil => exact h0
    | append_singleton p a ih =>
      obtain ⟨q, rfl⟩ := hp
      have hpre := ih ⟨a :: q, by simp⟩
      simpa using (hstep p a hpre).mpr (hG p a q (by simp))

theorem foldl_iff_along {s₀ : σ} (G : σ → α → Prop) (P : σ → Prop) (h0 : P s₀) (as : List α)
    (hstep : ∀ p a q, as = p ++ a :: q →
      (P (f (p.foldl f s₀) a) ↔ P (p.foldl f s₀) ∧ G (p.foldl f s₀) a)) :
    P (as.foldl f s₀) ↔ ∀ p a q, as = p ++ a :: q → G (p.foldl f s₀) a := by
  induction as using List.reverseRecOn with
  | nil => exact iff_of_true h0 fun p a q h => by simp at h
  | append_singleton as a ih =>
    have hlast := hstep as a [] rfl
    rw [ih fun p b q h => hstep p b (q ++ [a]) (by simp [h])] at hlast
    rw [List.foldl_append, List.foldl_cons, List.foldl_nil, hlast]
    constructor
    · rintro ⟨hinit, ha⟩ p b q hsplit
      rcases List.eq_nil_or_concat q with rfl | ⟨q, c, rfl⟩
      · obtain ⟨rfl, hb⟩ := List.append_inj' hsplit rfl
        obtain rfl := (List.cons.inj hb).1
        exact ha
      · have hinit' : as ++ [a] = (p ++ b :: q) ++ [c] := by simpa using hsplit
        exact hinit p b q (List.append_inj' hinit' rfl).1
    · intro hG
      exact ⟨fun p b q h => hG p b (q ++ [a]) (by simp [h]), hG as a [] rfl⟩

end Total

end MybipedalDeploy.Runs
