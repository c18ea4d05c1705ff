import Mathlib.Data.List.Basic

/-!
# Threads made of atomic sections

A thread holds one lock at a time, so it is a sequence of atomic sections; what
the other threads do lands between two of them. `look` reads data that no thread
changes and is not a section. Loops that give up at the first failure are
`forAll`; nested ones are one loop over the concatenated work.
-/

namespace MybipedalDeploy.Threads

inductive Thread (σ : Type*) (α : Type*)
  | ret (a : α)
  | look (next : σ → Thread σ α)
  | step (act : σ → σ) (next : σ → Thread σ α)

structure Outcome (σ : Type*) (α : Type*) where
  value : α
  tick : ℕ
  state : σ

namespace Thread
variable {σ τ α β γ ι : Type*}

def bind : Thread σ α → (α → Thread σ β) → Thread σ β
  | .ret a, k => k a
  | .look next, k => .look fun s => (next s).bind k
  | .step act next, k => .step act fun s => (next s).bind k

theorem bind_assoc (t : Thread σ α) (f : α → Thread σ β) (g : β → Thread σ γ) :
    (t.bind f).bind g = t.bind fun a => (f a).bind g := by
  induction t with
  | ret a => rfl
  | look next ih => exact congrArg Thread.look (funext ih)
  | step act next ih => exact congrArg (Thread.step act) (funext ih)

def exec (act : σ → σ) : Thread σ Unit := .step act fun _ => .ret ()

/-- Execution among other threads: `env n` is what they do before section `n`. -/
def run (env : ℕ → σ → σ) : Thread σ α → ℕ → σ → Outcome σ α
  | .ret a, n, s => ⟨a, n, s⟩
  | .look next, n, s => (next s).run env n s
  | .step act next, n, s => (next (env n s)).run env (n + 1) (act (env n s))

theorem run_bind (env : ℕ → σ → σ) (t : Thread σ α) (k : α → Thread σ β) (n : ℕ) (s : σ) :
    (t.bind k).run env n s =
      (k (t.run env n s).value).run env (t.run env n s).tick (t.run env n s).state := by
  induction t generalizing n s with
  | ret a => rfl
  | look next ih => exact ih s n s
  | step act next ih => exact ih (env n s) (n + 1) (act (env n s))

theorem le_run_tick (env : ℕ → σ → σ) (t : Thread σ α) (n : ℕ) (s : σ) :
    n ≤ (t.run env n s).tick := by
  induction t generalizing n s with
  | ret a => exact Nat.le_refl n
  | look next ih => exact ih s n s
  | step act next ih => exact Nat.le_of_succ_le (ih (env n s) (n + 1) (act (env n s)))

def advance : Thread σ α → σ → Thread σ α × σ
  | .ret a, s => (.ret a, s)
  | .look next, s => (next s).advance s
  | .step act next, s => (next s, act s)

def Sections (P : (σ → σ) → Prop) : Thread σ α → Prop
  | .ret _ => True
  | .look next => ∀ s, (next s).Sections P
  | .step act next => P act ∧ ∀ s, (next s).Sections P

theorem Sections.bind {P : (σ → σ) → Prop} {t : Thread σ α} {k : α → Thread σ β}
    (ht : t.Sections P) (hk : ∀ a, (k a).Sections P) : (t.bind k).Sections P := by
  induction t with
  | ret a => exact hk a
  | look next ih => exact fun s => ih s (ht s)
  | step act next ih => exact ⟨ht.1, fun s => ih s (ht.2 s)⟩

theorem Sections.advance {P : (σ → σ) → Prop} {t : Thread σ α} (ht : t.Sections P) (s : σ) :
    (t.advance s).1.Sections P := by
  induction t with
  | ret a => trivial
  | look next ih => exact ih s (ht s)
  | step act next ih => exact ht.2 s

theorem advance_invariant {I : σ → Prop} {t : Thread σ α}
    (ht : t.Sections fun act => ∀ s, I s → I (act s)) {s : σ} (hs : I s) : I (t.advance s).2 := by
  induction t with
  | ret a => exact hs
  | look next ih => exact ih s (ht s)
  | step act next ih => exact ht.1 s hs

/-- What the sections and the other threads keep, a run keeps. -/
theorem run_invariant {I : σ → Prop} {env : ℕ → σ → σ} (henv : ∀ n s, I s → I (env n s))
    {t : Thread σ α} (ht : t.Sections fun act => ∀ s, I s → I (act s)) {n : ℕ} {s : σ}
    (hs : I s) : I (t.run env n s).state := by
  induction t generalizing n s with
  | ret a => exact hs
  | look next ih => exact ih s (ht s) hs
  | step act next ih => exact ih _ (ht.2 _) (ht.1 _ (henv n s hs))

section Lift
variable (get : τ → σ) (put : τ → σ → τ)

def lift : Thread σ α → Thread τ α
  | .ret a => .ret a
  | .look next => .look fun t => (next (get t)).lift
  | .step act next => .step (fun t => put t (act (get t))) fun t => (next (get t)).lift

theorem lift_bind (t : Thread σ α) (k : α → Thread σ β) :
    (t.bind k).lift get put = (t.lift get put).bind fun a => (k a).lift get put := by
  induction t with
  | ret a => rfl
  | look next ih => exact congrArg Thread.look (funext fun s => ih (get s))
  | step act next ih => exact congrArg (Thread.step _) (funext fun s => ih (get s))

theorem run_lift (hget : ∀ t s, get (put t s) = s) (hput : ∀ t s s', put (put t s) s' = put t s')
    (hsame : ∀ t, put t (get t) = t) {env : ℕ → σ → σ} {env' : ℕ → τ → τ}
    (henv : ∀ n t, env' n t = put t (env n (get t))) (th : Thread σ α) (n : ℕ) (t : τ) :
    (th.lift get put).run env' n t =
      let r := th.run env n (get t)
      ⟨r.value, r.tick, put t r.state⟩ := by
  induction th generalizing n t with
  | ret a => simp [lift, run, hsame]
  | look next ih => exact ih (get t) n t
  | step act next ih => simp only [lift, run, henv, ih, hget, hput]

theorem Sections.lift {P : (σ → σ) → Prop} {Q : (τ → τ) → Prop}
    (h : ∀ act, P act → Q fun t => put t (act (get t))) {t : Thread σ α} (ht : t.Sections P) :
    (t.lift get put).Sections Q := by
  induction t with
  | ret a => trivial
  | look next ih => exact fun s => ih (get s) (ht (get s))
  | step act next ih => exact ⟨h act ht.1, fun s => ih (get s) (ht.2 (get s))⟩

end Lift

section Loops

/-- `for (x : xs) if (!body(x)) return false; return true;` -/
def forAll (body : ι → Thread σ Bool) : List ι → Thread σ Bool
  | [] => .ret true
  | x :: xs => (body x).bind fun ok => if ok then forAll body xs else .ret false

theorem forAll_append (body : ι → Thread σ Bool) (xs ys : List ι) :
    forAll body (xs ++ ys) =
      (forAll body xs).bind fun ok => if ok then forAll body ys else .ret false := by
  induction xs with
  | nil => rfl
  | cons x xs ih =>
    simp only [List.cons_append, forAll, bind_assoc]
    refine congrArg _ (funext fun ok => ?_)
    cases ok with
    | false => rfl
    | true => exact ih

theorem forAll_flatMap {κ : Type*} (body : ι → Thread σ Bool) (f : κ → List ι) (ks : List κ) :
    forAll body (ks.flatMap f) = forAll (fun k => forAll body (f k)) ks := by
  induction ks with
  | nil => rfl
  | cons k ks ih => rw [List.flatMap_cons, forAll_append, forAll, ih]

theorem forAll_map {κ : Type*} (body : ι → Thread σ Bool) (f : κ → ι) (ks : List κ) :
    forAll body (ks.map f) = forAll (fun k => body (f k)) ks := by
  induction ks with
  | nil => rfl
  | cons k ks ih => rw [List.map_cons, forAll, forAll, ih]

theorem lift_forAll (get : τ → σ) (put : τ → σ → τ) (body : ι → Thread σ Bool) (xs : List ι) :
    (forAll body xs).lift get put = forAll (fun x => (body x).lift get put) xs := by
  induction xs with
  | nil => rfl
  | cons x xs ih =>
    simp only [forAll, lift_bind]
    refine congrArg _ (funext fun ok => ?_)
    cases ok with
    | false => rfl
    | true => exact ih

theorem Sections.forAll {P : (σ → σ) → Prop} {body : ι → Thread σ Bool}
    (h : ∀ x, (body x).Sections P) (xs : List ι) : (forAll body xs).Sections P := by
  induction xs with
  | nil => trivial
  | cons x xs ih =>
    refine (h x).bind fun ok => ?_
    cases ok with
    | false => trivial
    | true => exact ih

theorem run_forAll_cons (env : ℕ → σ → σ) (body : ι → Thread σ Bool) (x : ι) (xs : List ι)
    (n : ℕ) (s : σ) :
    (Thread.forAll body (x :: xs)).run env n s =
      let r := (body x).run env n s
      if r.value then (Thread.forAll body xs).run env r.tick r.state
      else ⟨false, r.tick, r.state⟩ := by
  simp only [Thread.forAll, run_bind]
  cases ((body x).run env n s).value <;> rfl

/-- `for (x : xs) if (!body(x)) ok = false;`: every body runs. -/
def forEach (body : ι → Thread σ Bool) : List ι → Thread σ Bool
  | [] => .ret true
  | x :: xs => (body x).bind fun ok => (forEach body xs).bind fun rest => .ret (ok && rest)

/-- `for (i = 0; i < m; ++i) { last = read(); if (last == want) break; }`, one section a round. -/
def poll [DecidableEq β] (act : σ → σ) (read : σ → β) (want : β) : ℕ → β → Thread σ β
  | 0, last => .ret last
  | m + 1, _ => .step act fun s => if read s = want then .ret want else poll act read want m (read s)

theorem run_poll_succ [DecidableEq β] (env : ℕ → σ → σ) (act : σ → σ) (read : σ → β) (want : β)
    (m : ℕ) (last : β) (n : ℕ) (s : σ) :
    (poll act read want (m + 1) last).run env n s =
      if read (env n s) = want then ⟨want, n + 1, act (env n s)⟩
      else (poll act read want m (read (env n s))).run env (n + 1) (act (env n s)) := by
  simp only [poll, run]
  split_ifs <;> rfl

def seen (env : ℕ → σ → σ) (act : σ → σ) (n : ℕ) (s : σ) : ℕ → σ
  | 0 => env n s
  | i + 1 => env (n + (i + 1)) (act (seen env act n s i))

theorem seen_succ (env : ℕ → σ → σ) (act : σ → σ) (n : ℕ) (s : σ) (i : ℕ) :
    seen env act n s (i + 1) = seen env act (n + 1) (act (env n s)) i := by
  induction i with
  | zero => rfl
  | succ i ih => rw [seen, ih, seen, show n + (i + 1 + 1) = n + 1 + (i + 1) by omega]

theorem run_poll_value [DecidableEq β] (env : ℕ → σ → σ) (act : σ → σ) (read : σ → β) (want : β)
    (m : ℕ) {last : β} (hlast : last ≠ want) (n : ℕ) (s : σ) :
    ((poll act read want m last).run env n s).value = want ↔
      ∃ i, i < m ∧ read (seen env act n s i) = want := by
  induction m generalizing last n s with
  | zero => simp [poll, run, hlast]
  | succ m ih =>
    rw [run_poll_succ]
    -- The loop is left in its first round, or round `i` of the rest is round `i + 1` of it.
    by_cases hread : read (env n s) = want
    · simp only [if_pos hread, true_iff]
      exact ⟨0, by omega, hread⟩
    · rw [if_neg hread, ih hread]
      constructor
      · rintro ⟨i, hi, h⟩
        exact ⟨i + 1, by omega, by rwa [seen_succ]⟩
      · rintro ⟨i, hi, h⟩
        cases i with
        | zero => exact absurd h hread
        | succ i => exact ⟨i, by omega, by rwa [seen_succ] at h⟩

theorem lift_poll [DecidableEq β] (get : τ → σ) (put : τ → σ → τ) (act : σ → σ) (read : σ → β)
    (want : β) (m : ℕ) (last : β) :
    (poll act read want m last).lift get put =
      poll (fun t => put t (act (get t))) (fun t => read (get t)) want m last := by
  induction m generalizing last with
  | zero => rfl
  | succ m ih =>
    simp only [poll, lift]
    refine congrArg (Thread.step _) (funext fun t => ?_)
    split_ifs
    · rfl
    · exact ih _

theorem Sections.poll [DecidableEq β] {P : (σ → σ) → Prop} {act : σ → σ} (h : P act)
    (read : σ → β) (want : β) (m : ℕ) (last : β) : (poll act read want m last).Sections P := by
  induction m generalizing last with
  | zero => trivial
  | succ m ih =>
    refine ⟨h, fun s => ?_⟩
    dsimp only
    split_ifs
    · trivial
    · exact ih _

theorem run_forEach_cons (env : ℕ → σ → σ) (body : ι → Thread σ Bool) (x : ι) (xs : List ι)
    (n : ℕ) (s : σ) :
    (forEach body (x :: xs)).run env n s =
      let r := (body x).run env n s
      let rest := (forEach body xs).run env r.tick r.state
      ⟨r.value && rest.value, rest.tick, rest.state⟩ := by
  simp only [forEach, run_bind, run]

theorem Sections.forEach {P : (σ → σ) → Prop} {body : ι → Thread σ Bool}
    (h : ∀ x, (body x).Sections P) (xs : List ι) : (forEach body xs).Sections P := by
  induction xs with
  | nil => trivial
  | cons x xs ih => exact (h x).bind fun _ => ih.bind fun _ => trivial

end Loops
end Thread
end MybipedalDeploy.Threads
