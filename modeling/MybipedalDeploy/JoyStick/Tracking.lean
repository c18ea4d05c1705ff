import Mathlib.Algebra.Order.Archimedean.Basic
import MybipedalDeploy.JoyStick.VelocityLimits
import MybipedalDeploy.Library.Pursuit

/-!
# Tracking of the stick

Each component of the limiter's state pursues its component of the targets, with the
moves that the rates allow in one update, and nothing else of the limiter has a part in it.
-/

namespace MybipedalDeploy.JoyStick.JoyVelLimiter
open Clamp (clamp)
open Pursuit (pursue)

variable {K : Type} [Field K]

def states (solver : Solver K) (l : JoyVelLimiter K) (target : ℕ → Fin l.dim → K) :
    ℕ → Fin l.dim → K
  | 0 => l.state
  | n + 1 => (({ l with state := states solver l target n } : JoyVelLimiter K).update solver
      (target n)).state

variable [LinearOrder K] [IsStrictOrderedRing K]

theorem update_state_eq_move {solver : Solver K} (hsolver : solver.Exact) {l : JoyVelLimiter K}
    (hl : l.Bounded) (target : Fin l.dim → K) (i : Fin l.dim) :
    (l.update solver target).state i =
      Pursuit.move (l.dt * l.lb i) (l.dt * l.ub i) (l.state i) (target i) := by
  have hbox : ∀ i, l.lb i ≤ l.ub i := fun i => (hl.lb i).trans (hl.ub i)
  have hshift : Monotone fun x => l.state i + x := fun _ _ h => add_le_add_right h _
  rw [l.update_state hsolver hl.dt hbox, Pursuit.move, Clamp.map_clamp hshift, add_sub_cancel,
    mul_comm l.dt, mul_comm l.dt]

theorem states_eq_pursue {solver : Solver K} (hsolver : solver.Exact) {l : JoyVelLimiter K}
    (hl : l.Bounded) (target : ℕ → Fin l.dim → K) (i : Fin l.dim) (n : ℕ) :
    l.states solver target n i =
      pursue (l.dt * l.lb i) (l.dt * l.ub i) (fun k => target k i) (l.state i) n := by
  induction n with
  | zero => rfl
  | succ n ih =>
    have hbounded : ({ l with state := l.states solver target n } : JoyVelLimiter K).Bounded :=
      ⟨hl.dt, hl.lb, hl.ub⟩
    rw [pursue, ← ih]
    exact update_state_eq_move hsolver hbounded (target n) i

theorem add_mul_clamp_rate {dt lb ub x t : K} (hdt : 0 < dt) :
    x + dt * clamp lb ub ((t - x) / dt) = Pursuit.move (dt * lb) (dt * ub) x t := by
  have hscale : Monotone fun y => dt * y := fun _ _ h => mul_le_mul_of_nonneg_left h hdt.le
  rw [Pursuit.move, Clamp.map_clamp hscale, mul_div_cancel₀ _ hdt.ne']

/-- Every component of the state follows the stick: it gains the cut rate times the
period, stays between where it was and the target, depends on its own component only,
and reaches a target that is held, to stay there. -/
theorem tracking [Archimedean K] {solver : Solver K} (hsolver : solver.Exact)
    (l : JoyVelLimiter K) (hl : l.Bounded) (hdt : 0 < l.dt) (target : ℕ → Fin l.dim → K)
    (i : Fin l.dim) :
    let x := fun n => l.states solver target n i
    (∀ n, x (n + 1) = x n + l.dt * clamp (l.lb i) (l.ub i) ((target n i - x n) / l.dt) ∧
      x (n + 1) ∈ Set.uIcc (x n) (target n i) ∧
      x (n + 1) - x n ∈ Set.Icc (l.dt * l.lb i) (l.dt * l.ub i)) ∧
    (∀ (l' : JoyVelLimiter K) (target' : ℕ → Fin l'.dim → K) (i' : Fin l'.dim), l'.Bounded →
      l'.dt = l.dt → l'.lb i' = l.lb i → l'.ub i' = l.ub i → l'.state i' = l.state i →
      (∀ n, target' n i' = target n i) → ∀ n, l'.states solver target' n i' = x n) ∧
    (l.lb i < 0 → 0 < l.ub i → ∀ t m, (∀ n ≥ m, target n i = t) → ∃ N, ∀ n ≥ N, x n = t) := by
  intro x
  have hlo : l.dt * l.lb i ≤ 0 := mul_nonpos_of_nonneg_of_nonpos hl.dt (hl.lb i)
  have hhi : 0 ≤ l.dt * l.ub i := mul_nonneg hl.dt (hl.ub i)
  have hx : ∀ n, x n = pursue (l.dt * l.lb i) (l.dt * l.ub i) (fun k => target k i) (l.state i) n :=
    states_eq_pursue hsolver hl target i
  have hmove : ∀ n, x (n + 1) =
      Pursuit.move (l.dt * l.lb i) (l.dt * l.ub i) (x n) (target n i) := by
    intro n
    rw [hx, hx, pursue]
  refine ⟨fun n => ⟨?_, ?_, ?_⟩, ?_, ?_⟩
  · rw [add_mul_clamp_rate hdt, hmove]
  · rw [hmove]
    exact Pursuit.move_mem_uIcc hlo hhi
  · rw [hmove]
    exact Pursuit.move_sub_mem (hlo.trans hhi)
  · intro l' target' i' hl' hdt' hlb hub hstate htarget n
    rw [states_eq_pursue hsolver hl', hx, hdt', hlb, hub, hstate, funext htarget]
  · intro hlb hub t m hrest
    obtain ⟨N, hN⟩ := Pursuit.pursue_arrives (x := l.state i) (mul_neg_of_pos_of_neg hdt hlb)
      (mul_pos hdt hub) hrest
    exact ⟨N, fun n hn => (hx n).trans (hN n hn)⟩

def twoAxes : JoyVelLimiter ℚ := ⟨2, 1 / 4, fun _ => 0, fun _ => -1, fun _ => 2⟩

def pushed : ℕ → Fin twoAxes.dim → ℚ := fun _ => ![1, -1]

theorem tracking_twoAxes : ∃ N, ∀ n ≥ N, twoAxes.states boxSolver pushed n ⟨1, by decide⟩ = -1 :=
  (tracking boxSolver_exact twoAxes ⟨by decide +kernel, by decide +kernel, by decide +kernel⟩
    (by decide +kernel) pushed ⟨1, by decide⟩).2.2 (by decide +kernel) (by decide +kernel) (-1) 0
    fun _ _ => rfl

end MybipedalDeploy.JoyStick.JoyVelLimiter
