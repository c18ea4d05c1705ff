import Mathlib.Algebra.Order.Field.Basic
import MybipedalDeploy.Library.BoxProgram

/-!
# The velocity limiter of the joystick

Each update solves a quadratic program for the rate of change and integrates it. The
solver is a parameter: what it leaves in `xOpt` for the matrix, the gradient and the
bounds it is given.
-/

namespace MybipedalDeploy.JoyStick
open BoxProgram (IsMinimiser InBox scaled)
open Clamp (clamp)

abbrev Solver (K : Type) := (n : ℕ) → (Fin n → Fin n → K) → (Fin n → K) → (Fin n → K) →
  (Fin n → K) → Fin n → K

structure JoyVelLimiter (K : Type) where
  dim : ℕ
  dt : K
  state : Fin dim → K
  lb : Fin dim → K
  ub : Fin dim → K

variable {K : Type} [Field K]

namespace JoyVelLimiter

/-- The constructor with bounds; it throws unless they have the dimension. -/
def create (dim : ℕ) (dt : K) (lb ub : List K) : Except String (JoyVelLimiter K) :=
  if h : lb.length = dim ∧ ub.length = dim then
    .ok { dim := dim
          dt := dt
          state := fun _ => 0
          lb := fun i => lb.get (i.cast h.1.symm)
          ub := fun i => ub.get (i.cast h.2.symm) }
  else .error "Dimension mismatch: sizes of lb and ub must equal dim"

theorem create_eq_ok {dim : ℕ} {dt : K} {lb ub : List K} {l : JoyVelLimiter K}
    (h : create dim dt lb ub = .ok l) :
    l.dim = dim ∧ l.dt = dt ∧ (∀ i, l.state i = 0) ∧ (∀ i, l.lb i ∈ lb) ∧ ∀ i, l.ub i ∈ ub := by
  unfold create at h
  split_ifs at h
  cases h
  exact ⟨rfl, rfl, fun _ => rfl, fun i => List.get_mem _ _, fun i => List.get_mem _ _⟩

def reset (l : JoyVelLimiter K) : JoyVelLimiter K := { l with state := fun _ => 0 }

def rate (solver : Solver K) (l : JoyVelLimiter K) (target : Fin l.dim → K) : Fin l.dim → K :=
  solver l.dim (scaled (l.dt * l.dt)) (fun i => (l.state i - target i) * l.dt) l.lb l.ub

def update (solver : Solver K) (l : JoyVelLimiter K) (target : Fin l.dim → K) : JoyVelLimiter K :=
  { l with state := fun i => l.state i + rate solver l target i * l.dt }

end JoyVelLimiter

variable [LinearOrder K]

/-- The solver returns an exact minimiser of the programs the limiter poses. -/
def Solver.Exact (solver : Solver K) : Prop :=
  ∀ (n : ℕ) (h : K) (g lb ub : Fin n → K), 0 < h → (∀ i, lb i ≤ ub i) →
    IsMinimiser (scaled h) g lb ub (solver n (scaled h) g lb ub)

def boxSolver : Solver K := fun _ H g lb ub i => clamp (lb i) (ub i) (-g i / H i i)

variable [IsStrictOrderedRing K]

theorem boxSolver_exact : (boxSolver : Solver K).Exact := by
  intro n h g lb ub hpos hbox
  refine (BoxProgram.isMinimiser_iff hpos hbox).mpr ?_
  funext i
  simp [boxSolver, scaled]

namespace JoyVelLimiter

theorem update_state {solver : Solver K} (hsolver : solver.Exact) (l : JoyVelLimiter K)
    (hdt : 0 ≤ l.dt) (hbox : ∀ i, l.lb i ≤ l.ub i) (target : Fin l.dim → K) (i : Fin l.dim) :
    (l.update solver target).state i =
      clamp (l.state i + l.lb i * l.dt) (l.state i + l.ub i * l.dt) (target i) := by
  change l.state i + rate solver l target i * l.dt = _
  rcases hdt.eq_or_lt with hzero | hpos
  · simp [← hzero, clamp]
  · have hmin := hsolver l.dim (l.dt * l.dt) (fun i => (l.state i - target i) * l.dt) l.lb l.ub
      (mul_pos hpos hpos) hbox
    have hrate : rate solver l target i =
        clamp (l.lb i) (l.ub i) ((target i - l.state i) / l.dt) := by
      rw [rate, (BoxProgram.isMinimiser_iff (mul_pos hpos hpos) hbox).mp hmin]
      dsimp only
      rw [← neg_mul, neg_sub, mul_div_mul_right _ _ hpos.ne']
    have hstep : Monotone fun x => l.state i + x * l.dt := fun x y hxy =>
      add_le_add_right (mul_le_mul_of_nonneg_right hxy hdt) _
    rw [hrate, Clamp.map_clamp hstep, div_mul_cancel₀ _ hpos.ne', add_sub_cancel]

end JoyVelLimiter
end MybipedalDeploy.JoyStick
