import Mathlib.Algebra.Order.Ring.Rat
import MybipedalDeploy.JoyStick.JoyStickModule

/-!
# The velocity limits

The configured limits bound the rate at which the limiter's state moves, and the state
is what is published. A message is within the limits exactly if neither the stick nor
the rate leads the state out of them, and the limiter has all the axes that are read.
-/

namespace MybipedalDeploy.JoyStick
open Msg (Twist)

variable {K : Type}

theorem JoyVelLimiter.getElem?_values (l : JoyVelLimiter K) (behind : ℕ → K) {i n : ℕ} (h : i < n) :
    (l.values behind n)[i]? = some (if h : i < l.dim then l.state ⟨i, h⟩ else behind i) := by
  simp [JoyVelLimiter.values, h]

def Reading.filled (x : K) (d : Reading K) : Reading K :=
  { d with stray := { d.stray with state := fun _ _ => x } }

theorem MainLoop.schedule_filled (c : Config K) (x : K) (ds : List (Reading K)) :
    schedule c (ds.map (Reading.filled x)) = (schedule c ds).map (Prod.map (Reading.filled x) id) := by
  simp only [schedule, List.flatMap_map, List.map_flatMap, List.map_map]
  rfl

variable [Field K] [LinearOrder K]

def TwistPub.Respects (p : TwistPub K) (msg : Twist K) : Prop :=
  ∀ lb ub, p.limits = some (lb, ub) → ∀ i e, p.axes[i]? = some e →
    lb.getD i 0 ≤ e.1.get msg ∧ e.1.get msg ≤ ub.getD i 0

def Output.Respects (c : Config K) : Output K → Prop
  | .limited k _ msg => ∀ p, c.twistPubs[k]? = some p → p.Respects msg
  | _ => True

def TwistPub.Admissible (p : TwistPub K) : Prop :=
  ∀ lb ub, p.limits = some (lb, ub) → (∀ x ∈ lb, x ≤ 0) ∧ ∀ x ∈ ub, 0 ≤ x

/-- The stick position `t` does not lead the state past `lo` or `hi`: the state may move
to `low` and to `high` in one update. -/
def JoyVelLimiter.Heeds (l : JoyVelLimiter K) (i : Fin l.dim) (lo hi t : K) : Prop :=
  let low := l.state i + l.lb i * l.dt
  let high := l.state i + l.ub i * l.dt
  (low ≤ hi ∧ (t ≤ hi ∨ high ≤ hi)) ∧ (lo ≤ high ∧ (lo ≤ t ∨ lo ≤ low))

/-- A publisher that is active has no more axes than the limiter, and each is heeded. -/
def MainLoop.Heeds (m : MainLoop K) (x : Reading K × Turn K) : Prop :=
  match x.2 with
  | .twist (p, _) => ∀ l, m.limiter = some l → x.1.pressed p.buttons = true →
      ∀ lb ub, p.limits = some (lb, ub) → ∀ i < p.axes.length, ∃ h : i < l.dim,
        l.Heeds ⟨i, h⟩ (lb.getD i 0) (ub.getD i 0) (x.1.target p i)
  | _ => True

def MainLoop.Passes (m : MainLoop K) (x : Reading K × Turn K) : Prop :=
  match x.2 with
  | .twist (p, _) => ∀ l, m.limiter = some l → x.1.pressed p.buttons = true →
      ∀ lb ub, p.limits = some (lb, ub) → ∀ i < p.axes.length,
        if h : i < l.dim then l.Heeds ⟨i, h⟩ (lb.getD i 0) (ub.getD i 0) (x.1.target p i)
        else lb.getD i 0 ≤ x.1.stray.state p.topicName i ∧
          x.1.stray.state p.topicName i ≤ ub.getD i 0
  | _ => True

theorem MainLoop.Heeds.passes {m : MainLoop K} {x : Reading K × Turn K} (h : m.Heeds x) :
    m.Passes x := by
  obtain ⟨d, t⟩ := x
  cases t with
  | twist e =>
    intro l hl hpressed lb ub hlimits i hi
    obtain ⟨hdim, hheeds⟩ := h l hl hpressed lb ub hlimits i hi
    rw [dif_pos hdim]
    exact hheeds
  | _ => trivial

structure JoyVelLimiter.Bounded (l : JoyVelLimiter K) : Prop where
  dt : 0 ≤ l.dt
  lb : ∀ i, l.lb i ≤ 0
  ub : ∀ i, 0 ≤ l.ub i

def MainLoop.Bounded (m : MainLoop K) : Prop := ∀ l, m.limiter = some l → l.Bounded

section Turns
variable (solver : Solver K)

theorem MainLoop.Bounded.turn {m : MainLoop K} (h : m.Bounded) (d : Reading K) (x : Turn K) :
    (m.turn solver d x).Bounded := by
  cases x with
  | float p =>
    rw [MainLoop.turn, MainLoop.floatTurn]
    split_ifs <;> exact h
  | call s =>
    rw [MainLoop.turn, MainLoop.callTurn]
    split_ifs <;> exact h
  | twist e =>
    rw [MainLoop.turn, MainLoop.twistTurn]
    cases hl : m.limiter with
    | none => simpa [hl] using h
    | some l =>
      dsimp only
      split_ifs
      · intro l' hl'
        cases hl'
        obtain ⟨hdt, hlb, hub⟩ := h l hl
        exact ⟨hdt, hlb, hub⟩
      · exact h

variable [IsStrictOrderedRing K]

theorem JoyVelLimiter.Bounded.update_iff {solver : Solver K} (hsolver : solver.Exact)
    {l : JoyVelLimiter K} (hl : l.Bounded) (target : Fin l.dim → K) (i : Fin l.dim) (lo hi : K) :
    (lo ≤ (l.update solver target).state i ∧ (l.update solver target).state i ≤ hi) ↔
      l.Heeds i lo hi (target i) := by
  have hbox : ∀ i, l.lb i ≤ l.ub i := fun i => (hl.lb i).trans (hl.ub i)
  have hstep : l.state i + l.lb i * l.dt ≤ l.state i + l.ub i * l.dt :=
    add_le_add_right (mul_le_mul_of_nonneg_right (hbox i) hl.dt) _
  rw [l.update_state hsolver hl.dt hbox, Clamp.clamp_le_iff, Clamp.le_clamp_iff hstep]
  exact and_comm

theorem respects_iff {solver : Solver K} (hsolver : solver.Exact) {l : JoyVelLimiter K}
    (hl : l.Bounded) (p : TwistPub K) (d : Reading K) (vel : Twist K) :
    p.Respects (writeAxes p.axes ((l.update solver fun i => d.target p i).values
        (d.stray.state p.topicName) p.axes.length) vel) ↔
      ∀ lb ub, p.limits = some (lb, ub) → ∀ i < p.axes.length,
        if h : i < l.dim then l.Heeds ⟨i, h⟩ (lb.getD i 0) (ub.getD i 0) (d.target p i)
        else lb.getD i 0 ≤ d.stray.state p.topicName i ∧
          d.stray.state p.topicName i ≤ ub.getD i 0 := by
  refine forall₃_congr fun lb ub hlimits => ?_
  set msg := writeAxes p.axes ((l.update solver fun i => d.target p i).values
    (d.stray.state p.topicName) p.axes.length) vel
  have hread : ∀ {i e}, p.axes[i]? = some e → i < p.axes.length → e.1.get msg =
      if h : i < l.dim then (l.update solver fun i => d.target p i).state ⟨i, h⟩
      else d.stray.state p.topicName i :=
    fun he hi => get_writeAxes p.axes_nodup he (JoyVelLimiter.getElem?_values _ _ hi)
  have hone : ∀ i (hi : i < p.axes.length),
      (lb.getD i 0 ≤ (p.axes[i]).1.get msg ∧ (p.axes[i]).1.get msg ≤ ub.getD i 0) ↔
        if h : i < l.dim then l.Heeds ⟨i, h⟩ (lb.getD i 0) (ub.getD i 0) (d.target p i)
        else lb.getD i 0 ≤ d.stray.state p.topicName i ∧
          d.stray.state p.topicName i ≤ ub.getD i 0 := by
    intro i hi
    rw [hread (List.getElem?_eq_getElem hi) hi]
    split_ifs with hdim
    · exact hl.update_iff hsolver _ ⟨i, hdim⟩ _ _
    · exact Iff.rfl
  constructor
  · intro h i hi
    exact (hone i hi).mp (h i _ (List.getElem?_eq_getElem hi))
  · intro h i e he
    obtain ⟨hi, rfl⟩ := List.getElem?_eq_some_iff.mp he
    exact (hone i hi).mpr (h i hi)

theorem respects_turn {solver : Solver K} (hsolver : solver.Exact) {c : Config K}
    {m : MainLoop K} (hm : m.Bounded) (d : Reading K) {x : Turn K} (hx : x ∈ c.turns) :
    (∀ o ∈ (m.turn solver d x).log, o.Respects c) ↔
      (∀ o ∈ m.log, o.Respects c) ∧ m.Passes (d, x) := by
  have hemit : ∀ (m' : MainLoop K) (o : Output K), (∀ o' ∈ (m'.emit o).log, o'.Respects c) ↔
      (∀ o' ∈ m'.log, o'.Respects c) ∧ o.Respects c := fun m' o => by
    simp [MainLoop.emit, or_imp, forall_and]
  cases x with
  | float p =>
    rw [MainLoop.turn, MainLoop.floatTurn]
    split_ifs
    · rw [hemit]
      rfl
    · exact (and_iff_left trivial).symm
  | call s =>
    rw [MainLoop.turn, MainLoop.callTurn]
    split_ifs
    · rw [hemit]
      rfl
    · exact (and_iff_left trivial).symm
  | twist e =>
    obtain ⟨p, k⟩ := e
    have hk := Config.getElem?_of_turn hx
    rw [MainLoop.turn, MainLoop.twistTurn]
    cases hl : m.limiter with
    | none => simp [MainLoop.Passes, hl]
    | some l =>
      dsimp only
      split_ifs with hpressed
      · have hlast := respects_iff hsolver (hm l hl) p d (writeAxes p.axes (d.targets p) m.velMsgs)
        rw [hemit, hemit]
        simp only [Output.Respects, hk, Option.some.injEq, forall_eq', and_true, hlast,
          MainLoop.Passes, hl, hpressed, true_implies]
      · simp [MainLoop.Passes, hpressed]

theorem bounded_start {c : Config K} (hc : ∀ p ∈ c.twistPubs, p.Admissible) {m : MainLoop K}
    (h : c.start = .ok m) : m.Bounded := by
  intro l hl
  rcases limiter_of_start h with ⟨-, hnone⟩ | ⟨p, k, lb, ub, l', ho, hlimits, hcreate, hl'⟩
  · rw [hnone] at hl
    cases hl
  · obtain rfl := Option.some.inj (hl.symm.trans hl')
    obtain ⟨-, hdt, -, hlb, hub⟩ := JoyVelLimiter.create_eq_ok hcreate
    obtain ⟨hneg, hpos⟩ := hc p (List.mem_of_getElem? (getElem?_of_owner ho)) lb ub hlimits
    exact ⟨hdt ▸ one_div_nonneg.mpr (Nat.cast_nonneg _), fun i => hneg _ (hlb i),
      fun i => hpos _ (hub i)⟩

theorem respects_run_iff {solver : Solver K} (hsolver : solver.Exact) {c : Config K}
    (hc : ∀ p ∈ c.twistPubs, p.Admissible) {m : MainLoop K} (hm : c.start = .ok m)
    (ds : List (Reading K)) :
    (∀ o ∈ (ds.foldl (MainLoop.cycle solver c) m).log, o.Respects c) ↔
      ∀ p x q, MainLoop.schedule c ds = p ++ x :: q →
        (p.foldl (MainLoop.play solver) m).Passes x := by
  have hlog : ∀ o ∈ m.log, o.Respects c := by
    obtain ⟨l, -, rfl⟩ := start_eq_ok hm
    simp
  rw [MainLoop.foldl_cycle]
  refine Runs.foldl_iff_along _ MainLoop.Passes (fun m => ∀ o ∈ m.log, o.Respects c) hlog _
    fun p x q hsplit => ?_
  have hbounded : (p.foldl (MainLoop.play solver) m).Bounded :=
    Runs.foldl_invariant _ MainLoop.Bounded (bounded_start hc hm)
      (fun m x h => h.turn solver x.1 x.2) p
  have hx : x ∈ MainLoop.schedule c ds := by simp [hsplit]
  exact respects_turn hsolver hbounded x.1 (MainLoop.mem_schedule hx).2

theorem heeds_of_passes (solver : Solver K) {c : Config K} {m : MainLoop K} {ds : List (Reading K)}
    (h : ∀ x, ∀ p e q, MainLoop.schedule c (ds.map (Reading.filled x)) = p ++ e :: q →
      (p.foldl (MainLoop.play solver) m).Passes e)
    {p q : List (Reading K × Turn K)} {e : Reading K × Turn K}
    (hsplit : MainLoop.schedule c ds = p ++ e :: q)
    (he : (p.foldl (MainLoop.play solver) m).Passes e) :
    (p.foldl (MainLoop.play solver) m).Heeds e := by
  obtain ⟨d, t⟩ := e
  cases t with
  | float _ => trivial
  | call _ => trivial
  | twist pub =>
    intro l hl hpressed lb ub hlimits i hi
    have hpasses := he l hl hpressed lb ub hlimits i hi
    by_cases hdim : i < l.dim
    case pos => exact ⟨hdim, (dif_pos hdim).mp hpasses⟩
    -- With a value above the limit behind the state, the turn would not pass.
    let x := ub.getD i 0 + 1
    let p' := p.map (Prod.map (Reading.filled x) id)
    have hfilled : (p'.foldl (MainLoop.play solver) m).Passes (d.filled x, .twist pub) := by
      refine h x p' _ (q.map (Prod.map (Reading.filled x) id)) ?_
      rw [MainLoop.schedule_filled, hsplit, List.map_append]
      rfl
    have hsame : (p'.foldl (MainLoop.play solver) m).limiter.map JoyVelLimiter.dim = some l.dim := by
      rw [MainLoop.foldl_play_dim, ← MainLoop.foldl_play_dim solver m p, hl, Option.map_some]
    obtain ⟨l', hl', hdim'⟩ := Option.map_eq_some_iff.mp hsame
    have hat := hfilled l' hl' hpressed lb ub hlimits i hi
    rw [dif_neg (by rwa [hdim'])] at hat
    exact absurd hat.2 (not_le.mpr (lt_add_one _))

end Turns

section Held

def pushed : List (Reading ℚ) := List.replicate 21 ⟨⟨[0, 1, 0], [0, 0, 0, 0, 1]⟩, .zero ℚ⟩

def pushedLog : List (Output ℚ) :=
  (pushed.foldl (MainLoop.cycle boxSolver threeAxes) (loopOf threeAxes)).log

def tooFast : Output ℚ → Bool
  | .limited 0 _ msg => decide (1 / 2 < msg.linear.x)
  | _ => false

theorem admissible_threeAxes : ∀ p ∈ threeAxes.twistPubs, p.Admissible := by
  intro p hp lb ub h
  obtain rfl := List.mem_singleton.mp hp
  cases h
  decide +kernel

theorem pushed_tooFast : ¬ ∀ o ∈ pushedLog, o.Respects threeAxes := by
  have hfast : pushedLog.any tooFast = true := by decide +kernel
  obtain ⟨o, ho, htoo⟩ := List.any_eq_true.mp hfast
  intro h
  unfold tooFast at htoo
  split at htoo
  · rename_i msg
    have hrespects := h _ ho _ rfl _ _ rfl 0 (.linearX, 1) (by decide)
    have hle : msg.linear.x ≤ 1 / 2 := hrespects.2
    exact absurd (of_decide_eq_true htoo) (not_lt.mpr hle)
  · cases htoo

end Held
end MybipedalDeploy.JoyStick
