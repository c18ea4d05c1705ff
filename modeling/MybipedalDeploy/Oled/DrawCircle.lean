import Mathlib.Algebra.Order.Ring.Int
import Mathlib.Data.List.Range
import Mathlib.Tactic.Linarith
import Mathlib.Tactic.LinearCombination
import Mathlib.Tactic.Ring
import MybipedalDeploy.Library.Staircase
import MybipedalDeploy.Oled.OledDriver

/-!
# The circles that are drawn

`drawCircle` goes down a staircase, one point in every column of an octant. The numbers
added to `d` are those for coordinates that have not moved yet, but both have: `d` drifts,
and the arc is that of the radius less one about a centre one to the left and one up.
-/

namespace MybipedalDeploy.Oled
open Staircase (Stairs)

namespace Arc
section Rounds
variable (r : ℤ)

def round (k : ℕ) : Arc := step^[k] (start r)

def height (k : ℕ) : ℤ := (round r k).y

def error (k : ℕ) : ℤ := k ^ 2 + height r k ^ 2 - r ^ 2

variable {r}

theorem height_zero : height r 0 = r := rfl

theorem decision_zero : (round r 0).d = 3 - 2 * r := rfl

theorem round_succ (k : ℕ) : round r (k + 1) = (round r k).step :=
  Function.iterate_succ_apply' step k (start r)

theorem round_x (k : ℕ) : (round r k).x = k := by
  induction k with
  | zero => rfl
  | succ k ih =>
    rw [round_succ, step]
    split_ifs
    · push_cast
      rw [ih]
    · push_cast
      rw [ih]

theorem step_cases (k : ℕ) :
    (0 < (round r k).d ∧ height r (k + 1) = height r k - 1 ∧
      (round r (k + 1)).d = (round r k).d + (4 * (k + 1 - (height r k - 1)) + 10)) ∨
    ((round r k).d ≤ 0 ∧ height r (k + 1) = height r k ∧
      (round r (k + 1)).d = (round r k).d + (4 * (k + 1) + 6)) := by
  rw [height, height, round_succ, step, round_x]
  rcases lt_or_ge 0 (round r k).d with hdown | hflat
  · rw [if_pos hdown]
    exact .inl ⟨hdown, rfl, rfl⟩
  · rw [if_neg (not_lt.mpr hflat)]
    exact .inr ⟨hflat, rfl, rfl⟩

theorem stairs : Stairs (height r) := by
  intro k
  rcases step_cases (r := r) k with ⟨-, hdown, -⟩ | ⟨-, hflat, -⟩
  · exact .inr hdown
  · exact .inl hflat

theorem drift (k : ℕ) :
    2 * ((k + 1 : ℤ) ^ 2 + (height r k - 1) ^ 2 - (r - 1) ^ 2) =
      (round r k).d - 4 * k + 2 * height r k - 1 := by
  induction k with
  | zero =>
    rw [height_zero, decision_zero]
    push_cast
    ring
  | succ k ih =>
    rcases step_cases (r := r) k with ⟨-, hy, hd⟩ | ⟨-, hy, hd⟩
    · rw [hy, hd]
      push_cast
      linear_combination ih
    · rw [hy, hd]
      push_cast
      linear_combination ih

theorem two_mul_error (k : ℕ) :
    2 * error r k = (round r k).d - 8 * k + 6 * height r k - 3 - 4 * r := by
  have hdrift := drift (r := r) k
  unfold error
  linear_combination hdrift

theorem height_le (k : ℕ) : height r k ≤ r := stairs.antitone (Nat.zero_le k)

theorem decision_le (hr : 0 ≤ r) {k : ℕ} (hk : k ≤ height r k) :
    (round r k).d ≤ 4 * k + 6 ∨ (round r k).d ≤ 8 * k - 4 * height r k + 12 := by
  induction k with
  | zero =>
    left
    rw [decision_zero]
    push_cast
    omega
  | succ k ih =>
    push_cast at hk ⊢
    rcases step_cases (r := r) k with ⟨-, hy, hd⟩ | ⟨hflat, hy, hd⟩
    · have hbefore := ih (by omega)
      right
      omega
    · left
      omega

theorem le_decision (hr : 0 ≤ r) (k : ℕ) : 4 * (k - height r k) + 3 ≤ (round r k).d := by
  induction k with
  | zero =>
    rw [height_zero, decision_zero]
    push_cast
    omega
  | succ k ih =>
    rcases step_cases (r := r) k with ⟨hdown, hy, hd⟩ | ⟨-, hy, hd⟩
    · push_cast
      omega
    · push_cast
      omega

/-- For radii below 2^28 `d` stays within 32 bits. -/
theorem abs_decision_le (hr : 0 ≤ r) {k : ℕ} (hk : k ≤ height r k) :
    |(round r k).d| ≤ 4 * r + 12 := by
  have hheight := height_le (r := r) k
  have hle := decision_le hr hk
  have hge := le_decision hr k
  rw [abs_le]
  omega

theorem flattened (hr : 15 ≤ r) {k : ℕ} (hk : k ≤ height r k) (hlast : height r k ≤ k + 1) :
    error r k < -r := by
  have hheight := height_le (r := r) k
  have herror := two_mul_error (r := r) k
  have hbound : 2 * error r k ≤ 2 * height r k + 9 - 4 * r := by
    have hle := decision_le (by omega) hk
    omega
  rcases le_or_gt (height r k) (r - 5) with hlow | hhigh
  · omega
  · -- so high up the point would be further out than the bound allows
    have hcolumn : (r - 5) ^ 2 ≤ (k : ℤ) ^ 2 := pow_le_pow_left₀ (by omega) (by omega) 2
    have htop : (r - 4) ^ 2 ≤ height r k ^ 2 := pow_le_pow_left₀ (by omega) (by omega) 2
    have hfar : (r - 5) ^ 2 + (r - 4) ^ 2 - r ^ 2 ≤ error r k := by
      unfold error
      linarith
    nlinarith

def columns (r : ℤ) : ℕ := (stairs (r := r)).width

theorem lt_columns_iff {k : ℕ} : k < columns r ↔ (k : ℤ) ≤ height r k := stairs.lt_width_iff

def point (r : ℤ) (k : ℕ) : ℤ × ℤ := (k, height r k)

end Rounds
end Arc

def mirrors (p : ℤ × ℤ) : List (ℤ × ℤ) :=
  [(p.1, p.2), (-p.1, p.2), (p.1, -p.2), (-p.1, -p.2),
    (p.2, p.1), (-p.2, p.1), (p.2, -p.1), (-p.2, -p.1)]

def pixels (cx cy : ℤ) (points : List (ℤ × ℤ)) : List (ℤ × ℤ) :=
  (points.flatMap mirrors).map fun q => (cx + q.1, cy + q.2)

theorem sum_sq_of_mem_mirrors {p q : ℤ × ℤ} (hq : q ∈ mirrors p) :
    q.1 ^ 2 + q.2 ^ 2 = p.1 ^ 2 + p.2 ^ 2 := by
  simp only [mirrors, List.mem_cons, List.not_mem_nil, or_false] at hq
  rcases hq with rfl | rfl | rfl | rfl | rfl | rfl | rfl | rfl <;> ring

theorem self_mem_mirrors (p : ℤ × ℤ) : p ∈ mirrors p := List.mem_cons_self

namespace OledDriver

def setPixels (points : List (ℤ × ℤ)) (on : Bool) (d : OledDriver) : OledDriver :=
  points.foldl (fun d p => d.setPixel p.1 p.2 on) d

theorem put8_eq (cx cy : ℤ) (on : Bool) (p : ℤ × ℤ) (d : OledDriver) :
    d.put8 cx cy on p.1 p.2 = d.setPixels (pixels cx cy [p]) on := by
  simp [put8, setPixels, pixels, mirrors, sub_eq_add_neg]

theorem setPixels_cons (cx cy : ℤ) (p : ℤ × ℤ) (points : List (ℤ × ℤ)) (on : Bool)
    (d : OledDriver) : d.setPixels (pixels cx cy (p :: points)) on =
      (d.put8 cx cy on p.1 p.2).setPixels (pixels cx cy points) on := by
  rw [put8_eq, setPixels, setPixels, setPixels, ← List.foldl_append]
  simp [pixels]

end OledDriver

namespace Arc
variable {r : ℤ}

theorem loop_eq (cx cy : ℤ) (on : Bool) (rounds : ℕ) {k : ℕ} (hk : k ≤ columns r)
    (d : OledDriver) : loop cx cy on rounds (round r k) d =
      if columns r - k < rounds then
        let points := (List.range' k (columns r - k)).map (point r)
        some (points, d.setPixels (pixels cx cy points) on)
      else none := by
  induction rounds generalizing k d with
  | zero => rfl
  | succ rounds ih =>
    have hpoint : ((round r k).x, (round r k).y) = point r k := by rw [round_x]; rfl
    have htest : (round r k).y ≥ (round r k).x ↔ k < columns r := by
      rw [round_x, lt_columns_iff]
      rfl
    rw [loop]
    rcases hk.eq_or_lt with rfl | hlt
    · rw [if_neg (htest.not.mpr (lt_irrefl _)), if_pos (by omega), Nat.sub_self]
      rfl
    · have hcolumns : columns r - k = columns r - (k + 1) + 1 := by omega
      rw [if_pos (htest.mpr hlt), ← round_succ, ih hlt, hcolumns, List.range'_succ]
      dsimp only
      rw [List.map_cons, OledDriver.setPixels_cons, ← hpoint]
      by_cases hrounds : columns r - (k + 1) < rounds
      · rw [if_pos hrounds, if_pos (by omega)]
        rfl
      · rw [if_neg hrounds, if_neg (by omega)]
        rfl

def points (r : ℤ) : List (ℤ × ℤ) := (List.range (columns r)).map (point r)

end Arc

/-- The octant of a circle of radius `r`: one point in each column, from the axis up to the
diagonal, and none is left. -/
structure Octant (r : ℤ) (points : List (ℤ × ℤ)) : Prop where
  first : points.head? = some (0, r)
  columns : points.map Prod.fst = (List.range points.length).map Nat.cast
  inside : ∀ p ∈ points, p.1 ≤ p.2
  boundary : ∀ p ∈ points.getLast?, p.2 ≤ p.1 + 1

/-- The points and their images are within half a pixel of the circle. -/
def OnCircle (r : ℤ) (points : List (ℤ × ℤ)) : Prop :=
  ∀ q ∈ points.flatMap mirrors, |q.1 ^ 2 + q.2 ^ 2 - r ^ 2| ≤ r

namespace Arc
variable {r : ℤ}

theorem octant (hr : 0 ≤ r) : Octant r (points r) where
  first := by
    have hsome : 0 < columns r := lt_columns_iff.mpr hr
    obtain ⟨n, hn⟩ := Nat.exists_eq_add_of_lt hsome
    rw [points, hn, List.range_succ_eq_map]
    rfl
  columns := by
    rw [points, List.map_map, List.length_map, List.length_range]
    rfl
  inside := by
    intro p hp
    obtain ⟨k, hk, rfl⟩ := List.mem_map.mp hp
    exact lt_columns_iff.mp (List.mem_range.mp hk)
  boundary := by
    intro p hp
    cases hn : columns r with
    | zero => simp [points, hn] at hp
    | succ k =>
      rw [points, hn, List.range_succ, List.map_append, List.map_singleton,
        List.getLast?_append, List.getLast?_singleton, Option.some_or] at hp
      obtain rfl := Option.some.inj hp
      exact stairs.last_le hn

theorem onCircle_iff : OnCircle r (points r) ↔
    ∀ k : ℕ, (k : ℤ) ≤ height r k → |error r k| ≤ r := by
  constructor
  · intro h k hk
    refine h (point r k) (List.mem_flatMap.mpr ⟨point r k, ?_, self_mem_mirrors _⟩)
    exact List.mem_map_of_mem (List.mem_range.mpr (lt_columns_iff.mpr hk))
  · intro h q hq
    obtain ⟨p, hp, hmirror⟩ := List.mem_flatMap.mp hq
    obtain ⟨k, hk, rfl⟩ := List.mem_map.mp hp
    rw [sum_sq_of_mem_mirrors hmirror]
    exact h k (lt_columns_iff.mp (List.mem_range.mp hk))

theorem small_radii : ∀ r : ℕ, r < 15 →
    ((∀ k : ℕ, k < 15 → (k : ℤ) ≤ height r k → |error r k| ≤ r) ↔ r ≤ 4 ∨ r = 9) := by
  decide +kernel

theorem onCircle_points_iff (r : ℕ) : OnCircle r (points r) ↔ r ≤ 4 ∨ r = 9 := by
  rw [onCircle_iff]
  rcases Nat.lt_or_ge r 15 with hsmall | hlarge
  · rw [← small_radii r hsmall]
    constructor
    · intro h k _ hk
      exact h k hk
    · intro h k hk
      have hheight := height_le (r := r) k
      exact h k (by omega) hk
  · refine iff_of_false (fun h => ?_) (by omega)
    obtain ⟨k, hk⟩ : ∃ k, columns r = k + 1 :=
      Nat.exists_eq_add_one.mpr (lt_columns_iff.mpr (Int.natCast_nonneg r))
    have hinside : (k : ℤ) ≤ height r k := lt_columns_iff.mp (by omega)
    have hflat := flattened (by omega) hinside (stairs.last_le hk)
    have hnear := abs_le.mp (h k hinside)
    omega

end Arc

namespace OledDriver

theorem drawCircle_eq (rounds : ℕ) (cx cy r : ℤ) (on : Bool) (d : OledDriver) :
    d.drawCircle rounds cx cy r on =
      if (Arc.points r).length < rounds then
        some (Arc.points r, d.setPixels (pixels cx cy (Arc.points r)) on)
      else none := by
  have hloop := Arc.loop_eq (r := r) cx cy on rounds (Nat.zero_le _) d
  rw [Nat.sub_zero, ← List.range_eq_range'] at hloop
  rw [Arc.points, List.length_map, List.length_range]
  exact hloop

example (d : OledDriver) :
    (d.drawCircle 4 64 32 3 true).map Prod.fst = some [(0, 3), (1, 3), (2, 2)] := rfl

theorem getPixel_drawCircle (cx cy r : ℤ) (on : Bool) (d : OledDriver) {rounds : ℕ}
    {points : List (ℤ × ℤ)} {d' : OledDriver}
    (h : d.drawCircle rounds cx cy r on = some (points, d')) (x y : ℤ) :
    d'.getPixel x y =
      if ¬ OffScreen x y ∧ (x, y) ∈ pixels cx cy points then on else d.getPixel x y := by
  rw [drawCircle_eq] at h
  split_ifs at h with hrounds
  obtain ⟨rfl, rfl⟩ := Prod.mk.inj (Option.some.inj h)
  exact getPixel_foldl on x y _ d

/-- The loop ends, having plotted an octant of points on the circle with all their images. -/
def DrawsCircle (cx cy r : ℤ) : Prop := ∃ points, Octant r points ∧ OnCircle r points ∧
  ∀ (rounds : ℕ) (on : Bool) (d : OledDriver), d.drawCircle rounds cx cy r on =
    if points.length < rounds then some (points, d.setPixels (pixels cx cy points) on) else none

theorem DrawsCircle.onCircle {cx cy r : ℤ} (h : DrawsCircle cx cy r) :
    OnCircle r (Arc.points r) := by
  obtain ⟨points, -, hround, hdraws⟩ := h
  let rounds := max points.length (Arc.points r).length + 1
  let blank : OledDriver := ⟨List.replicate 1024 0, List.length_replicate⟩
  have hdrawn := hdraws rounds true blank
  rw [drawCircle_eq, if_pos (by omega), if_pos (by omega)] at hdrawn
  obtain ⟨rfl, -⟩ := Prod.mk.inj (Option.some.inj hdrawn)
  exact hround

/-- Radii up to four and nine; every other circle is flattened towards the diagonals. -/
theorem drawsCircle_iff (r : ℕ) (cx cy : ℤ) : DrawsCircle cx cy r ↔ r ≤ 4 ∨ r = 9 := by
  rw [← Arc.onCircle_points_iff]
  constructor
  · exact DrawsCircle.onCircle
  · intro hround
    exact ⟨Arc.points r, Arc.octant (Int.natCast_nonneg r), hround,
      fun rounds on d => drawCircle_eq rounds cx cy r on d⟩

/-- The circle around the tilt dot, of radius 22. -/
theorem tilt_circle_flattened : ¬ DrawsCircle 100 38 22 := by
  intro h
  have hpoint : ((11 : ℕ) : ℤ) ≤ Arc.height 22 11 := by decide +kernel
  have herror := Arc.onCircle_iff.mp h.onCircle 11 hpoint
  revert herror
  decide +kernel

end OledDriver
end MybipedalDeploy.Oled
