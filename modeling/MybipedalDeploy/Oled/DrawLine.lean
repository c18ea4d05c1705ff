import Mathlib.Algebra.Order.Field.Basic
import Mathlib.Algebra.Order.Field.Rat
import Mathlib.Algebra.Order.Ring.Abs
import Mathlib.Data.List.Range
import Mathlib.Tactic.FieldSimp
import Mathlib.Tactic.Ring
import MybipedalDeploy.Library.DigitalLine
import MybipedalDeploy.Oled.OledDriver

/-!
# The lines that are drawn

The cursor of `drawLine` goes through the points of a digital line along the longer axis,
and its error term is the slack of that line, with the sign of the axis.
-/

namespace MybipedalDeploy.Oled
open DigitalLine (rise slack)

namespace Line

section Cursors
variable (x0 y0 x1 y1 : ℤ)

def length : ℕ := max (x1 - x0).natAbs (y1 - y0).natAbs

def cursor (i : ℕ) : Cursor :=
  let l := between x0 y0 x1 y1
  let dx := (x1 - x0).natAbs
  let dy := (y1 - y0).natAbs
  if dy < dx then ⟨x0 + l.sx * i, y0 + l.sy * rise dx dy i, slack dx dy i⟩
  else ⟨x0 + l.sx * rise dy dx i, y0 + l.sy * i, -slack dy dx i⟩

def point (i : ℕ) : ℤ × ℤ := ((cursor x0 y0 x1 y1 i).x0, (cursor x0 y0 x1 y1 i).y0)

theorem sign_mul (a b : ℤ) : (if a < b then 1 else -1) * ((b - a).natAbs : ℤ) = b - a := by
  split_ifs <;> omega

variable {x0 y0 x1 y1}

theorem cursor_flat (h : (y1 - y0).natAbs < (x1 - x0).natAbs) (i : ℕ) : cursor x0 y0 x1 y1 i =
    ⟨x0 + (between x0 y0 x1 y1).sx * i,
      y0 + (between x0 y0 x1 y1).sy * rise (x1 - x0).natAbs (y1 - y0).natAbs i,
      slack (x1 - x0).natAbs (y1 - y0).natAbs i⟩ :=
  if_pos h

theorem cursor_steep (h : (x1 - x0).natAbs ≤ (y1 - y0).natAbs) (i : ℕ) : cursor x0 y0 x1 y1 i =
    ⟨x0 + (between x0 y0 x1 y1).sx * rise (y1 - y0).natAbs (x1 - x0).natAbs i,
      y0 + (between x0 y0 x1 y1).sy * i, -slack (y1 - y0).natAbs (x1 - x0).natAbs i⟩ :=
  if_neg (Nat.not_lt.mpr h)

theorem dx_eq : (between x0 y0 x1 y1).dx = (x1 - x0).natAbs := Int.abs_eq_natAbs _

theorem dy_eq : (between x0 y0 x1 y1).dy = (y1 - y0).natAbs := Int.abs_eq_natAbs _

theorem start_eq : (between x0 y0 x1 y1).start x0 y0 = cursor x0 y0 x1 y1 0 := by
  have hhalf : ∀ n : ℕ, (n : ℤ).tdiv 2 = (n / 2 : ℕ) := fun _ => rfl
  rw [start, dx_eq, dy_eq]
  rcases Nat.lt_or_ge (y1 - y0).natAbs (x1 - x0).natAbs with hflat | hsteep
  · rw [cursor_flat hflat, DigitalLine.rise_zero.1, DigitalLine.rise_zero.2, if_pos (by omega),
      hhalf]
    simp only [Nat.cast_zero, mul_zero, add_zero]
  · rw [cursor_steep hsteep, DigitalLine.rise_zero.1, DigitalLine.rise_zero.2, if_neg (by omega),
      Int.neg_tdiv, hhalf]
    simp only [Nat.cast_zero, mul_zero, add_zero]

theorem step_flat (h : (y1 - y0).natAbs < (x1 - x0).natAbs) (i : ℕ) :
    (between x0 y0 x1 y1).step (cursor x0 y0 x1 y1 i) = cursor x0 y0 x1 y1 (i + 1) := by
  rw [cursor_flat h, cursor_flat h, step, dx_eq, dy_eq]
  generalize (between x0 y0 x1 y1).sx = sx
  generalize (between x0 y0 x1 y1).sy = sy
  generalize (x1 - x0).natAbs = dx at h ⊢
  generalize (y1 - y0).natAbs = dy at h ⊢
  have hlong : (slack dx dy i : ℤ) > -dx := by omega
  rw [if_pos hlong]
  dsimp only
  rcases Nat.lt_or_ge (slack dx dy i) dy with hup | hstay
  · obtain ⟨hrise, hslack⟩ := DigitalLine.rise_succ_of_lt h.le hup
    rw [if_pos (Int.ofNat_lt.mpr hup), hrise, hslack, Cursor.mk.injEq]
    refine ⟨?_, ?_, by omega⟩
    · push_cast
      ring
    · push_cast
      ring
  · obtain ⟨hrise, hslack⟩ := DigitalLine.rise_succ_of_le (by omega) hstay
    rw [if_neg (by omega), hrise, hslack, Cursor.mk.injEq]
    refine ⟨?_, rfl, by omega⟩
    push_cast
    ring

theorem step_steep (h : (x1 - x0).natAbs ≤ (y1 - y0).natAbs) (hlong : 0 < (y1 - y0).natAbs)
    (i : ℕ) : (between x0 y0 x1 y1).step (cursor x0 y0 x1 y1 i) = cursor x0 y0 x1 y1 (i + 1) := by
  rw [cursor_steep h, cursor_steep h, step, dx_eq, dy_eq]
  generalize (between x0 y0 x1 y1).sx = sx
  generalize (between x0 y0 x1 y1).sy = sy
  generalize (x1 - x0).natAbs = dx at h ⊢
  generalize (y1 - y0).natAbs = dy at h hlong ⊢
  have hmoves : (-slack dy dx i : ℤ) < dy := by omega
  dsimp only
  rw [if_pos hmoves]
  rcases Nat.lt_or_ge (slack dy dx i) dx with hup | hstay
  · have htest : (-slack dy dx i : ℤ) > -dx := by omega
    obtain ⟨hrise, hslack⟩ := DigitalLine.rise_succ_of_lt h hup
    rw [if_pos htest, hrise, hslack, Cursor.mk.injEq]
    refine ⟨?_, ?_, by dsimp only; omega⟩
    · push_cast
      ring
    · push_cast
      ring
  · have htest : ¬ (-slack dy dx i : ℤ) > -dx := by omega
    obtain ⟨hrise, hslack⟩ := DigitalLine.rise_succ_of_le hlong hstay
    rw [if_neg htest, hrise, hslack, Cursor.mk.injEq]
    refine ⟨rfl, ?_, by dsimp only; omega⟩
    push_cast
    ring

theorem step_cursor {i : ℕ} (hi : i < length x0 y0 x1 y1) :
    (between x0 y0 x1 y1).step (cursor x0 y0 x1 y1 i) = cursor x0 y0 x1 y1 (i + 1) := by
  unfold length at hi
  rcases Nat.lt_or_ge (y1 - y0).natAbs (x1 - x0).natAbs with hflat | hsteep
  · exact step_flat hflat i
  · exact step_steep hsteep (by omega) i

theorem point_flat (h : (y1 - y0).natAbs < (x1 - x0).natAbs) (i : ℕ) : point x0 y0 x1 y1 i =
    (x0 + (between x0 y0 x1 y1).sx * i,
      y0 + (between x0 y0 x1 y1).sy * rise (x1 - x0).natAbs (y1 - y0).natAbs i) := by
  rw [point, cursor_flat h]

theorem point_steep (h : (x1 - x0).natAbs ≤ (y1 - y0).natAbs) (i : ℕ) : point x0 y0 x1 y1 i =
    (x0 + (between x0 y0 x1 y1).sx * rise (y1 - y0).natAbs (x1 - x0).natAbs i,
      y0 + (between x0 y0 x1 y1).sy * i) := by
  rw [point, cursor_steep h]

theorem sx_mul : (between x0 y0 x1 y1).sx * (x1 - x0).natAbs = x1 - x0 := sign_mul x0 x1

theorem sy_mul : (between x0 y0 x1 y1).sy * (y1 - y0).natAbs = y1 - y0 := sign_mul y0 y1

theorem point_zero : point x0 y0 x1 y1 0 = (x0, y0) := by
  rcases Nat.lt_or_ge (y1 - y0).natAbs (x1 - x0).natAbs with hflat | hsteep
  · rw [point_flat hflat, DigitalLine.rise_zero.1]
    simp
  · rw [point_steep hsteep, DigitalLine.rise_zero.1]
    simp

theorem point_length : point x0 y0 x1 y1 (length x0 y0 x1 y1) = (x1, y1) := by
  rcases Nat.lt_or_ge (y1 - y0).natAbs (x1 - x0).natAbs with hflat | hsteep
  · rw [length, Nat.max_eq_left hflat.le, point_flat hflat, DigitalLine.rise_end hflat.le, sx_mul,
      sy_mul, add_sub_cancel, add_sub_cancel]
  · rw [length, Nat.max_eq_right hsteep, point_steep hsteep, DigitalLine.rise_end hsteep, sx_mul,
      sy_mul, add_sub_cancel, add_sub_cancel]

theorem point_ne {i : ℕ} (hi : i < length x0 y0 x1 y1) : point x0 y0 x1 y1 i ≠ (x1, y1) := by
  have hsx : (between x0 y0 x1 y1).sx = if x0 < x1 then 1 else -1 := rfl
  have hsy : (between x0 y0 x1 y1).sy = if y0 < y1 then 1 else -1 := rfl
  unfold length at hi
  intro h
  rcases Nat.lt_or_ge (y1 - y0).natAbs (x1 - x0).natAbs with hflat | hsteep
  · rw [point_flat hflat, Prod.mk.injEq, hsx] at h
    have hx := h.1
    split_ifs at hx <;> omega
  · rw [point_steep hsteep, Prod.mk.injEq, hsy] at h
    have hy := h.2
    split_ifs at hy <;> omega

/-- The loop ends in the round in which the cursor is at the end, and no earlier. -/
theorem loop_eq (on : Bool) (rounds : ℕ) {k : ℕ} (hk : k ≤ length x0 y0 x1 y1) (d : OledDriver) :
    (between x0 y0 x1 y1).loop on rounds (cursor x0 y0 x1 y1 k) d =
      if length x0 y0 x1 y1 - k < rounds then
        let points := (List.range' k (length x0 y0 x1 y1 - k + 1)).map (point x0 y0 x1 y1)
        some (points, points.foldl (fun d p => d.setPixel p.1 p.2 on) d)
      else none := by
  induction rounds generalizing k d with
  | zero => rfl
  | succ rounds ih =>
    have hx : (between x0 y0 x1 y1).x1 = x1 := rfl
    have hy : (between x0 y0 x1 y1).y1 = y1 := rfl
    rw [loop, hx, hy]
    dsimp only
    rcases hk.eq_or_lt with rfl | hlt
    · have hend : (cursor x0 y0 x1 y1 (length x0 y0 x1 y1)).x0 = x1 ∧
          (cursor x0 y0 x1 y1 (length x0 y0 x1 y1)).y0 = y1 := Prod.mk.inj point_length
      rw [if_pos hend, if_pos (by omega), Nat.sub_self]
      rfl
    · have hmore : ¬ ((cursor x0 y0 x1 y1 k).x0 = x1 ∧ (cursor x0 y0 x1 y1 k).y0 = y1) :=
        fun h => point_ne hlt (Prod.ext h.1 h.2)
      have hrange : List.range' k (length x0 y0 x1 y1 - k + 1) =
          k :: List.range' (k + 1) (length x0 y0 x1 y1 - (k + 1) + 1) := by
        rw [← List.range'_succ]
        congr 1
        omega
      rw [if_neg hmore, step_cursor hlt, ih (by omega)]
      by_cases hrounds : length x0 y0 x1 y1 - k < rounds + 1
      · rw [if_pos hrounds, if_pos (by omega), hrange]
        rfl
      · rw [if_neg hrounds, if_neg (by omega)]
        rfl

end Cursors
end Line

/-- The points of a line from one end to the other, each a neighbour of the one before and
one further along a longer axis, and nowhere more than half a pixel off the segment. -/
structure Rasterised (x0 y0 x1 y1 : ℤ) (points : List (ℤ × ℤ)) : Prop where
  length_eq : points.length = max (x1 - x0).natAbs (y1 - y0).natAbs + 1
  first : points.head? = some (x0, y0)
  last : points.getLast? = some (x1, y1)
  neighbours : ∀ (i : ℕ) p q, points[i]? = some p → points[i + 1]? = some q →
    |q.1 - p.1| ≤ 1 ∧ |q.2 - p.2| ≤ 1 ∧
      (|y1 - y0| ≤ |x1 - x0| → q.1 - p.1 = (x1 - x0).sign) ∧
      (|x1 - x0| ≤ |y1 - y0| → q.2 - p.2 = (y1 - y0).sign)
  close : ∀ p ∈ points,
    (|y1 - y0| ≤ |x1 - x0| → |(p.2 : ℚ) - (y0 + (p.1 - x0) * (y1 - y0) / (x1 - x0))| ≤ 1 / 2) ∧
    (|x1 - x0| ≤ |y1 - y0| → |(p.1 : ℚ) - (x0 + (p.2 - y0) * (x1 - x0) / (y1 - y0))| ≤ 1 / 2)

namespace Line
variable {x0 y0 x1 y1 : ℤ}

def points (x0 y0 x1 y1 : ℤ) : List (ℤ × ℤ) :=
  (List.range (length x0 y0 x1 y1 + 1)).map (point x0 y0 x1 y1)

theorem abs_le_abs_iff {a b : ℤ} : |a| ≤ |b| ↔ a.natAbs ≤ b.natAbs := by
  rw [Int.abs_eq_natAbs, Int.abs_eq_natAbs, Int.ofNat_le]

theorem sign_cases (a b : ℤ) :
    (if a < b then 1 else -1) = (1 : ℤ) ∨ (if a < b then 1 else -1) = (-1 : ℤ) := by
  split_ifs
  · exact .inl rfl
  · exact .inr rfl

theorem sign_eq {a b : ℤ} (h : a ≠ b) : (if a < b then 1 else -1) = (b - a).sign := by
  split_ifs with hlt
  · exact (Int.sign_eq_one_of_pos (by omega)).symm
  · exact (Int.sign_eq_neg_one_of_neg (by omega)).symm

theorem unit_step {s x : ℤ} (hs : s = 1 ∨ s = -1) {a b : ℕ} (h : b = a ∨ b = a + 1) :
    |x + s * b - (x + s * a)| ≤ 1 := by
  rw [abs_le]
  rcases hs with rfl | rfl <;> rcases h with rfl | rfl <;> omega

theorem point_succ {i : ℕ} (hi : i < length x0 y0 x1 y1) :
    let p := point x0 y0 x1 y1 i
    let q := point x0 y0 x1 y1 (i + 1)
    |q.1 - p.1| ≤ 1 ∧ |q.2 - p.2| ≤ 1 ∧
      (|y1 - y0| ≤ |x1 - x0| → q.1 - p.1 = (x1 - x0).sign) ∧
      (|x1 - x0| ≤ |y1 - y0| → q.2 - p.2 = (y1 - y0).sign) := by
  intro p q
  have hsx : (between x0 y0 x1 y1).sx = 1 ∨ (between x0 y0 x1 y1).sx = -1 := sign_cases x0 x1
  have hsy : (between x0 y0 x1 y1).sy = 1 ∨ (between x0 y0 x1 y1).sy = -1 := sign_cases y0 y1
  have hsignx : x0 ≠ x1 → (between x0 y0 x1 y1).sx = (x1 - x0).sign := sign_eq
  have hsigny : y0 ≠ y1 → (between x0 y0 x1 y1).sy = (y1 - y0).sign := sign_eq
  unfold length at hi
  rw [abs_le_abs_iff, abs_le_abs_iff]
  rcases Nat.lt_or_ge (y1 - y0).natAbs (x1 - x0).natAbs with hflat | hsteep
  · have hp : p = _ := point_flat hflat i
    have hq : q = _ := point_flat hflat (i + 1)
    rw [hp, hq]
    refine ⟨unit_step hsx (.inr rfl), unit_step hsy ?_, fun _ => ?_, fun h => absurd h (by omega)⟩
    · exact DigitalLine.rise_succ_cases hflat.le (by omega) i
    · rw [← hsignx (by omega)]
      push_cast
      ring
  · have hp : p = _ := point_steep hsteep i
    have hq : q = _ := point_steep hsteep (i + 1)
    rw [hp, hq]
    refine ⟨unit_step hsx ?_, unit_step hsy (.inr rfl), fun h => ?_, fun _ => ?_⟩
    · exact DigitalLine.rise_succ_cases hsteep (by omega) i
    · have htie : (x1 - x0).natAbs = (y1 - y0).natAbs := by omega
      rw [← hsignx (by omega), htie, DigitalLine.rise_self (by omega),
        DigitalLine.rise_self (by omega)]
      push_cast
      ring
    · rw [← hsigny (by omega)]
      push_cast
      ring

theorem near_segment {m n i r : ℕ} (hm : 0 < m) (h : 2 * |(m * r : ℤ) - i * n| ≤ m) {s t : ℤ}
    (hs : s = 1 ∨ s = -1) (ht : t = 1 ∨ t = -1) {a b a' b' : ℤ} (ha : s * m = a' - a)
    (hb : t * n = b' - b) :
    |((b + t * r : ℤ) : ℚ) - (b + (((a + s * i : ℤ) : ℚ) - a) * (b' - b) / (a' - a))| ≤ 1 / 2 := by
  have hm' : (m : ℚ) ≠ 0 := Nat.cast_ne_zero.mpr hm.ne'
  have hs' : (s : ℚ) ≠ 0 := by rcases hs with rfl | rfl <;> decide
  have ht' : |(t : ℚ)| = 1 := by rcases ht with rfl | rfl <;> rfl
  have ha' : (a' : ℚ) - a = s * m := by exact_mod_cast ha.symm
  have hb' : (b' : ℚ) - b = t * n := by exact_mod_cast hb.symm
  have hcast : 2 * |(m * r : ℚ) - i * n| ≤ m := by exact_mod_cast h
  have hdiff : ((b + t * r : ℤ) : ℚ) - (b + (((a + s * i : ℤ) : ℚ) - a) * (b' - b) / (a' - a)) =
      t * (((m * r : ℚ) - i * n) / m) := by
    rw [ha', hb']
    push_cast
    field_simp
    ring
  rw [hdiff, abs_mul, abs_div, ht', one_mul, Nat.abs_cast, div_le_iff₀ (Nat.cast_pos.mpr hm)]
  linarith

theorem point_close {i : ℕ} (hi : i ≤ length x0 y0 x1 y1) :
    let p := point x0 y0 x1 y1 i
    (|y1 - y0| ≤ |x1 - x0| → |(p.2 : ℚ) - (y0 + (p.1 - x0) * (y1 - y0) / (x1 - x0))| ≤ 1 / 2) ∧
    (|x1 - x0| ≤ |y1 - y0| → |(p.1 : ℚ) - (x0 + (p.2 - y0) * (x1 - x0) / (y1 - y0))| ≤ 1 / 2) := by
  intro p
  have hsx : (between x0 y0 x1 y1).sx = 1 ∨ (between x0 y0 x1 y1).sx = -1 := sign_cases x0 x1
  have hsy : (between x0 y0 x1 y1).sy = 1 ∨ (between x0 y0 x1 y1).sy = -1 := sign_cases y0 y1
  unfold length at hi
  rw [abs_le_abs_iff, abs_le_abs_iff]
  rcases Nat.lt_or_ge (y1 - y0).natAbs (x1 - x0).natAbs with hflat | hsteep
  · have hp : p = _ := point_flat hflat i
    rw [hp]
    refine ⟨fun _ => ?_, fun h => absurd h (by omega)⟩
    exact near_segment (by omega) (DigitalLine.rise_close (by omega) i) hsx hsy sx_mul sy_mul
  · have hp : p = _ := point_steep hsteep i
    rw [hp]
    rcases Nat.eq_zero_or_pos (y1 - y0).natAbs with hpoint | hlong
    · obtain rfl : x1 = x0 := by omega
      obtain rfl : y1 = y0 := by omega
      obtain rfl : i = 0 := by omega
      simp [DigitalLine.rise_zero.1]
    · refine ⟨fun h => ?_, fun _ => ?_⟩
      · have htie : (x1 - x0).natAbs = (y1 - y0).natAbs := by omega
        have hbalance : 2 * |((x1 - x0).natAbs * i : ℤ) - i * (y1 - y0).natAbs| ≤
            (x1 - x0).natAbs := by
          rw [htie, mul_comm (i : ℤ), sub_self, abs_zero]
          omega
        rw [htie, DigitalLine.rise_self hlong]
        exact near_segment (by omega) hbalance hsx hsy sx_mul sy_mul
      · exact near_segment hlong (DigitalLine.rise_close hlong i) hsy hsx sy_mul sx_mul

theorem points_rasterised : Rasterised x0 y0 x1 y1 (points x0 y0 x1 y1) where
  length_eq := by rw [points, List.length_map, List.length_range, length]
  first := by rw [points, List.range_succ_eq_map, List.map_cons, List.head?_cons, point_zero]
  last := by
    rw [points, List.range_succ, List.map_append, List.map_singleton, List.getLast?_append,
      List.getLast?_singleton, Option.some_or, point_length]
  neighbours i p q hp hq := by
    have hlt : i + 1 < length x0 y0 x1 y1 + 1 := by
      have hsome := (List.getElem?_eq_some_iff.mp hq).1
      rwa [points, List.length_map, List.length_range] at hsome
    rw [points, List.getElem?_map, List.getElem?_range (by omega)] at hp hq
    obtain rfl : point x0 y0 x1 y1 i = p := Option.some.inj hp
    obtain rfl : point x0 y0 x1 y1 (i + 1) = q := Option.some.inj hq
    exact point_succ (by omega)
  close p hp := by
    obtain ⟨i, hi, rfl⟩ := List.mem_map.mp hp
    exact point_close (Nat.lt_succ_iff.mp (List.mem_range.mp hi))

end Line

namespace OledDriver

theorem drawLine_eq (rounds : ℕ) (x0 y0 x1 y1 : ℤ) (on : Bool) (d : OledDriver) :
    d.drawLine rounds x0 y0 x1 y1 on =
      if max (x1 - x0).natAbs (y1 - y0).natAbs < rounds then
        let points := Line.points x0 y0 x1 y1
        some (points, points.foldl (fun d p => d.setPixel p.1 p.2 on) d)
      else none := by
  unfold drawLine
  dsimp only
  rw [Line.start_eq, Line.loop_eq on rounds (Nat.zero_le _), Nat.sub_zero, ← List.range_eq_range']
  rfl

/-- The loop ends for all ends of the line, in as many rounds as it has points. -/
theorem drawLine_rasterises (x0 y0 x1 y1 : ℤ) : ∃ points, Rasterised x0 y0 x1 y1 points ∧
    ∀ (rounds : ℕ) (on : Bool) (d : OledDriver), d.drawLine rounds x0 y0 x1 y1 on =
      if points.length ≤ rounds then
        some (points, points.foldl (fun d p => d.setPixel p.1 p.2 on) d)
      else none := by
  have hpoints : Rasterised x0 y0 x1 y1 (Line.points x0 y0 x1 y1) := Line.points_rasterised
  refine ⟨_, hpoints, fun rounds on d => ?_⟩
  rw [drawLine_eq, hpoints.length_eq]
  exact if_congr Nat.lt_iff_add_one_le rfl rfl

example : Line.points 0 0 5 (-2) = [(0, 0), (1, 0), (2, -1), (3, -1), (4, -2), (5, -2)] := by
  decide

theorem getPixel_drawLine (x0 y0 x1 y1 : ℤ) (on : Bool) (d : OledDriver) {rounds : ℕ}
    {points : List (ℤ × ℤ)} {d' : OledDriver}
    (h : d.drawLine rounds x0 y0 x1 y1 on = some (points, d')) (x y : ℤ) :
    d'.getPixel x y =
      if ¬ OffScreen x y ∧ (x, y) ∈ points then on else d.getPixel x y := by
  rw [drawLine_eq] at h
  split_ifs at h with hrounds
  obtain ⟨rfl, rfl⟩ := Prod.mk.inj (Option.some.inj h)
  exact getPixel_foldl on x y _ d

end OledDriver
end MybipedalDeploy.Oled
