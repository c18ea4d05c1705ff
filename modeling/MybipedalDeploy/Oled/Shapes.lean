import Mathlib.Tactic.Linarith
import MybipedalDeploy.Library.Clamp
import MybipedalDeploy.Library.Painting
import MybipedalDeploy.Oled.OledDriver

/-!
# Straight shapes, discs and bars

The shapes that are loops over pixels, each with the set of pixels it paints.
-/

namespace MybipedalDeploy.Oled
open Painting (Paints)

namespace OledDriver

def clear (on : Bool) : OledDriver where
  buf := List.replicate 1024 (if on then 0xFF else 0x00)
  size := List.length_replicate

def drawHLine (x y w : ℤ) (on : Bool) (d : OledDriver) : OledDriver :=
  (List.range w.toNat).foldl (fun d (i : ℕ) => d.setPixel (x + i) y on) d

def drawVLine (x y h : ℤ) (on : Bool) (d : OledDriver) : OledDriver :=
  (List.range h.toNat).foldl (fun d (i : ℕ) => d.setPixel x (y + i) on) d

def drawRect (x y w h : ℤ) (on : Bool) (d : OledDriver) : OledDriver :=
  let d := d.drawHLine x y w on
  let d := d.drawHLine x (y + h - 1) w on
  let d := d.drawVLine x y h on
  d.drawVLine (x + w - 1) y h on

def fillRect (x y w h : ℤ) (on : Bool) (d : OledDriver) : OledDriver :=
  (List.range h.toNat).foldl (fun d (row : ℕ) => d.drawHLine x (y + row) w on) d

/-- Both loops count from `-r` up to `r`. -/
def fillCircle (cx cy r : ℤ) (on : Bool) (d : OledDriver) : OledDriver :=
  (List.range (2 * r + 1).toNat).foldl (fun d (j : ℕ) =>
    (List.range (2 * r + 1).toNat).foldl (fun d (i : ℕ) =>
      let x := -r + (i : ℤ)
      let y := -r + (j : ℤ)
      if x * x + y * y ≤ r * r then d.setPixel (cx + x) (cy + y) on else d) d) d

def barFill (w pct : ℤ) : ℤ := (Clamp.clamp 0 100 pct * (w - 2)).tdiv 100

def drawBar (x y w h pct : ℤ) (on : Bool) (d : OledDriver) : OledDriver :=
  let d := d.drawRect x y w h on
  if barFill w pct > 0 then d.fillRect (x + 1) (y + 1) (barFill w pct) (h - 2) on else d

end OledDriver

structure Pixel where
  x : ℤ
  y : ℤ
  onScreen : ¬ OledDriver.OffScreen x y

namespace OledDriver

def pixel (d : OledDriver) (p : Pixel) : Bool := d.getPixel p.x p.y

@[simp] theorem pixel_clear (on : Bool) (p : Pixel) : (clear on).pixel p = on := by
  have hlt := index_lt p.onScreen
  rw [pixel, getPixel, if_neg p.onScreen, testBit_eq, clear, List.getD_eq_getElem?_getD,
    List.getElem?_replicate, if_pos hlt, Option.getD_some]
  have hbit := bit_lt p.y
  cases on with
  | false => simp
  | true =>
    have hall : ∀ k < 8, (0xFF : BitVec 8).getLsbD k = true := by decide
    exact hall _ hbit

abbrev Draws (f : OledDriver → OledDriver) (S : Pixel → Prop) (on : Bool) : Prop :=
  Paints pixel f S on

variable (x y w h : ℤ) (on : Bool)

theorem draws_setPixel : Draws (fun d => d.setPixel x y on) (fun p => p.x = x ∧ p.y = y) on := by
  constructor
  · rintro d p ⟨rfl, rfl⟩
    rw [pixel, getPixel_setPixel, if_pos ⟨p.onScreen, rfl, rfl⟩]
  · intro d p hp
    rw [pixel, getPixel_setPixel, if_neg fun h => hp h.2]
    rfl

theorem exists_mem_range {w : ℤ} {P : ℤ → Prop} :
    (∃ i ∈ List.range w.toNat, P (i : ℤ)) ↔ ∃ i : ℤ, 0 ≤ i ∧ i < w ∧ P i := by
  constructor
  · rintro ⟨i, hi, hP⟩
    have hlt := List.mem_range.mp hi
    exact ⟨i, by omega, by omega, hP⟩
  · rintro ⟨i, h0, hlt, hP⟩
    exact ⟨i.toNat, List.mem_range.mpr (by omega), by rwa [Int.toNat_of_nonneg h0]⟩

theorem draws_drawHLine :
    Draws (drawHLine x y w on) (fun p => p.y = y ∧ x ≤ p.x ∧ p.x < x + w) on := by
  refine (Paints.foldl fun (i : ℕ) _ => draws_setPixel (x + i) y on).congr fun p => ?_
  rw [exists_mem_range (P := fun i => p.x = x + i ∧ p.y = y)]
  constructor
  · rintro ⟨i, h0, hlt, hx, hy⟩
    omega
  · rintro ⟨hy, hx, hlt⟩
    exact ⟨p.x - x, by omega, by omega, by omega, hy⟩

theorem draws_drawVLine :
    Draws (drawVLine x y h on) (fun p => p.x = x ∧ y ≤ p.y ∧ p.y < y + h) on := by
  refine (Paints.foldl fun (i : ℕ) _ => draws_setPixel x (y + i) on).congr fun p => ?_
  rw [exists_mem_range (P := fun i => p.x = x ∧ p.y = y + i)]
  constructor
  · rintro ⟨i, h0, hlt, hx, hy⟩
    omega
  · rintro ⟨hx, hy, hlt⟩
    exact ⟨p.y - y, by omega, by omega, hx, by omega⟩

def Inside (p : Pixel) : Prop := x ≤ p.x ∧ p.x < x + w ∧ y ≤ p.y ∧ p.y < y + h

theorem draws_fillRect : Draws (fillRect x y w h on) (Inside x y w h) on := by
  refine (Paints.foldl fun (i : ℕ) _ => draws_drawHLine x (y + i) w on).congr fun p => ?_
  rw [exists_mem_range (P := fun i => p.y = y + i ∧ x ≤ p.x ∧ p.x < x + w)]
  constructor
  · rintro ⟨i, h0, hlt, hy, hx⟩
    exact ⟨hx.1, hx.2, by omega, by omega⟩
  · rintro ⟨hx, hlt, hy, hlast⟩
    exact ⟨p.y - y, by omega, by omega, by omega, hx, hlt⟩

/-- The edge of the rectangle. An empty side leaves out its own edges only. -/
def OnEdge (p : Pixel) : Prop :=
  (x ≤ p.x ∧ p.x < x + w ∧ (p.y = y ∨ p.y = y + h - 1)) ∨
    (y ≤ p.y ∧ p.y < y + h ∧ (p.x = x ∨ p.x = x + w - 1))

theorem draws_drawRect : Draws (drawRect x y w h on) (OnEdge x y w h) on := by
  have hrows := (draws_drawHLine x y w on).comp (draws_drawHLine x (y + h - 1) w on)
  have hcolumns := (draws_drawVLine x y h on).comp (draws_drawVLine (x + w - 1) y h on)
  refine (hrows.comp hcolumns).congr fun p => ?_
  unfold OnEdge
  constructor
  · rintro ((⟨hy, hx⟩ | ⟨hy, hx⟩) | ⟨hx, hy⟩ | ⟨hx, hy⟩)
    · exact .inl ⟨hx.1, hx.2, .inl hy⟩
    · exact .inl ⟨hx.1, hx.2, .inr hy⟩
    · exact .inr ⟨hy.1, hy.2, .inl hx⟩
    · exact .inr ⟨hy.1, hy.2, .inr hx⟩
  · rintro (⟨hx, hlt, hy | hy⟩ | ⟨hy, hlt, hx | hx⟩)
    · exact .inl (.inl ⟨hy, hx, hlt⟩)
    · exact .inl (.inr ⟨hy, hx, hlt⟩)
    · exact .inr (.inl ⟨hx, hy, hlt⟩)
    · exact .inr (.inr ⟨hx, hy, hlt⟩)

theorem exists_offset {r : ℤ} {P : ℤ → Prop} :
    (∃ i ∈ List.range (2 * r + 1).toNat, P (-r + (i : ℤ))) ↔ ∃ x : ℤ, -r ≤ x ∧ x ≤ r ∧ P x := by
  rw [exists_mem_range (P := fun i => P (-r + i))]
  constructor
  · rintro ⟨i, h0, hlt, hP⟩
    exact ⟨-r + i, by omega, by omega, hP⟩
  · rintro ⟨x, hlo, hhi, hP⟩
    exact ⟨x + r, by omega, by omega, by rwa [show -r + (x + r) = x by omega]⟩

theorem draws_fillCircle (cx cy r : ℤ) : Draws (fillCircle cx cy r on)
    (fun p => 0 ≤ r ∧ (p.x - cx) * (p.x - cx) + (p.y - cy) * (p.y - cy) ≤ r * r) on := by
  refine (Paints.foldl fun (j : ℕ) _ => Paints.foldl fun (i : ℕ) _ =>
    (draws_setPixel (cx + (-r + (i : ℤ))) (cy + (-r + (j : ℤ))) on).guarded).congr fun p => ?_
  have hrow (y : ℤ) := exists_offset (r := r) (P := fun x =>
    x * x + y * y ≤ r * r ∧ p.x = cx + x ∧ p.y = cy + y)
  rw [exists_offset (P := fun y => ∃ i ∈ List.range (2 * r + 1).toNat,
    (-r + (i : ℤ)) * (-r + (i : ℤ)) + y * y ≤ r * r ∧ p.x = cx + (-r + (i : ℤ)) ∧ p.y = cy + y)]
  simp only [hrow]
  constructor
  · rintro ⟨y, hylo, hyhi, x, hxlo, hxhi, hdisc, hx, hy⟩
    have hdx : p.x - cx = x := by omega
    have hdy : p.y - cy = y := by omega
    rw [hdx, hdy]
    exact ⟨by omega, hdisc⟩
  · rintro ⟨hr, hdisc⟩
    have hbound {a b : ℤ} (h : a * a + b * b ≤ r * r) : -r ≤ a ∧ a ≤ r := by
      constructor <;> nlinarith [mul_self_nonneg b]
    obtain ⟨hxlo, hxhi⟩ := hbound hdisc
    obtain ⟨hylo, hyhi⟩ := hbound (add_comm _ _ |>.trans_le hdisc)
    exact ⟨p.y - cy, hylo, hyhi, p.x - cx, hxlo, hxhi, hdisc, by omega, by omega⟩

theorem lt_barFill_iff (w pct : ℤ) {c : ℤ} (hc : 0 ≤ c) :
    c < barFill w pct ↔ 100 * (c + 1) ≤ Clamp.clamp 0 100 pct * (w - 2) := by
  unfold barFill
  generalize Clamp.clamp 0 100 pct * (w - 2) = a
  rcases lt_or_ge a 0 with ha | ha
  · have hneg : (-a).tdiv 100 = -(a.tdiv 100) := Int.neg_tdiv a 100
    rw [Int.tdiv_eq_ediv_of_nonneg (by omega)] at hneg
    omega
  · rw [Int.tdiv_eq_ediv_of_nonneg ha]
    omega

/-- The frame, and inside it the part of the columns that the percentage says. -/
theorem drawBar_fills (pct : ℤ) : Draws (drawBar x y w h pct on)
    (fun p => OnEdge x y w h p ∨ (y < p.y ∧ p.y < y + h - 1) ∧ x < p.x ∧
      100 * (p.x - x) ≤ Clamp.clamp 0 100 pct * (w - 2)) on := by
  have hfill := (draws_fillRect (x + 1) (y + 1) (barFill w pct) (h - 2) on).guarded
    (b := barFill w pct > 0)
  refine ((draws_drawRect x y w h on).comp hfill).congr fun p => or_congr_right ?_
  have hcolumn (hx : x < p.x) : p.x < x + 1 + barFill w pct ↔
      100 * (p.x - x) ≤ Clamp.clamp 0 100 pct * (w - 2) := by
    have hlt := lt_barFill_iff w pct (show 0 ≤ p.x - x - 1 by omega)
    rw [show p.x - x - 1 + 1 = p.x - x by omega] at hlt
    rw [← hlt]
    omega
  constructor
  · rintro ⟨-, hx, hlt, hy, hlast⟩
    have hxlt : x < p.x := by omega
    exact ⟨by omega, hxlt, (hcolumn hxlt).mp hlt⟩
  · rintro ⟨hy, hx, hpct⟩
    have hlt := (hcolumn hx).mpr hpct
    exact ⟨by omega, by omega, hlt, by omega, by omega⟩

end OledDriver
end MybipedalDeploy.Oled
