import Mathlib.Tactic.Positivity
import Mathlib.Tactic.Ring
import MybipedalDeploy.Oled.Shapes

/-!
# Text

The font has a column of eight pixels in each byte, the top row in the lowest bit. A
string stops before the first character that would cross the right edge.
-/

namespace MybipedalDeploy.Oled
open Painting (Paints)

def fontW : ℤ := 6

/-- From 0x20 to 0x7F. -/
def font6x8 : List (List (BitVec 8)) :=
  [[0x00, 0x00, 0x00, 0x00, 0x00, 0x00], [0x00, 0x00, 0x5F, 0x00, 0x00, 0x00],
    [0x00, 0x07, 0x00, 0x07, 0x00, 0x00], [0x14, 0x7F, 0x14, 0x7F, 0x14, 0x00],
    [0x24, 0x2A, 0x7F, 0x2A, 0x12, 0x00], [0x23, 0x13, 0x08, 0x64, 0x62, 0x00],
    [0x36, 0x49, 0x55, 0x22, 0x50, 0x00], [0x00, 0x05, 0x03, 0x00, 0x00, 0x00],
    [0x00, 0x1C, 0x22, 0x41, 0x00, 0x00], [0x00, 0x41, 0x22, 0x1C, 0x00, 0x00],
    [0x08, 0x2A, 0x1C, 0x2A, 0x08, 0x00], [0x08, 0x08, 0x3E, 0x08, 0x08, 0x00],
    [0x00, 0x50, 0x30, 0x00, 0x00, 0x00], [0x08, 0x08, 0x08, 0x08, 0x08, 0x00],
    [0x00, 0x60, 0x60, 0x00, 0x00, 0x00], [0x20, 0x10, 0x08, 0x04, 0x02, 0x00],
    [0x3E, 0x51, 0x49, 0x45, 0x3E, 0x00], [0x00, 0x42, 0x7F, 0x40, 0x00, 0x00],
    [0x42, 0x61, 0x51, 0x49, 0x46, 0x00], [0x21, 0x41, 0x45, 0x4B, 0x31, 0x00],
    [0x18, 0x14, 0x12, 0x7F, 0x10, 0x00], [0x27, 0x45, 0x45, 0x45, 0x39, 0x00],
    [0x3C, 0x4A, 0x49, 0x49, 0x30, 0x00], [0x01, 0x71, 0x09, 0x05, 0x03, 0x00],
    [0x36, 0x49, 0x49, 0x49, 0x36, 0x00], [0x06, 0x49, 0x49, 0x29, 0x1E, 0x00],
    [0x00, 0x36, 0x36, 0x00, 0x00, 0x00], [0x00, 0x56, 0x36, 0x00, 0x00, 0x00],
    [0x00, 0x08, 0x14, 0x22, 0x41, 0x00], [0x14, 0x14, 0x14, 0x14, 0x14, 0x00],
    [0x41, 0x22, 0x14, 0x08, 0x00, 0x00], [0x02, 0x01, 0x51, 0x09, 0x06, 0x00],
    [0x32, 0x49, 0x79, 0x41, 0x3E, 0x00], [0x7E, 0x11, 0x11, 0x11, 0x7E, 0x00],
    [0x7F, 0x49, 0x49, 0x49, 0x36, 0x00], [0x3E, 0x41, 0x41, 0x41, 0x22, 0x00],
    [0x7F, 0x41, 0x41, 0x22, 0x1C, 0x00], [0x7F, 0x49, 0x49, 0x49, 0x41, 0x00],
    [0x7F, 0x09, 0x09, 0x01, 0x01, 0x00], [0x3E, 0x41, 0x41, 0x49, 0x7A, 0x00],
    [0x7F, 0x08, 0x08, 0x08, 0x7F, 0x00], [0x00, 0x41, 0x7F, 0x41, 0x00, 0x00],
    [0x20, 0x40, 0x41, 0x3F, 0x01, 0x00], [0x7F, 0x08, 0x14, 0x22, 0x41, 0x00],
    [0x7F, 0x40, 0x40, 0x40, 0x40, 0x00], [0x7F, 0x02, 0x04, 0x02, 0x7F, 0x00],
    [0x7F, 0x04, 0x08, 0x10, 0x7F, 0x00], [0x3E, 0x41, 0x41, 0x41, 0x3E, 0x00],
    [0x7F, 0x09, 0x09, 0x09, 0x06, 0x00], [0x3E, 0x41, 0x51, 0x21, 0x5E, 0x00],
    [0x7F, 0x09, 0x19, 0x29, 0x46, 0x00], [0x46, 0x49, 0x49, 0x49, 0x31, 0x00],
    [0x01, 0x01, 0x7F, 0x01, 0x01, 0x00], [0x3F, 0x40, 0x40, 0x40, 0x3F, 0x00],
    [0x1F, 0x20, 0x40, 0x20, 0x1F, 0x00], [0x3F, 0x40, 0x38, 0x40, 0x3F, 0x00],
    [0x63, 0x14, 0x08, 0x14, 0x63, 0x00], [0x03, 0x04, 0x78, 0x04, 0x03, 0x00],
    [0x61, 0x51, 0x49, 0x45, 0x43, 0x00], [0x00, 0x7F, 0x41, 0x41, 0x00, 0x00],
    [0x02, 0x04, 0x08, 0x10, 0x20, 0x00], [0x00, 0x41, 0x41, 0x7F, 0x00, 0x00],
    [0x04, 0x02, 0x01, 0x02, 0x04, 0x00], [0x40, 0x40, 0x40, 0x40, 0x40, 0x00],
    [0x00, 0x01, 0x02, 0x04, 0x00, 0x00], [0x20, 0x54, 0x54, 0x54, 0x78, 0x00],
    [0x7F, 0x48, 0x44, 0x44, 0x38, 0x00], [0x38, 0x44, 0x44, 0x44, 0x20, 0x00],
    [0x38, 0x44, 0x44, 0x48, 0x7F, 0x00], [0x38, 0x54, 0x54, 0x54, 0x18, 0x00],
    [0x08, 0x7E, 0x09, 0x01, 0x02, 0x00], [0x08, 0x14, 0x54, 0x54, 0x3C, 0x00],
    [0x7F, 0x08, 0x04, 0x04, 0x78, 0x00], [0x00, 0x44, 0x7D, 0x40, 0x00, 0x00],
    [0x20, 0x40, 0x44, 0x3D, 0x00, 0x00], [0x7F, 0x10, 0x28, 0x44, 0x00, 0x00],
    [0x00, 0x41, 0x7F, 0x40, 0x00, 0x00], [0x7C, 0x04, 0x18, 0x04, 0x78, 0x00],
    [0x7C, 0x08, 0x04, 0x04, 0x78, 0x00], [0x38, 0x44, 0x44, 0x44, 0x38, 0x00],
    [0x7C, 0x14, 0x14, 0x14, 0x08, 0x00], [0x08, 0x14, 0x14, 0x18, 0x7C, 0x00],
    [0x7C, 0x08, 0x04, 0x04, 0x08, 0x00], [0x48, 0x54, 0x54, 0x54, 0x20, 0x00],
    [0x04, 0x3F, 0x44, 0x40, 0x20, 0x00], [0x3C, 0x40, 0x40, 0x20, 0x7C, 0x00],
    [0x1C, 0x20, 0x40, 0x20, 0x1C, 0x00], [0x3C, 0x40, 0x30, 0x40, 0x3C, 0x00],
    [0x44, 0x28, 0x10, 0x28, 0x44, 0x00], [0x0C, 0x50, 0x50, 0x50, 0x3C, 0x00],
    [0x44, 0x64, 0x54, 0x4C, 0x44, 0x00], [0x00, 0x08, 0x36, 0x41, 0x00, 0x00],
    [0x00, 0x00, 0x7F, 0x00, 0x00, 0x00], [0x00, 0x41, 0x36, 0x08, 0x00, 0x00],
    [0x08, 0x08, 0x2A, 0x1C, 0x08, 0x00], [0x08, 0x1C, 0x2A, 0x08, 0x08, 0x00]]

namespace OledDriver

def dot (c : BitVec 8) (col row : ℕ) : Bool :=
  let c := if c < 0x20 ∨ c > 0x7F then 0x3F else c
  ((font6x8.getD (c.toNat - 0x20) []).getD col 0).getLsbD row

def drawDot (x y : ℤ) (on : Bool) (scale : ℕ) (col row : ℕ) (d : OledDriver) : OledDriver :=
  if scale = 1 then d.setPixel (x + col) (y + row) on
  else d.fillRect (x + col * scale) (y + row * scale) scale scale on

def drawChar (x y : ℤ) (c : BitVec 8) (on : Bool) (scale : ℕ) (d : OledDriver) : OledDriver :=
  (List.range 6).foldl (fun d col =>
    (List.range 8).foldl (fun d row =>
      if dot c col row then d.drawDot x y on scale col row else d) d) d

def drawString (x y : ℤ) (str : List (BitVec 8)) (on : Bool) (scale : ℕ) (d : OledDriver) :
    OledDriver :=
  match str with
  | [] => d
  | c :: str =>
    if x + fontW * scale > width then d
    else (d.drawChar x y c on scale).drawString (x + fontW * scale) y str on scale

def textWidth (str : List (BitVec 8)) (scale : ℕ) : ℤ := str.length * fontW * scale

variable (x y : ℤ) (on : Bool)

def Square (scale col row : ℕ) (p : Pixel) : Prop :=
  Inside (x + col * scale) (y + row * scale) scale scale p

theorem draws_drawDot (scale col row : ℕ) :
    Draws (drawDot x y on scale col row) (Square x y scale col row) on := by
  unfold drawDot
  by_cases hscale : scale = 1
  · simp only [hscale, if_true]
    refine (draws_setPixel (x + col) (y + row) on).congr fun p => ?_
    unfold Square Inside
    omega
  · simp only [hscale, if_false]
    exact draws_fillRect _ _ _ _ on

def InChar (c : BitVec 8) (scale : ℕ) (p : Pixel) : Prop :=
  ∃ col < 6, ∃ row < 8, dot c col row = true ∧ Square x y scale col row p

theorem draws_drawChar (c : BitVec 8) (scale : ℕ) :
    Draws (drawChar x y c on scale) (InChar x y c scale) on := by
  refine (Paints.foldl fun col _ => Paints.foldl fun row _ =>
    (draws_drawDot x y on scale col row).guarded).congr fun p => ?_
  simp only [List.mem_range, InChar]

def InString (str : List (BitVec 8)) (scale : ℕ) (p : Pixel) : Prop :=
  ∃ (k : ℕ) (c : BitVec 8), str[k]? = some c ∧ x + fontW * scale * (k + 1) ≤ width ∧
    InChar (x + fontW * scale * k) y c scale p

theorem inString_cons (c : BitVec 8) (str : List (BitVec 8)) (scale : ℕ) (p : Pixel) :
    InString x y (c :: str) scale p ↔ x + fontW * scale ≤ width ∧
      (InChar x y c scale p ∨ InString (x + fontW * scale) y str scale p) := by
  have hstep (k : ℕ) : x + fontW * scale * ((k + 1 : ℕ) : ℤ) = x + fontW * scale + fontW * scale * k := by
    push_cast
    ring
  constructor
  · rintro ⟨k, c', hc, hfits, hdot⟩
    cases k with
    | zero =>
      obtain rfl := Option.some.inj hc
      exact ⟨by simpa using hfits, .inl (by simpa using hdot)⟩
    | succ k =>
      have hcell : 0 ≤ fontW * (scale : ℤ) * (k + 1) := by unfold fontW; positivity
      refine ⟨?_, .inr ⟨k, c', hc, ?_, ?_⟩⟩
      · have hlast := hfits
        push_cast at hlast
        nlinarith
      · push_cast at hfits
        linarith
      · rwa [← hstep]
  · rintro ⟨hfits, hdot | ⟨k, c', hc, hcell, hdot⟩⟩
    · exact ⟨0, c, rfl, by simpa using hfits, by simpa using hdot⟩
    · refine ⟨k + 1, c', hc, ?_, ?_⟩
      · push_cast
        linarith
      · rwa [hstep]

/-- Whatever is on the screen: the dots of the characters that fit, and nothing else. -/
theorem drawString_draws (str : List (BitVec 8)) (scale : ℕ) :
    Draws (drawString x y str on scale) (InString x y str scale) on := by
  induction str generalizing x with
  | nil => exact (Paints.nothing on).congr fun p => by simp [InString]
  | cons c str ih =>
    by_cases hfits : x + fontW * scale > width
    · simp only [drawString, hfits, if_true]
      refine (Paints.nothing on).congr fun p => ?_
      rw [inString_cons]
      simp only [false_iff]
      intro h
      omega
    · simp only [drawString, hfits, if_false]
      refine ((draws_drawChar x y on c scale).comp (ih _)).congr fun p => ?_
      rw [inString_cons]
      have hle : x + fontW * scale ≤ width := by omega
      simp only [hle, true_and]

theorem InString.rows {x y : ℤ} {str : List (BitVec 8)} {scale : ℕ} {p : Pixel}
    (h : InString x y str scale p) : y ≤ p.y ∧ p.y < y + 8 * scale := by
  obtain ⟨k, c, -, -, col, -, row, hrow, -, -, -, htop, hbottom⟩ := h
  have hlow : 0 ≤ (row : ℤ) * scale := by positivity
  have hhigh : (row + 1 : ℤ) * scale ≤ 8 * scale := by
    apply mul_le_mul_of_nonneg_right _ (Int.natCast_nonneg scale)
    omega
  constructor <;> linarith

end OledDriver
end MybipedalDeploy.Oled
