import Mathlib.Data.List.GetD
import Mathlib.Data.List.Nodup
import MybipedalDeploy.Oled.Text

/-!
# Text that can be read again

The characters of a string that fits on a clear part of the screen are read back from
the pixels: no two glyphs of the font are alike, and the cells do not overlap.
-/

namespace MybipedalDeploy.Oled
namespace OledDriver

def printable (c : BitVec 8) : BitVec 8 := if c < 0x20 ∨ c > 0x7F then 0x3F else c

def glyph (c : BitVec 8) : List (BitVec 8) := font6x8.getD ((printable c).toNat - 0x20) []

theorem dot_eq (c : BitVec 8) (col row : ℕ) : dot c col row = ((glyph c).getD col 0).getLsbD row :=
  rfl

theorem printable_range (c : BitVec 8) : 0x20 ≤ (printable c).toNat ∧ (printable c).toNat < 0x80 := by
  unfold printable
  split_ifs with h
  · decide
  · simp only [BitVec.lt_def, not_or, not_lt, gt_iff_lt] at h
    exact ⟨h.1, Nat.lt_succ_of_le h.2⟩

@[simp] theorem printable_printable (c : BitVec 8) : printable (printable c) = printable c := by
  have hrange := printable_range c
  have hlow : ¬ printable c < 0x20 := by
    simp only [BitVec.lt_def, not_lt]
    exact hrange.1
  have hhigh : ¬ printable c > 0x7F := by
    simp only [gt_iff_lt, BitVec.lt_def, not_lt]
    exact Nat.le_of_lt_succ hrange.2
  exact if_neg (not_or.mpr ⟨hlow, hhigh⟩)

theorem font_nodup : font6x8.Nodup := by decide +kernel

theorem font_columns : ∀ g ∈ font6x8, g.length = 6 := by decide +kernel

theorem glyph_index_lt (c : BitVec 8) : (printable c).toNat - 0x20 < font6x8.length := by
  have hrange := printable_range c
  have hlength : font6x8.length = 96 := by decide +kernel
  omega

theorem glyph_mem (c : BitVec 8) : glyph c ∈ font6x8 := by
  rw [glyph, List.getD_eq_getElem _ _ (glyph_index_lt c)]
  exact List.getElem_mem _

theorem printable_of_glyph {c c' : BitVec 8} (h : glyph c = glyph c') : printable c = printable c' := by
  rw [glyph, glyph, List.getD_eq_getElem _ _ (glyph_index_lt c),
    List.getD_eq_getElem _ _ (glyph_index_lt c'), font_nodup.getElem_inj_iff] at h
  have hrange := printable_range c
  have hrange' := printable_range c'
  exact BitVec.eq_of_toNat_eq (by omega)

theorem printable_of_dots {c c' : BitVec 8}
    (h : ∀ col < 6, ∀ row < 8, dot c col row = dot c' col row) : printable c = printable c' := by
  refine printable_of_glyph (List.ext_getElem ?_ fun col hcol hcol' => ?_)
  · rw [font_columns _ (glyph_mem c), font_columns _ (glyph_mem c')]
  · refine BitVec.eq_of_getLsbD_eq fun row hrow => ?_
    have hdot := h col (font_columns _ (glyph_mem c) ▸ hcol) row hrow
    rwa [dot_eq, dot_eq, List.getD_eq_getElem _ _ hcol, List.getD_eq_getElem _ _ hcol'] at hdot

theorem dot_printable (c : BitVec 8) : dot (printable c) = dot c := by
  funext col row
  rw [dot_eq, dot_eq, glyph, printable_printable, glyph]

section Read
variable (d : OledDriver) (x y : ℤ) (on : Bool) (scale : ℕ)

def Shows (c : BitVec 8) : Prop :=
  ∀ col : ℕ, col < 6 → ∀ row : ℕ, row < 8 →
    d.getPixel (x + col * scale) (y + row * scale) = if dot c col row then on else !on

instance (c : BitVec 8) : Decidable (d.Shows x y on scale c) :=
  inferInstanceAs (Decidable (∀ col : ℕ, col < 6 → ∀ row : ℕ, row < 8 → _ = _))

def codes : List (BitVec 8) := (List.range 96).map fun i => BitVec.ofNat 8 (0x20 + i)

def readChar : Option (BitVec 8) := codes.find? fun c => d.Shows x y on scale c

def readString (n : ℕ) : Option (List (BitVec 8)) :=
  (List.range n).mapM fun k : ℕ => d.readChar (x + fontW * scale * k) y on scale

theorem printable_mem_codes (c : BitVec 8) : printable c ∈ codes := by
  have hrange := printable_range c
  refine List.mem_map.mpr ⟨(printable c).toNat - 0x20, List.mem_range.mpr (by omega), ?_⟩
  rw [Nat.add_sub_cancel' hrange.1, BitVec.ofNat_toNat, BitVec.setWidth_eq]

theorem printable_of_mem_codes {c : BitVec 8} (h : c ∈ codes) : printable c = c := by
  revert c
  decide +kernel

variable {d x y on scale}

theorem printable_of_shows {c c' : BitVec 8} (h : d.Shows x y on scale c)
    (h' : d.Shows x y on scale c') : printable c = printable c' := by
  refine printable_of_dots fun col hcol row hrow => ?_
  have hsame := (h col hcol row hrow).symm.trans (h' col hcol row hrow)
  cases on <;> cases hdot : dot c col row <;> cases hdot' : dot c' col row <;>
    simp_all

theorem readChar_of_shows {c : BitVec 8} (h : d.Shows x y on scale c) :
    d.readChar x y on scale = some (printable c) := by
  have hprintable : d.Shows x y on scale (printable c) := by
    unfold Shows
    rw [dot_printable]
    exact h
  cases hread : d.readChar x y on scale with
  | none =>
    have hnot := List.find?_eq_none.mp hread _ (printable_mem_codes c)
    exact absurd hprintable (by simpa using hnot)
  | some c' =>
    have hshows : d.Shows x y on scale c' := by simpa using List.find?_some hread
    rw [← printable_of_mem_codes (List.mem_of_find?_eq_some hread),
      printable_of_shows hshows h]

end Read

theorem mapM_eq_some {α β : Type*} {f : α → Option β} {g : α → β} {l : List α}
    (h : ∀ a ∈ l, f a = some (g a)) : l.mapM f = some (l.map g) := by
  induction l with
  | nil => rfl
  | cons a l ih =>
    have htail := ih fun b hb => h b (List.mem_cons_of_mem a hb)
    rw [List.mapM_cons, h a List.mem_cons_self, htail]
    rfl

theorem readString_of_shows {d : OledDriver} {x y : ℤ} {on : Bool} {scale : ℕ}
    {str : List (BitVec 8)} (h : ∀ (k : ℕ) c, str[k]? = some c →
      d.Shows (x + fontW * scale * k) y on scale c) :
    d.readString x y on scale str.length = some (str.map printable) := by
  have hread : ∀ k ∈ List.range str.length, d.readChar (x + fontW * scale * k) y on scale =
      some (printable (str.getD k 0)) := by
    intro k hk
    have hlt := List.mem_range.mp hk
    refine readChar_of_shows (h k _ ?_)
    rw [List.getElem?_eq_getElem hlt, List.getD_eq_getElem _ _ hlt]
  rw [readString, mapM_eq_some hread]
  refine congrArg some (List.ext_getElem (by simp) fun k hk _ => ?_)
  have hlt : k < str.length := by simpa using hk
  simp [List.getElem?_eq_getElem hlt]

section Drawn
variable {x y : ℤ} {scale : ℕ}

theorem square_corner (hscale : 0 < scale) {p : Pixel} {k col row k' col' row' : ℕ} (hcol : col < 6)
    (hcol' : col' < 6) (hx : p.x = x + fontW * scale * k + col * scale)
    (hy : p.y = y + row * scale) :
    Square (x + fontW * scale * k') y scale col' row' p ↔ k' = k ∧ col' = col ∧ row' = row := by
  have hpos : (0 : ℤ) < scale := by exact_mod_cast hscale
  constructor
  · rintro ⟨hleft, hright, htop, hbottom⟩
    rw [hx] at hleft hright
    rw [hy] at htop hbottom
    unfold fontW at hleft hright
    have hcolumns : (6 * k' + col' : ℤ) * scale ≤ (6 * k + col) * scale := by linarith
    have hcolumns' : (6 * k + col : ℤ) * scale < (6 * k' + col' + 1) * scale := by linarith
    have hrows : (row' : ℤ) * scale ≤ row * scale := by linarith
    have hrows' : (row : ℤ) * scale < (row' + 1) * scale := by linarith
    have h1 := le_of_mul_le_mul_right hcolumns hpos
    have h2 := lt_of_mul_lt_mul_right hcolumns' hpos.le
    have h3 := le_of_mul_le_mul_right hrows hpos
    have h4 := lt_of_mul_lt_mul_right hrows' hpos.le
    omega
  · rintro ⟨rfl, rfl, rfl⟩
    unfold Square Inside
    omega

theorem inString_corner (hscale : 0 < scale) {str : List (BitVec 8)}
    (hfit : x + fontW * scale * str.length ≤ width) {k : ℕ} {c : BitVec 8} (hc : str[k]? = some c)
    {col row : ℕ} (hcol : col < 6) (hrow : row < 8) {p : Pixel}
    (hx : p.x = x + fontW * scale * k + col * scale) (hy : p.y = y + row * scale) :
    InString x y str scale p ↔ dot c col row = true := by
  constructor
  · rintro ⟨k', c', hc', -, col', hcol', row', hrow', hdot, hsquare⟩
    obtain ⟨rfl, rfl, rfl⟩ := (square_corner hscale hcol hcol' hx hy).mp hsquare
    obtain rfl := Option.some.inj (hc.symm.trans hc')
    exact hdot
  · intro hdot
    have hk := (List.getElem?_eq_some_iff.mp hc).1
    refine ⟨k, c, hc, ?_, col, hcol, row, hrow, hdot, (square_corner hscale hcol hcol hx hy).mpr
      ⟨rfl, rfl, rfl⟩⟩
    have hcells : (scale : ℤ) * (k + 1) ≤ scale * str.length := by
      apply mul_le_mul_of_nonneg_left _ (Int.natCast_nonneg scale)
      exact_mod_cast hk
    unfold fontW at hfit ⊢
    linarith

theorem cell_onScreen (hscale : 0 < scale) {n k col row : ℕ} (hx : 0 ≤ x)
    (hfit : x + fontW * scale * n ≤ width) (hy : 0 ≤ y) (hbottom : y + 8 * scale ≤ height)
    (hk : k < n) (hcol : col < 6) (hrow : row < 8) :
    (x ≤ x + fontW * scale * k + col * scale ∧
      x + fontW * scale * k + col * scale < x + fontW * scale * n) ∧
    (y ≤ y + row * scale ∧ y + row * scale < y + 8 * scale) ∧
    ¬ OffScreen (x + fontW * scale * k + col * scale) (y + row * scale) := by
  have hpos : (0 : ℤ) < scale := by exact_mod_cast hscale
  have hcell : (6 * k + col : ℤ) * scale < 6 * n * scale := by
    apply mul_lt_mul_of_pos_right _ hpos
    omega
  have hline : (row : ℤ) * scale < 8 * scale := by
    apply mul_lt_mul_of_pos_right _ hpos
    omega
  have hcell0 : 0 ≤ (6 * k + col : ℤ) * scale := by positivity
  have hline0 : 0 ≤ (row : ℤ) * scale := by positivity
  have hcolumn : x + 6 * (scale : ℤ) * k + col * scale = x + (6 * k + col) * scale := by ring
  have hend : 6 * (scale : ℤ) * n = 6 * n * scale := by ring
  unfold fontW at hfit ⊢
  unfold OffScreen
  rw [hcolumn]
  rw [hend] at hfit ⊢
  omega

/-- On a clear part of the screen a string that fits is read back, character by character. -/
theorem readString_drawString (d : OledDriver) (on : Bool) (hscale : 0 < scale)
    (str : List (BitVec 8)) (hx : 0 ≤ x) (hfit : x + fontW * scale * str.length ≤ width)
    (hy : 0 ≤ y) (hbottom : y + 8 * scale ≤ height)
    (hclear : ∀ p : Pixel, Inside x y (fontW * scale * str.length) (8 * scale) p →
      d.pixel p = !on) :
    (d.drawString x y str on scale).readString x y on scale str.length =
      some (str.map printable) := by
  refine readString_of_shows fun k c hc col hcol row hrow => ?_
  have hk := (List.getElem?_eq_some_iff.mp hc).1
  obtain ⟨hcolumn, hline, hscreen⟩ := cell_onScreen hscale hx hfit hy hbottom hk hcol hrow
  let p : Pixel := ⟨_, _, hscreen⟩
  have hcorner : InString x y str scale p ↔ dot c col row = true :=
    inString_corner hscale hfit hc hcol hrow rfl rfl
  have hdraws := drawString_draws x y on str scale
  change (d.drawString x y str on scale).pixel p = _
  cases hdot : dot c col row with
  | true => exact hdraws.inside d p (hcorner.mpr hdot)
  | false =>
    rw [hdraws.outside d p fun h => by simp [hcorner.mp h] at hdot]
    exact hclear p ⟨hcolumn.1, hcolumn.2, hline.1, hline.2⟩

theorem readString_drawString_two :
    ((clear false).drawString 16 8 [0x41, 0xE2] true 2).readString 16 8 true 2 2 =
      some [0x41, 0x3F] :=
  readString_drawString (clear false) true (by decide) [0x41, 0xE2] (by decide) (by decide)
    (by decide) (by decide) fun p _ => pixel_clear false p

end Drawn
end OledDriver
end MybipedalDeploy.Oled
