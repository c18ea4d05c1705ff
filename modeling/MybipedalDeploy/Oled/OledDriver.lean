import Mathlib.Algebra.Order.Group.Int
import Mathlib.Algebra.Order.Group.Unbundled.Abs
import Mathlib.Data.List.Basic

/-!
# The framebuffer of the display, its lines and its circles

A pixel outside the screen is not drawn. `drawLine` and `drawCircle` have loops without a
bound; here these have a number of rounds, and return the points they went through, in
their order.
-/

namespace MybipedalDeploy.Oled

def width : ℤ := 128
def height : ℤ := 64

structure OledDriver where
  buf : List (BitVec 8)
  size : buf.length = 1024

namespace OledDriver

def OffScreen (x y : ℤ) : Prop := x < 0 ∨ x ≥ width ∨ y < 0 ∨ y ≥ height

instance (x y : ℤ) : Decidable (OffScreen x y) := inferInstanceAs (Decidable (_ ∨ _ ∨ _ ∨ _))

def index (x y : ℤ) : ℕ := (y / 8 * width + x).toNat

def bit (y : ℤ) : ℕ := (y % 8).toNat

def setPixel (d : OledDriver) (x y : ℤ) (on : Bool) : OledDriver :=
  if OffScreen x y then d
  else
    let byte := d.buf.getD (index x y) 0
    { buf := d.buf.set (index x y)
        (if on then byte ||| 1#8 <<< bit y else byte &&& ~~~(1#8 <<< bit y))
      size := List.length_set.trans d.size }

def getPixel (d : OledDriver) (x y : ℤ) : Bool :=
  if OffScreen x y then false else (d.buf.getD (index x y) 0 >>> bit y) &&& 1 != 0

theorem testBit_eq (w : BitVec 8) (k : ℕ) : ((w >>> k) &&& 1 != 0) = w.getLsbD k := by
  have hone : (w >>> k) &&& 1 = BitVec.setWidth 8 (BitVec.ofBool (w.getLsbD k)) := by
    change (w >>> k) &&& 1#8 = _
    rw [BitVec.and_one_eq_setWidth_ofBool_getLsbD, BitVec.getLsbD_ushiftRight, Nat.add_zero]
  rw [hone]
  cases w.getLsbD k <;> rfl

theorem getLsbD_write (w : BitVec 8) {b : ℕ} (hb : b < 8) (on : Bool) (k : ℕ) :
    (if on then w ||| 1#8 <<< b else w &&& ~~~(1#8 <<< b)).getLsbD k =
      if k = b then on else w.getLsbD k := by
  rw [← BitVec.twoPow_eq]
  rcases eq_or_ne k b with rfl | hk
  · cases on <;> simp [hb]
  · have hinside : w.getLsbD k = true → k < 8 := BitVec.lt_of_getLsbD
    cases on with
    | false => simpa [hk, hk.symm] using hinside
    | true => simp [hk, hk.symm]

theorem onScreen {x y : ℤ} (h : ¬ OffScreen x y) : (0 ≤ x ∧ x < 128) ∧ 0 ≤ y ∧ y < 64 := by
  unfold OffScreen width height at h
  omega

theorem index_lt {x y : ℤ} (h : ¬ OffScreen x y) : index x y < 1024 := by
  have hscreen := onScreen h
  unfold index width
  omega

theorem index_bit_inj {x y x' y' : ℤ} (h : ¬ OffScreen x y) (h' : ¬ OffScreen x' y')
    (hindex : index x' y' = index x y) : bit y' = bit y ↔ x' = x ∧ y' = y := by
  have hscreen := onScreen h
  have hscreen' := onScreen h'
  unfold index width at hindex
  unfold bit
  omega

theorem bit_lt (y : ℤ) : bit y < 8 := by
  unfold bit
  omega

theorem getPixel_setPixel (d : OledDriver) (x y : ℤ) (on : Bool) (x' y' : ℤ) :
    (d.setPixel x y on).getPixel x' y' =
      if ¬ OffScreen x y ∧ x' = x ∧ y' = y then on else d.getPixel x' y' := by
  unfold setPixel
  by_cases hoff : OffScreen x y
  · rw [if_pos hoff, if_neg fun h => h.1 hoff]
  · rw [if_neg hoff]
    unfold getPixel
    by_cases hoff' : OffScreen x' y'
    · have hother : ¬ (¬ OffScreen x y ∧ x' = x ∧ y' = y) := by
        rintro ⟨-, rfl, rfl⟩
        exact hoff hoff'
      rw [if_pos hoff', if_neg hother, if_pos hoff']
    · have hlt : index x y < d.buf.length := d.size.symm ▸ index_lt hoff
      rw [if_neg hoff', if_neg hoff', testBit_eq, testBit_eq, List.getD_eq_getElem?_getD]
      dsimp only
      by_cases hindex : index x' y' = index x y
      · rw [hindex, List.getElem?_set_self hlt, Option.getD_some, getLsbD_write _ (bit_lt y)]
        simp only [index_bit_inj hoff hoff' hindex, hoff, not_false_eq_true, true_and]
      · have hother : ¬ (¬ OffScreen x y ∧ x' = x ∧ y' = y) := by
          rintro ⟨-, rfl, rfl⟩
          exact hindex rfl
        rw [List.getElem?_set_ne (Ne.symm hindex), if_neg hother, List.getD_eq_getElem?_getD]

theorem getPixel_foldl (on : Bool) (x y : ℤ) (points : List (ℤ × ℤ)) (d : OledDriver) :
    (points.foldl (fun d p => d.setPixel p.1 p.2 on) d).getPixel x y =
      if ¬ OffScreen x y ∧ (x, y) ∈ points then on else d.getPixel x y := by
  induction points generalizing d with
  | nil => rw [List.foldl_nil, if_neg fun h => List.not_mem_nil h.2]
  | cons p points ih =>
    rw [List.foldl_cons, ih, getPixel_setPixel]
    by_cases hrest : ¬ OffScreen x y ∧ (x, y) ∈ points
    · rw [if_pos hrest, if_pos ⟨hrest.1, List.mem_cons_of_mem _ hrest.2⟩]
    · rw [if_neg hrest]
      refine if_congr ⟨?_, ?_⟩ rfl rfl
      · rintro ⟨hp, rfl, rfl⟩
        exact ⟨hp, List.mem_cons_self⟩
      · rintro ⟨hxy, hmem⟩
        rcases List.mem_cons.mp hmem with rfl | htail
        · exact ⟨hxy, rfl, rfl⟩
        · exact absurd ⟨hxy, htail⟩ hrest

end OledDriver

structure Line where
  x1 : ℤ
  y1 : ℤ
  dx : ℤ
  dy : ℤ
  sx : ℤ
  sy : ℤ

structure Cursor where
  x0 : ℤ
  y0 : ℤ
  err : ℤ

namespace Line

def between (x0 y0 x1 y1 : ℤ) : Line where
  x1 := x1
  y1 := y1
  dx := |x1 - x0|
  dy := |y1 - y0|
  sx := if x0 < x1 then 1 else -1
  sy := if y0 < y1 then 1 else -1

/-- The division of C rounds towards zero. -/
def start (l : Line) (x0 y0 : ℤ) : Cursor := ⟨x0, y0, (if l.dx > l.dy then l.dx else -l.dy).tdiv 2⟩

def step (l : Line) (c : Cursor) : Cursor :=
  let e2 := c.err
  let c := if e2 > -l.dx then { c with err := c.err - l.dy, x0 := c.x0 + l.sx } else c
  if e2 < l.dy then { c with err := c.err + l.dx, y0 := c.y0 + l.sy } else c

def loop (l : Line) (on : Bool) : ℕ → Cursor → OledDriver → Option (List (ℤ × ℤ) × OledDriver)
  | 0, _, _ => none
  | rounds + 1, c, d =>
    let d := d.setPixel c.x0 c.y0 on
    if c.x0 = l.x1 ∧ c.y0 = l.y1 then some ([(c.x0, c.y0)], d)
    else (loop l on rounds (l.step c) d).map fun r => ((c.x0, c.y0) :: r.1, r.2)

end Line

def OledDriver.drawLine (rounds : ℕ) (x0 y0 x1 y1 : ℤ) (on : Bool) (d : OledDriver) :
    Option (List (ℤ × ℤ) × OledDriver) :=
  let l := Line.between x0 y0 x1 y1
  l.loop on rounds (l.start x0 y0) d

structure Arc where
  x : ℤ
  y : ℤ
  d : ℤ

def OledDriver.put8 (cx cy : ℤ) (on : Bool) (px py : ℤ) (d : OledDriver) : OledDriver :=
  let d := d.setPixel (cx + px) (cy + py) on
  let d := d.setPixel (cx - px) (cy + py) on
  let d := d.setPixel (cx + px) (cy - py) on
  let d := d.setPixel (cx - px) (cy - py) on
  let d := d.setPixel (cx + py) (cy + px) on
  let d := d.setPixel (cx - py) (cy + px) on
  let d := d.setPixel (cx + py) (cy - px) on
  d.setPixel (cx - py) (cy - px) on

namespace Arc

def start (r : ℤ) : Arc := ⟨0, r, 3 - 2 * r⟩

/-- The two coordinates have moved on when `d` is updated. -/
def step (a : Arc) : Arc :=
  let x := a.x + 1
  if a.d > 0 then
    let y := a.y - 1
    ⟨x, y, a.d + (4 * (x - y) + 10)⟩
  else ⟨x, a.y, a.d + (4 * x + 6)⟩

def loop (cx cy : ℤ) (on : Bool) : ℕ → Arc → OledDriver → Option (List (ℤ × ℤ) × OledDriver)
  | 0, _, _ => none
  | rounds + 1, a, d =>
    if a.y ≥ a.x then
      (loop cx cy on rounds a.step (d.put8 cx cy on a.x a.y)).map fun r => ((a.x, a.y) :: r.1, r.2)
    else some ([], d)

end Arc

def OledDriver.drawCircle (rounds : ℕ) (cx cy r : ℤ) (on : Bool) (d : OledDriver) :
    Option (List (ℤ × ℤ) × OledDriver) :=
  Arc.loop cx cy on rounds (.start r) d

end MybipedalDeploy.Oled
