import Mathlib.Algebra.BigOperators.Group.List.Basic
import MybipedalDeploy.Oled.Glass

/-!
# The menu

The cursor counts the clicks that were turned while the menu was on, and the row of the
cursor is the one that is drawn inverted.
-/

namespace MybipedalDeploy.Oled
open OledDriver (clear Draws Inside InString drawTitle renderMenu menuRow)
open Painting (Paints)
open Runs (Run)

section Picture
variable {p : Pixel}

theorem pixel_drawTitle (title : Text) (d : OledDriver) (h : 11 ≤ p.y) :
    (d.drawTitle title).pixel p = d.pixel p := by
  have hline := OledDriver.draws_drawHLine 0 10 128 true
  have htext := OledDriver.drawString_draws (OledDriver.centred title 1) 1 false title 1
  have hbar := OledDriver.draws_fillRect 0 0 128 10 true
  unfold OledDriver.drawTitle
  rw [hline.outside _ p fun hp => by omega, htext.outside _ p fun hp => by have := hp.rows; omega,
    hbar.outside _ p fun hp => by unfold Inside at hp; omega]

variable (sel : ℤ) (item : Text) (i : ℕ)

def InRow (i : ℕ) (p : Pixel) : Prop := 12 + 10 * (i : ℤ) ≤ p.y ∧ p.y < 22 + 10 * i

theorem InString.inRow (h : InString 2 (12 + i * 10 + 1) item 1 p) : InRow i p := by
  have hrows := h.rows
  unfold InRow
  omega

theorem inside_row : Inside 0 (12 + i * 10) 128 10 p ↔ InRow i p := by
  have hscreen := OledDriver.onScreen p.onScreen
  unfold Inside InRow
  omega

theorem pixel_menuRow_other (d : OledDriver) (h : ¬ InRow i p) :
    (menuRow sel d (item, i)).pixel p = d.pixel p := by
  have hbar := OledDriver.draws_fillRect 0 (12 + i * 10) 128 10 true
  have htext (on : Bool) := OledDriver.drawString_draws 2 (12 + i * 10 + 1) on item 1
  unfold menuRow
  dsimp only
  split_ifs
  · rw [(htext false).outside _ p fun hp => h (InString.inRow item i hp),
      hbar.outside _ p fun hp => h ((inside_row i).mp hp)]
  · exact (htext true).outside d p fun hp => h (InString.inRow item i hp)

theorem pixel_menuRow (d : OledDriver) (h : InRow i p) (hclear : d.pixel p = false) :
    (menuRow sel d (item, i)).pixel p = true ↔
      ¬ (InString 2 (12 + i * 10 + 1) item 1 p ↔ (i : ℤ) = sel) := by
  have hbar := OledDriver.draws_fillRect 0 (12 + i * 10) 128 10 true
  have htext (on : Bool) := OledDriver.drawString_draws 2 (12 + i * 10 + 1) on item 1
  unfold menuRow
  dsimp only
  by_cases hsel : (i : ℤ) = sel
  · obtain ⟨hin, hout⟩ := hbar.layered (htext false) d p ((inside_row i).mpr h)
    rw [if_pos hsel]
    by_cases hstr : InString 2 (12 + i * 10 + 1) item 1 p
    · rw [hin hstr]
      exact iff_of_false Bool.false_ne_true fun h => h (iff_of_true hstr hsel)
    · rw [hout hstr]
      exact iff_of_true rfl fun h => hstr (h.mpr hsel)
  · rw [if_neg hsel]
    by_cases hstr : InString 2 (12 + i * 10 + 1) item 1 p
    · rw [(htext true).inside d p hstr]
      exact iff_of_true rfl fun h => hsel (h.mp hstr)
    · rw [(htext true).outside d p hstr, hclear]
      exact iff_of_false Bool.false_ne_true fun h => h (iff_of_false hstr hsel)

theorem nodup_zipIdx {α : Type*} {items : List α} : items.zipIdx.Nodup := by
  apply List.Nodup.of_map Prod.snd
  rw [List.zipIdx_map_snd]
  exact List.nodup_range'

variable {item i}

theorem pixel_renderMenu (hi : kMenuItems[i]? = some item) (h : InRow i p) :
    (renderMenu sel (clear false)).pixel p = true ↔
      ¬ (InString 2 (12 + i * 10 + 1) item 1 p ↔ (i : ℤ) = sel) := by
  have hmem : (item, i) ∈ kMenuItems.zipIdx := List.mem_zipIdx_iff_getElem?.mpr hi
  have hblank : ((clear false).drawTitle (ascii "-- MENU --")).pixel p = false := by
    rw [pixel_drawTitle _ _ (by unfold InRow at h; omega), OledDriver.pixel_clear]
  have hother : ∀ e ∈ kMenuItems.zipIdx, e ≠ (item, i) → ¬ InRow e.2 p := by
    intro e he hne hrow
    have hsame : e.2 = i := by unfold InRow at h hrow; omega
    have hitem := List.mem_zipIdx_iff_getElem?.mp he
    rw [hsame, hi] at hitem
    exact hne (Prod.ext (Option.some.inj hitem).symm hsame)
  exact Painting.get_foldl_alone OledDriver.pixel (menuRow sel)
    (fun v => v = true ↔ ¬ (InString 2 (12 + i * 10 + 1) item 1 p ↔ (i : ℤ) = sel))
    (fun d => pixel_menuRow sel item i d h) hmem nodup_zipIdx
    (fun e he hne d => pixel_menuRow_other sel e.1 e.2 d (hother e he hne)) hblank

end Picture

def clicks : Event × Fate → ℤ
  | (.encCw, .handled .menu) => 1
  | (.encCcw, .handled .menu) => -1
  | _ => 0

def turned (trace : List (Event × Fate)) : ℤ := (trace.map clicks).sum

theorem turned_append (trace more : List (Event × Fate)) :
    turned (trace ++ more) = turned trace + turned more := by
  simp [turned]

theorem turned_swallowed (events : List Event) : turned (events.map (·, .swallowed)) = 0 := by
  have hzero : ∀ ev, clicks (ev, .swallowed) = 0 := fun ev => by cases ev <;> rfl
  simp [turned, Function.comp_def, hzero]

namespace OledModule

structure Placed (m : OledModule) : Prop where
  cursor : m.ctx.menuSel = turned m.trace % 5
  screen : m.ctx.state = .screen → m.ctx.screenIdx = m.ctx.menuSel
  offset : 0 ≤ m.ctx.scrollOffset

theorem offset_renderFrame {ctx : UIContext} (h : 0 ≤ ctx.scrollOffset) (snap : DataSnapshot) :
    (renderFrame ctx snap).1 = { ctx with scrollOffset := (renderFrame ctx snap).1.scrollOffset } ∧
      0 ≤ (renderFrame ctx snap).1.scrollOffset := by
  unfold renderFrame
  split
  next => exact ⟨rfl, h⟩
  next => exact ⟨rfl, h⟩
  next => exact ⟨rfl, h⟩
  next =>
    refine ⟨rfl, ?_⟩
    have hclamp {hi x : ℤ} : 0 ≤ Clamp.clamp 0 hi x := Clamp.le_clamp
    unfold renderScreen
    split_ifs
    · exact hclamp
    · exact hclamp
    · exact h
    · unfold OledDriver.renderLog
      dsimp only
      split_ifs <;> exact hclamp
    · exact hclamp
    · exact h

namespace Placed
variable {m : OledModule}

theorem next_cursor (s : ℤ) : (s % 5 + 1).tmod 5 = (s + 1) % 5 := by
  rw [Int.tmod_eq_emod_of_nonneg (by omega)]
  omega

theorem previous_cursor (s : ℤ) : (s % 5 + 4).tmod 5 = (s + -1) % 5 := by
  rw [Int.tmod_eq_emod_of_nonneg (by omega)]
  omega

theorem react (h : m.Placed) (ev : Event) (now : ℤ) (hs : m.ctx.state ≠ .sleeping) :
    Placed { m.note ev (.handled m.ctx.state) with
      ctx := onEvent ev (m.ctx.touch now), loop := .timeout } := by
  obtain ⟨hcursor, hscreen, hoffset⟩ := h
  unfold UIContext.touch
  constructor
  · simp only [note, turned_append]
    cases hstate : m.ctx.state <;> cases ev <;>
      simp [onEvent, turned, clicks, hcursor, next_cursor, previous_cursor]
  · cases hstate : m.ctx.state <;> cases ev <;> simp_all [onEvent]
  · cases hstate : m.ctx.state <;> cases ev <;> simp [onEvent, hoffset]
    omega

theorem same (h : m.Placed) {m' : OledModule} (htrace : turned m'.trace = turned m.trace)
    (hsel : m'.ctx.menuSel = m.ctx.menuSel) (hidx : m'.ctx.screenIdx = m.ctx.screenIdx)
    (hstate : m'.ctx.state = .screen → m.ctx.state = .screen) (hoffset : 0 ≤ m'.ctx.scrollOffset) :
    m'.Placed := by
  refine ⟨?_, fun hs => ?_, hoffset⟩
  · rw [hsel, htrace]
    exact h.cursor
  · rw [hsel, hidx]
    exact h.screen (hstate hs)

theorem moves (h : m.Placed) {m' : OledModule} (hm : m.Moves m') : m'.Placed := by
  have hnote (ev : Event) {fate : Fate} (hfate : clicks (ev, fate) = 0) :
      turned (m.trace ++ [(ev, fate)]) = turned m.trace := by
    rw [turned_append]
    simp [turned, hfate]
  cases hm with
  | react ev hl hs => exact h.react ev m.now hs
  | drop ev hl =>
    refine h.same (hnote ev ?_) rfl rfl id h.offset
    cases ev <;> rfl
  | wake ev hl hs =>
    refine h.same (hnote ev ?_) rfl rfl (fun hs => by simp at hs) h.offset
    cases ev <;> rfl
  | swallow hl =>
    refine h.same ?_ rfl rfl id h.offset
    simp [swallow, goTo, turned_append, turned_swallowed]
  | timedOut hl => exact h.same rfl rfl rfl (fun hs => by simp at hs) h.offset
  | draw hl =>
    obtain ⟨hctx, hoffset⟩ := offset_renderFrame h.offset m.shared
    have hstate : (renderFrame m.ctx m.shared).1.state = m.ctx.state := by rw [hctx]
    refine h.same rfl ?_ ?_ (fun hs => hstate ▸ hs) hoffset
    · change (renderFrame m.ctx m.shared).1.menuSel = _
      rw [hctx]
    · change (renderFrame m.ctx m.shared).1.screenIdx = _
      rw [hctx]
  | _ => exact h.same rfl rfl rfl id h.offset

theorem run (now sleepTimeout : ℤ) (shared : DataSnapshot) {as : List Action}
    {m : OledModule} (h : Run OledModule.step (started now sleepTimeout shared) as m) : m.Placed := by
  refine h.invariant Placed ⟨rfl, fun hs => by simp [started, UIContext.start] at hs, le_rfl⟩ ?_
  intro s a t hs ht
  by_cases ha : a = .main
  · subst ha
    cases ht
    exact hs.moves s.moves_mainStep
  · obtain ⟨-, hctx, htrace⟩ := step_beside ht ha
    exact hs.same (by rw [htrace]) (by rw [hctx]) (by rw [hctx]) (fun hscreen => hctx ▸ hscreen)
      (by rw [hctx]; exact hs.offset)

end Placed

/-- The menu on the glass: each item in its row, and just the row inverted that the clicks
turned so far lead to. -/
theorem menu_shown (now sleepTimeout : ℤ) (shared : DataSnapshot) {as : List Action}
    {m : OledModule} (h : Run step (started now sleepTimeout shared) as m) (hu : m.Untouched)
    (hbetween : Loop.Between m.loop) (hstate : m.ctx.state = .menu) {i : ℕ} {item : Text}
    (hi : kMenuItems[i]? = some item) {p : Pixel} (hp : InRow i p) :
    m.display.glass.pixel p = true ↔
      ¬ (InString 2 (12 + i * 10 + 1) item 1 p ↔ (i : ℤ) = turned m.trace % 5) := by
  obtain ⟨snap, -, hframe⟩ := (following now sleepTimeout shared h hu).shows hbetween
  have hglass : m.display.glass = renderMenu m.ctx.menuSel (clear false) := by
    have hsnd := congrArg Prod.snd hframe
    simpa [renderFrame, hstate] using hsnd.symm
  rw [hglass, pixel_renderMenu m.ctx.menuSel hi hp, (Placed.run now sleepTimeout shared h).cursor]

def toMenu : List Action :=
  wakeUp ++ [.input .encPush, .main, .main, .main, .main, .main, .main, .main] ++
    [.input .encCw, .main, .main, .main, .main, .main, .main, .main]

theorem menu_shown_toMenu :
    ∃ m, Run step (started 0 30000000000 .initial) toMenu m ∧ turned m.trace = 1 ∧
      (m.display.glass.pixel ⟨0, 22, by decide⟩ = true ↔
        ¬ (InString 2 (12 + (1 : ℕ) * 10 + 1) (ascii "2 IMU State") 1 ⟨0, 22, by decide⟩ ↔
          ((1 : ℕ) : ℤ) = turned m.trace % 5)) :=
  ⟨_, Runs.run_of_exec toMenu rfl, rfl, menu_shown 0 30000000000 .initial
    (Runs.run_of_exec toMenu rfl) ⟨nofun, nofun, nofun⟩ trivial rfl rfl
    (p := ⟨0, 22, by decide⟩) ⟨by decide, by decide⟩⟩

end OledModule
end MybipedalDeploy.Oled
