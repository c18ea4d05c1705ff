import MybipedalDeploy.Oled.UiRenderer

/-!
# Turning through the log

A click moves the log by eight lines, and six are on the screen. At the ends the offset
is cut, so the way back stops at other lines than the way there.
-/

namespace MybipedalDeploy.Oled
open OledDriver (kVisRows maxLogScroll logStart logWindow)

def turn (snap : DataSnapshot) (ctx : UIContext) (ev : Event) : UIContext :=
  (renderFrame (onEvent ev ctx) snap).1

def OnLog (ctx : UIContext) : Prop := ctx.state = .screen ∧ ctx.screenIdx = 3

/-- Line `j` is among the lines that are drawn. -/
def Visible (total : ℕ) (scroll : ℤ) (j : ℕ) : Prop := j ∈ logWindow (List.range total) scroll

theorem visible_iff {total : ℕ} {scroll : ℤ} {j : ℕ} (hj : j < total) :
    Visible total scroll j ↔ logStart total scroll ≤ j ∧ j < logStart total scroll + kVisRows := by
  have hdrop : (List.range total).drop (logStart total scroll) =
      List.range' (logStart total scroll) (total - logStart total scroll) := by
    rw [List.range_eq_range', List.drop_range', Nat.mul_one, Nat.zero_add]
  unfold Visible logWindow
  rw [List.length_range, hdrop]
  rcases le_total kVisRows (total - logStart total scroll) with hle | hle
  · rw [List.take_range'_of_length_ge hle, List.mem_range'_1]
  · rw [List.take_range'_of_length_le hle, List.mem_range'_1]
    omega

def Stop (limit scroll : ℤ) : Prop :=
  (0 ≤ scroll ∧ scroll ≤ limit) ∧ (scroll % 8 = 0 ∨ (limit - scroll) % 8 = 0)

section Turn
variable {snap : DataSnapshot} {ctx : UIContext}

theorem fst_renderLog (scroll : ℤ) (d : OledDriver) : (d.renderLog snap scroll).1 =
    Clamp.clamp 0 (maxLogScroll snap.logLines.length) scroll := by
  unfold OledDriver.renderLog
  dsimp only
  split_ifs <;> rfl

theorem renderFrame_onLog (h : OnLog ctx) : OnLog (renderFrame ctx snap).1 ∧
    (renderFrame ctx snap).1.scrollOffset =
      Clamp.clamp 0 (maxLogScroll snap.logLines.length) ctx.scrollOffset := by
  obtain ⟨hstate, hidx⟩ := h
  have hframe : (renderFrame ctx snap).1 = { ctx with
      scrollOffset := (renderScreen 3 ctx.scrollOffset snap).1 } := by
    simp only [renderFrame, hstate, hidx]
  rw [hframe]
  exact ⟨⟨hstate, hidx⟩, fst_renderLog ctx.scrollOffset (OledDriver.clear false)⟩

variable (snap)

theorem turn_cw (h : OnLog ctx) : OnLog (turn snap ctx .encCw) ∧
    (turn snap ctx .encCw).scrollOffset =
      Clamp.clamp 0 (maxLogScroll snap.logLines.length) (ctx.scrollOffset + 8) := by
  have hev : onEvent .encCw ctx = { ctx with scrollOffset := ctx.scrollOffset + 8 } := by
    simp [onEvent, h.1]
  unfold turn
  rw [hev]
  exact renderFrame_onLog h

theorem turn_ccw (h : OnLog ctx) : OnLog (turn snap ctx .encCcw) ∧
    (turn snap ctx .encCcw).scrollOffset =
      Clamp.clamp 0 (maxLogScroll snap.logLines.length) (max 0 (ctx.scrollOffset - 8)) := by
  have hev : onEvent .encCcw ctx = { ctx with scrollOffset := max 0 (ctx.scrollOffset - 8) } := by
    simp [onEvent, h.1]
  unfold turn
  rw [hev]
  exact renderFrame_onLog h

def Turned (ctx ctx' : UIContext) : Prop :=
  ∃ evs : List Event, (∀ ev ∈ evs, ev = .encCw ∨ ev = .encCcw) ∧ ctx' = evs.foldl (turn snap) ctx

variable {snap}

theorem Turned.snoc {ctx' : UIContext} (h : Turned snap ctx ctx') {ev : Event}
    (hev : ev = .encCw ∨ ev = .encCcw) : Turned snap ctx (turn snap ctx' ev) := by
  obtain ⟨evs, hevs, rfl⟩ := h
  refine ⟨evs ++ [ev], fun e he => ?_, by simp⟩
  rcases List.mem_append.mp he with he | he
  · exact hevs e he
  · rw [List.mem_singleton.mp he]
    exact hev

theorem Turned.stop {ctx' : UIContext} (h : Turned snap ctx ctx') (hlog : OnLog ctx)
    (hzero : ctx.scrollOffset = 0) :
    OnLog ctx' ∧ Stop (maxLogScroll snap.logLines.length) ctx'.scrollOffset := by
  obtain ⟨evs, hevs, rfl⟩ := h
  have hlimit : 0 ≤ maxLogScroll snap.logLines.length := le_max_left _ _
  have hstart : Stop (maxLogScroll snap.logLines.length) ctx.scrollOffset := by
    unfold Stop
    omega
  clear hzero
  induction evs generalizing ctx with
  | nil => exact ⟨hlog, hstart⟩
  | cons ev evs ih =>
    have htail := fun e he => hevs e (List.mem_cons_of_mem ev he)
    unfold Stop at hstart
    rcases hevs ev List.mem_cons_self with rfl | rfl
    · obtain ⟨honLog, hoffset⟩ := turn_cw snap hlog
      refine ih honLog htail ?_
      rw [hoffset]
      unfold Stop Clamp.clamp
      omega
    · obtain ⟨honLog, hoffset⟩ := turn_ccw snap hlog
      refine ih honLog htail ?_
      rw [hoffset]
      unfold Stop Clamp.clamp
      omega

variable (snap)

theorem turned_up (hlog : OnLog ctx) (hzero : ctx.scrollOffset = 0) (k : ℕ) :
    ∃ ctx', Turned snap ctx ctx' ∧ OnLog ctx' ∧
      ctx'.scrollOffset = min (8 * k : ℤ) (maxLogScroll snap.logLines.length) := by
  have hlimit : 0 ≤ maxLogScroll snap.logLines.length := le_max_left _ _
  induction k with
  | zero => exact ⟨ctx, ⟨[], by simp, rfl⟩, hlog, by omega⟩
  | succ k ih =>
    obtain ⟨ctx', hturned, honLog, hoffset⟩ := ih
    obtain ⟨honLog', hoffset'⟩ := turn_cw snap honLog
    refine ⟨_, hturned.snoc (.inl rfl), honLog', ?_⟩
    rw [hoffset', hoffset]
    unfold Clamp.clamp
    omega

theorem turned_down (hlog : OnLog ctx) (hzero : ctx.scrollOffset = 0) (k : ℕ) :
    ∃ ctx', Turned snap ctx ctx' ∧ OnLog ctx' ∧
      ctx'.scrollOffset = max 0 (maxLogScroll snap.logLines.length - 8 * k) := by
  have hlimit : 0 ≤ maxLogScroll snap.logLines.length := le_max_left _ _
  induction k with
  | zero =>
    obtain ⟨ctx', hturned, honLog, hoffset⟩ :=
      turned_up snap hlog hzero (maxLogScroll snap.logLines.length).toNat
    exact ⟨ctx', hturned, honLog, by omega⟩
  | succ k ih =>
    obtain ⟨ctx', hturned, honLog, hoffset⟩ := ih
    obtain ⟨honLog', hoffset'⟩ := turn_ccw snap honLog
    refine ⟨_, hturned.snoc (.inr rfl), honLog', ?_⟩
    rw [hoffset', hoffset]
    unfold Clamp.clamp
    omega

variable {snap}

/-- A line is out of reach exactly if it falls between the strides from the oldest line
and between those from the newest. -/
theorem line_visible_iff (hlog : OnLog ctx) (hzero : ctx.scrollOffset = 0) {j : ℕ}
    (hj : j < snap.logLines.length) :
    (∃ ctx', Turned snap ctx ctx' ∧ Visible snap.logLines.length ctx'.scrollOffset j) ↔
      ¬ (6 ≤ j % 8 ∧ 6 ≤ (snap.logLines.length - 1 - j) % 8) := by
  constructor
  · rintro ⟨ctx', hturned, hvisible⟩
    obtain ⟨-, hstop⟩ := hturned.stop hlog hzero
    unfold Stop maxLogScroll kVisRows at hstop
    rw [visible_iff hj] at hvisible
    unfold logStart kVisRows at hvisible
    push_cast at hstop hvisible
    omega
  · intro hreach
    by_cases hup : 6 ≤ (snap.logLines.length - 1 - j) % 8
    · -- the stride from the oldest line that the line is in
      have hdown : ¬ 6 ≤ j % 8 := fun h => hreach ⟨h, hup⟩
      obtain ⟨ctx', hturned, -, hoffset⟩ := turned_down snap hlog hzero (j / 8)
      refine ⟨ctx', hturned, ?_⟩
      rw [visible_iff hj, hoffset]
      unfold logStart maxLogScroll kVisRows
      push_cast
      omega
    · obtain ⟨ctx', hturned, -, hoffset⟩ :=
        turned_up snap hlog hzero ((snap.logLines.length - 1 - j) / 8)
      refine ⟨ctx', hturned, ?_⟩
      rw [visible_iff hj, hoffset]
      unfold logStart maxLogScroll kVisRows
      push_cast
      omega

end Turn

def fourteenLines : DataSnapshot :=
  { DataSnapshot.initial with logLines := List.replicate 14 (ascii "tick") }

theorem line_visible_iff_fourteen :
    ¬ ∃ ctx', Turned fourteenLines ⟨.screen, 3, 3, 0, 0⟩ ctx' ∧
      Visible fourteenLines.logLines.length ctx'.scrollOffset 6 := by
  rw [line_visible_iff ⟨rfl, rfl⟩ rfl (by decide)]
  decide

end MybipedalDeploy.Oled
