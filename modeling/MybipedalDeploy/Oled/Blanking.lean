import MybipedalDeploy.Oled.OledModule

/-!
# The display after the shutdown

`Shutdown` joins the input thread and the statistics thread, not `MainLoop`, and switches
the panel off while `MainLoop` may still be in a round. The panel stays off unless that
round was about to wake the display.
-/

namespace MybipedalDeploy.Oled
namespace OledModule
open Runs (Run)

theorem runFlag_step {m m' : OledModule} {a : Action} (hm : m.step a = some m')
    (h : m.runFlag = false) : m'.runFlag = false := by
  cases a with
  | main => cases hm; exact m.moves_mainStep.frame.2.1.trans h
  | shutdown =>
    simp only [step, shutdownStep] at hm
    split at hm
    next => cases hm; rfl
    next => cases hm; exact h
    next => split_ifs at hm; cases hm; exact h
    next => split_ifs at hm; cases hm; exact h
    next => cases hm; exact h
    next => cases hm; exact h
    next => cases hm; exact h
    next => cases hm
  | _ =>
    simp only [step] at hm
    first
    | (cases hm; exact h)
    | (split_ifs at hm; cases hm; first | exact h | rfl)

def Flagged (m : OledModule) : Prop := m.closing ≠ .store → m.runFlag = false

theorem flagged_step {m m' : OledModule} {a : Action} (h : m.Flagged) (hm : m.step a = some m') :
    m'.Flagged := by
  intro hc
  cases a with
  | main =>
    cases hm
    obtain ⟨hclosing, hrun, -⟩ := m.moves_mainStep.frame
    exact hrun.trans (h (hclosing ▸ hc))
  | shutdown =>
    simp only [step, shutdownStep] at hm
    split at hm
    next => cases hm; rfl
    next hpush => cases hm; exact h (by simp [hpush])
    next hjoin => split_ifs at hm; cases hm; exact h (by simp [hjoin])
    next hjoin => split_ifs at hm; cases hm; exact h (by simp [hjoin])
    next hclear => cases hm; exact h (by simp [hclear])
    next hdisplay => cases hm; exact h (by simp [hdisplay])
    next hsleep => cases hm; exact h (by simp [hsleep])
    next => cases hm
  | _ =>
    simp only [step] at hm
    first
    | (cases hm; exact h hc)
    | (split_ifs at hm; cases hm; first | exact h hc | rfl)

def Waking (m : OledModule) : Prop := (∃ ev, m.loop = .handle ev) ∧ m.ctx.state = .sleeping

structure Dark (m : OledModule) : Prop where
  stopped : m.runFlag = false
  off : m.display.lit = false
  calm : ¬ m.Waking
  closed : m.closing = .finished

namespace Dark
variable {m : OledModule}

theorem moves (h : m.Dark) {m' : OledModule} (hm : m.Moves m') : m'.Dark := by
  obtain ⟨hclosing, hrun, -⟩ := hm.frame
  have hcalm : ∀ {n : OledModule}, (∀ ev, n.loop ≠ .handle ev) → ¬ n.Waking :=
    fun hn ⟨⟨ev, hev⟩, _⟩ => hn ev hev
  suffices hrest : m'.display.lit = false ∧ ¬ m'.Waking from
    ⟨hrun.trans h.stopped, hrest.1, hrest.2, hclosing.trans h.closed⟩
  cases hm with
  | enter hl hflag => simp [h.stopped] at hflag
  | idle hl hflag => simp [h.stopped] at hflag
  | accept ev hl hflag => simp [h.stopped] at hflag
  | wake ev hl hs => exact absurd ⟨⟨ev, hl⟩, hs⟩ h.calm
  | setSleep hl => exact ⟨rfl, hcalm (by simp [goTo])⟩
  | exited hl => exact ⟨h.off, h.calm⟩
  | _ => exact ⟨h.off, hcalm (by simp [goTo])⟩

theorem step (h : m.Dark) {a : Action} {m' : OledModule} (hm : m.step a = some m') : m'.Dark := by
  have hstopped := runFlag_step hm h.stopped
  cases a with
  | main => cases hm; exact h.moves m.moves_mainStep
  | shutdown => simp [OledModule.step, shutdownStep, h.closed] at hm
  | _ =>
    simp only [OledModule.step] at hm
    first
    | (cases hm; exact ⟨hstopped, h.off, h.calm, h.closed⟩)
    | (split_ifs at hm; cases hm; exact ⟨hstopped, h.off, h.calm, h.closed⟩)

end Dark

/-- The last step of `Shutdown` switches the panel off for good exactly if `MainLoop` is not
about to wake the display at that moment. -/
theorem stays_dark_iff (now sleepTimeout : ℤ) (shared : DataSnapshot) {as : List Action}
    {m m' : OledModule} (h : Run step (started now sleepTimeout shared) as m)
    (hc : m.closing = .setSleep) (hm : m.step .shutdown = some m') :
    (∀ bs n, Run step m' bs n → n.display.lit = false) ↔ ¬ m.Waking := by
  have hflag : m.Flagged :=
    h.invariant Flagged (fun hstart => absurd rfl hstart) fun _ _ _ hs ht => flagged_step hs ht
  simp only [step, shutdownStep, hc, Option.some.injEq] at hm
  subst hm
  constructor
  · rintro hdark ⟨⟨ev, hev⟩, hs⟩
    -- the event in hand is handled next
    have hlit := hdark [.main] _ (.next .start rfl)
    simp [mainStep, onDisplay, hev, handle, handleEvent, UIContext.touch, hs, Display.setSleep] at hlit
  · intro hcalm bs n hn
    have hdark : Dark { m.onDisplay (.setSleep true) with closing := .finished } :=
      ⟨hflag (by simp [hc]), rfl, hcalm, rfl⟩
    exact (hn.invariant Dark hdark fun _ _ _ hs ht => hs.step ht).off

def lateWake : List Action :=
  [.input .encPush, .main, .main, .main, .shutdown, .shutdown, .gpioReturns, .shutdown,
    .statsReturns, .shutdown, .shutdown, .shutdown]

theorem stays_dark_iff_late :
    ∃ m m', Run step (started 0 30000000000 .initial) lateWake m ∧ m.step .shutdown = some m' ∧
      ¬ ∀ bs n, Run step m' bs n → n.display.lit = false :=
  ⟨_, _, Runs.run_of_exec lateWake rfl, rfl, fun hdark =>
    (stays_dark_iff 0 30000000000 .initial (Runs.run_of_exec lateWake rfl) rfl rfl).mp hdark
      ⟨⟨.encPush, rfl⟩, rfl⟩⟩

def Loop.remaining : Loop → ℕ
  | .exited => 0
  | .test | .check _ => 1
  | .pop | .display | .transfer => 2
  | .clear | .draw => 3
  | .setSleep => 4
  | .timeout => 5
  | .clearQueue => 6
  | .handle _ => 7

theorem Moves.remaining {m m' : OledModule} (h : m.Moves m') (hrun : m.runFlag = false)
    (hl : m.loop ≠ .exited) : Loop.remaining m'.loop < Loop.remaining m.loop := by
  cases h with
  | enter _ hflag => simp [hrun] at hflag
  | idle _ hflag => simp [hrun] at hflag
  | accept _ _ hflag => simp [hrun] at hflag
  | leave hloop =>
    rcases hloop with hloop | hloop <;> simp [hloop, goTo, Loop.remaining]
  | exited hexit => exact absurd hexit hl
  | _ => simp_all [goTo, Loop.remaining]

def Action.isMain : Action → Bool
  | .main => true
  | _ => false

theorem remaining_run {m n : OledModule} {as : List Action} (h : Run step m as n)
    (hrun : m.runFlag = false) : n.runFlag = false ∧ (n.loop = .exited ∨
      Loop.remaining n.loop + as.countP Action.isMain ≤ Loop.remaining m.loop) := by
  induction h with
  | start => exact ⟨hrun, .inr (by simp)⟩
  | @next as s t a hr ht ih =>
    refine ⟨runFlag_step ht ih.1, ?_⟩
    by_cases ha : a = .main
    · subst ha
      cases ht
      by_cases hl : s.loop = .exited
      · exact .inl (by simp [mainStep, hl])
      · have hless := s.moves_mainStep.remaining ih.1 hl
        have hle := ih.2.resolve_left hl
        refine .inr ?_
        rw [List.countP_append]
        simp only [List.countP_singleton, Action.isMain, if_true]
        omega
    · have hcount : Action.isMain a = false := by
        cases a with
        | main => exact absurd rfl ha
        | _ => rfl
      rw [(step_beside ht ha).1]
      simpa [hcount] using ih.2

/-- Once the flag is cleared `MainLoop` has ended after seven of its steps, whatever the
others do in between: it never waits for them. -/
theorem mainLoop_leaves {m n : OledModule} {as : List Action} (h : Run step m as n)
    (hrun : m.runFlag = false) (hsteps : 7 ≤ as.countP Action.isMain) : n.loop = .exited := by
  rcases (remaining_run h hrun).2 with hexit | hle
  · exact hexit
  · have hmost : Loop.remaining m.loop ≤ 7 := by
      cases m.loop <;> simp [Loop.remaining]
    have hnone : Loop.remaining n.loop = 0 := by omega
    cases hl : n.loop <;> simp [hl, Loop.remaining] at hnone ⊢

theorem mainLoop_leaves_failed :
    ∃ m, Run step (started 0 30000000000 .initial) (.gpioFails :: List.replicate 7 .main) m ∧
      m.loop = .exited :=
  ⟨_, .next .start rfl |> fun h => Runs.run_append_iff.mpr ⟨_, h, Runs.run_of_exec _ rfl⟩,
    mainLoop_leaves (Runs.run_of_exec (List.replicate 7 .main) rfl) rfl (by decide)⟩

end OledModule
end MybipedalDeploy.Oled
