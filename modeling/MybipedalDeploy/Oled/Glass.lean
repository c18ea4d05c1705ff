import MybipedalDeploy.Oled.OledModule

/-!
# What the panel shows

While `Shutdown` has not touched the display, the panel is on exactly when the module is
awake, and between two rounds of `MainLoop` it shows the screen of the present state,
drawn from data that was really there.
-/

namespace MybipedalDeploy.Oled
open OledDriver (clear)
open Runs (Run)

theorem clamp_clamp {lo hi x : ℤ} (h : lo ≤ hi) :
    Clamp.clamp lo hi (Clamp.clamp lo hi x) = Clamp.clamp lo hi x :=
  Clamp.clamp_eq_self Clamp.le_clamp (Clamp.clamp_le h)

section Render
variable (snap : DataSnapshot)

theorem renderScreen_again (screenIdx scroll : ℤ) :
    renderScreen screenIdx (renderScreen screenIdx scroll snap).1 snap =
      renderScreen screenIdx scroll snap := by
  have hlog : 0 ≤ OledDriver.maxLogScroll snap.logLines.length := le_max_left _ _
  unfold renderScreen
  split_ifs
  · simp only [OledDriver.renderJointState, clamp_clamp (le_max_left 0 _)]
  · simp only [OledDriver.renderIMU, clamp_clamp (le_max_left 0 _)]
  · rfl
  · unfold OledDriver.renderLog
    dsimp only
    split_ifs <;> simp only [clamp_clamp hlog]
  · simp only [OledDriver.renderSBC, clamp_clamp (le_max_left 0 _)]
  · rfl

theorem renderFrame_again (ctx : UIContext) :
    renderFrame (renderFrame ctx snap).1 snap = renderFrame ctx snap := by
  obtain ⟨state, menuSel, screenIdx, scroll, lastActive⟩ := ctx
  cases state with
  | screen => simp only [renderFrame, renderScreen_again]
  | _ => rfl

@[simp] theorem state_renderFrame (ctx : UIContext) : (renderFrame ctx snap).1.state = ctx.state := by
  unfold renderFrame
  split <;> rfl

end Render

theorem state_onEvent {ctx : UIContext} (ev : Event) (h : ctx.state ≠ .sleeping) :
    (onEvent ev ctx).state ≠ .sleeping := by
  unfold onEvent
  split <;> simp_all

namespace OledModule

/-- `Shutdown` has not come to the display yet. -/
def Untouched (m : OledModule) : Prop :=
  m.closing ≠ .display ∧ m.closing ≠ .setSleep ∧ m.closing ≠ .finished

def PowerAgrees (m : OledModule) : Prop :=
  m.display.lit = true ↔ m.ctx.state ≠ .sleeping ∨ m.loop = .setSleep

def Shows (offered : DataSnapshot → Prop) (m : OledModule) : Prop :=
  ∃ snap, offered snap ∧ renderFrame m.ctx snap = (m.ctx, m.display.glass)

def Settled (offered : DataSnapshot → Prop) (m : OledModule) : Prop :=
  match m.loop with
  | .test | .pop | .check _ | .handle _ | .exited => m.Shows offered
  | .clearQueue | .draw => m.ctx.state ≠ .sleeping
  | .timeout => m.ctx.state = .sleeping → m.Shows offered
  | .setSleep | .clear => m.ctx.state = .sleeping
  | .display => m.ctx.state = .sleeping ∧ m.display.oled = clear false
  | .transfer => m.ctx.state ≠ .sleeping ∧
      ∃ snap, offered snap ∧ renderFrame m.ctx snap = (m.ctx, m.display.oled)

structure Following (offered : DataSnapshot → Prop) (m : OledModule) : Prop where
  power : m.PowerAgrees
  settled : m.Settled offered
  shared : offered m.shared

namespace Following
variable {offered : DataSnapshot → Prop} {m : OledModule}

theorem goTo (h : m.Following offered) {loop : Loop} (hpower : m.loop ≠ .setSleep)
    (hloop : loop ≠ .setSleep) (hsettled : (m.goTo loop).Settled offered) :
    (m.goTo loop).Following offered := by
  refine ⟨?_, hsettled, h.shared⟩
  have hagrees := h.power
  unfold PowerAgrees at hagrees ⊢
  simp only [OledModule.goTo, hloop, hpower, or_false] at hagrees ⊢
  exact hagrees

theorem moves (h : m.Following offered) {m' : OledModule} (hm : m.Moves m') :
    m'.Following offered := by
  have hpower := h.power
  have hsettled := h.settled
  unfold PowerAgrees at hpower
  unfold Settled at hsettled
  cases hm with
  | enter hl =>
    rw [hl] at hsettled
    exact h.goTo (by simp [hl]) (by simp) hsettled
  | leave hl =>
    have hshows : m.Shows offered := by
      rcases hl with hl | hl <;> rw [hl] at hsettled <;> exact hsettled
    have hnot : m.loop ≠ .setSleep := by
      rcases hl with hl | hl <;> simp [hl]
    exact h.goTo hnot (by simp) hshows
  | expire hl =>
    rw [hl] at hsettled
    exact h.goTo (by simp [hl]) (by simp) hsettled
  | take ev rest hl =>
    rw [hl] at hsettled hpower
    exact ⟨by simpa [PowerAgrees] using hpower, hsettled, h.shared⟩
  | idle hl =>
    rw [hl] at hsettled
    exact h.goTo (by simp [hl]) (by simp) fun _ => hsettled
  | accept ev hl =>
    rw [hl] at hsettled
    exact h.goTo (by simp [hl]) (by simp) hsettled
  | drop ev hl =>
    rw [hl] at hsettled hpower
    exact ⟨by simpa [PowerAgrees, OledModule.goTo, OledModule.note] using hpower, hsettled, h.shared⟩
  | wake ev hl hs =>
    exact ⟨by simp [PowerAgrees, Display.setSleep], by simp [Settled], h.shared⟩
  | react ev hl hs =>
    have hawake : (onEvent ev (m.ctx.touch m.now)).state ≠ .sleeping :=
      state_onEvent ev (by simpa [UIContext.touch] using hs)
    rw [hl] at hpower
    refine ⟨?_, fun hsleep => absurd hsleep hawake, h.shared⟩
    simpa [PowerAgrees, hawake, OledModule.note, hs] using hpower
  | swallow hl =>
    rw [hl] at hsettled hpower
    refine ⟨?_, fun hsleep => absurd hsleep hsettled, h.shared⟩
    simpa [PowerAgrees, OledModule.goTo, OledModule.swallow] using hpower
  | asleep hl hs =>
    rw [hl] at hsettled
    exact h.goTo (by simp [hl]) (by simp) (hsettled hs)
  | timedOut hl hs =>
    rw [hl] at hpower
    exact ⟨by simpa [PowerAgrees, hs] using hpower, rfl, h.shared⟩
  | awake hl hs => exact h.goTo (by simp [hl]) (by simp) hs
  | setSleep hl =>
    rw [hl] at hsettled
    refine ⟨?_, hsettled, h.shared⟩
    simpa [PowerAgrees, OledModule.goTo, OledModule.onDisplay, Display.setSleep] using hsettled
  | clear hl =>
    rw [hl] at hsettled hpower
    refine ⟨?_, ⟨hsettled, rfl⟩, h.shared⟩
    simpa [PowerAgrees, OledModule.goTo, OledModule.onDisplay, Display.draw] using hpower
  | display hl =>
    rw [hl] at hsettled hpower
    refine ⟨?_, ⟨m.shared, h.shared, ?_⟩, h.shared⟩
    · simpa [PowerAgrees, OledModule.goTo, OledModule.onDisplay, Display.display] using hpower
    · simp [renderFrame, OledModule.goTo, OledModule.onDisplay, Display.display, hsettled.1,
        hsettled.2]
  | draw hl =>
    rw [hl] at hsettled hpower
    refine ⟨?_, ⟨?_, m.shared, h.shared, renderFrame_again m.shared m.ctx⟩, h.shared⟩
    · simpa [PowerAgrees, OledModule.goTo, OledModule.draw, Display.draw] using hpower
    · simpa [OledModule.goTo, OledModule.draw] using hsettled
  | transfer hl =>
    rw [hl] at hsettled hpower
    obtain ⟨_, snap, hoffered, hframe⟩ := hsettled
    refine ⟨?_, ⟨snap, hoffered, hframe⟩, h.shared⟩
    simpa [PowerAgrees, OledModule.goTo, OledModule.onDisplay, Display.display] using hpower
  | exited hl => exact h

theorem mono {offered' : DataSnapshot → Prop} (h : m.Following offered)
    (himp : ∀ snap, offered snap → offered' snap) : m.Following offered' := by
  refine ⟨h.power, ?_, himp _ h.shared⟩
  have hsettled := h.settled
  have hshows : m.Shows offered → m.Shows offered' :=
    fun ⟨snap, hoffered, hframe⟩ => ⟨snap, himp snap hoffered, hframe⟩
  unfold Settled at hsettled ⊢
  cases hl : m.loop with
  | timeout => rw [hl] at hsettled; exact fun hsleep => hshows (hsettled hsleep)
  | transfer =>
    rw [hl] at hsettled
    obtain ⟨hawake, snap, hoffered, hframe⟩ := hsettled
    exact ⟨hawake, snap, himp snap hoffered, hframe⟩
  | _ => rw [hl] at hsettled; first | exact hshows hsettled | exact hsettled

theorem beside (h : m.Following offered) {m' : OledModule} (hloop : m'.loop = m.loop)
    (hctx : m'.ctx = m.ctx) (hdisplay : m'.display = m.display) (hshared : offered m'.shared) :
    m'.Following offered := by
  refine ⟨?_, ?_, hshared⟩
  · have hpower := h.power
    unfold PowerAgrees at hpower ⊢
    rwa [hloop, hctx, hdisplay]
  · have hsettled := h.settled
    unfold Settled Shows at hsettled ⊢
    rwa [hloop, hctx, hdisplay]

theorem step (h : m.Following offered) {a : Action} {m' : OledModule} (hm : m.step a = some m')
    (hdata : ∀ snap, a = .data snap → offered snap) (hu : m'.Untouched) : m'.Following offered := by
  cases a with
  | time d => cases hm; exact h.beside rfl rfl rfl h.shared
  | data snap => cases hm; exact h.beside rfl rfl rfl (hdata snap rfl)
  | main => cases hm; exact h.moves m.moves_mainStep
  | shutdown =>
    simp only [OledModule.step, shutdownStep] at hm
    obtain ⟨hdisplay, hsetSleep, hfinished⟩ := hu
    split at hm
    next => cases hm; exact h.beside rfl rfl rfl h.shared
    next => cases hm; exact h.beside rfl rfl rfl h.shared
    next => split_ifs at hm; cases hm; exact h.beside rfl rfl rfl h.shared
    next => split_ifs at hm; cases hm; exact h.beside rfl rfl rfl h.shared
    next => cases hm; exact absurd rfl hdisplay
    next => cases hm; exact absurd rfl hsetSleep
    next => cases hm; exact absurd rfl hfinished
    next => cases hm
  | _ =>
    simp only [OledModule.step] at hm
    split_ifs at hm
    cases hm
    exact h.beside rfl rfl rfl h.shared

end Following

theorem untouched_of_step {m m' : OledModule} {a : Action} (hm : m.step a = some m')
    (h : m'.Untouched) : m.Untouched := by
  cases a with
  | main =>
    cases hm
    simpa [Untouched, m.moves_mainStep.frame.1] using h
  | shutdown =>
    simp only [step, shutdownStep] at hm
    unfold Untouched at h ⊢
    split at hm
    next hc => simp [hc]
    next hc => simp [hc]
    next hc => simp [hc]
    next hc => simp [hc]
    next hc => simp [hc]
    next => cases hm; simp at h
    next => cases hm; simp at h
    next => cases hm
  | _ =>
    simp only [step] at hm
    first
    | (cases hm; exact h)
    | (split_ifs at hm; cases hm; exact h)

def Offered (shared : DataSnapshot) (as : List Action) (snap : DataSnapshot) : Prop :=
  snap = shared ∨ .data snap ∈ as

theorem following (now sleepTimeout : ℤ) (shared : DataSnapshot) {as : List Action}
    {m : OledModule} (h : Run step (started now sleepTimeout shared) as m) (hu : m.Untouched) :
    m.Following (Offered shared as) := by
  induction h with
  | start => exact ⟨by simp [PowerAgrees, started, Display.setSleep, UIContext.start],
      ⟨shared, .inl rfl, rfl⟩, .inl rfl⟩
  | @next as s t a hr ht ih =>
    have hbefore := ih (untouched_of_step ht hu)
    refine (hbefore.mono fun snap => Or.imp_right fun hmem => List.mem_append_left [a] hmem).step ht
      ?_ hu
    rintro snap rfl
    exact .inr (by simp)

def Loop.Between : Loop → Prop
  | .test | .pop | .check _ | .handle _ | .exited => True
  | _ => False

theorem Following.shows {offered : DataSnapshot → Prop} {m : OledModule} (h : m.Following offered)
    (hbetween : Loop.Between m.loop) : m.Shows offered := by
  have hsettled := h.settled
  unfold Settled at hsettled
  cases hl : m.loop with
  | test => rw [hl] at hsettled; exact hsettled
  | pop => rw [hl] at hsettled; exact hsettled
  | check ev => rw [hl] at hsettled; exact hsettled
  | handle ev => rw [hl] at hsettled; exact hsettled
  | exited => rw [hl] at hsettled; exact hsettled
  | _ => rw [hl] at hbetween; exact hbetween.elim

/-- On exactly when awake, up to the command that follows; and never an old picture. -/
theorem panel_follows (now sleepTimeout : ℤ) (shared : DataSnapshot) {as : List Action}
    {m : OledModule} (h : Run step (started now sleepTimeout shared) as m) (hu : m.Untouched) :
    (m.display.lit = true ↔ m.ctx.state ≠ .sleeping ∨ m.loop = .setSleep) ∧
      (Loop.Between m.loop → ∃ snap, Offered shared as snap ∧
        renderFrame m.ctx snap = (m.ctx, m.display.glass)) := by
  have hfollowing := following now sleepTimeout shared h hu
  exact ⟨hfollowing.power, hfollowing.shows⟩

def wakeUp : List Action :=
  [.input .encPush, .main, .main, .main, .main, .main, .main, .main, .main]

theorem panel_follows_wakeUp :
    ∃ m, Run step (started 0 30000000000 .initial) wakeUp m ∧ m.ctx.state = .main ∧
      (m.display.lit = true ↔ m.ctx.state ≠ .sleeping ∨ m.loop = .setSleep) ∧
        (Loop.Between m.loop → ∃ snap, Offered .initial wakeUp snap ∧
          renderFrame m.ctx snap = (m.ctx, m.display.glass)) :=
  ⟨_, Runs.run_of_exec wakeUp rfl, rfl, panel_follows 0 30000000000 .initial
    (Runs.run_of_exec wakeUp rfl) ⟨nofun, nofun, nofun⟩⟩

end OledModule
end MybipedalDeploy.Oled
