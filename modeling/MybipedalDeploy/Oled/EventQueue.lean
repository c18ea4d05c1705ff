import Mathlib.Algebra.BigOperators.Group.List.Basic
import MybipedalDeploy.Oled.OledModule

/-!
# What becomes of the events

Every event that was pushed has one place: in the queue, in the hands of `MainLoop`, or
in the history of what became of it. The order is kept.
-/

namespace MybipedalDeploy.Oled
open Runs (Run)

def Loop.inHand : Loop → List Event
  | .check (some ev) => [ev]
  | .handle ev => [ev]
  | _ => []

def Swallowing (trace : List (Event × Fate)) : Prop :=
  ∃ p ev fate, trace = p ++ [(ev, fate)] ∧ (fate = .swallowed ∨ fate = .handled .sleeping)

def AfterWake (trace : List (Event × Fate)) : Prop :=
  ∀ p ev q, trace = p ++ (ev, .swallowed) :: q → Swallowing p

namespace AfterWake
variable {trace : List (Event × Fate)}

theorem snoc (h : AfterWake trace) {ev : Event} {fate : Fate}
    (hfate : fate = .swallowed → Swallowing trace) : AfterWake (trace ++ [(ev, fate)]) := by
  intro p ev' q hsplit
  rcases List.eq_nil_or_concat q with rfl | ⟨q, last, rfl⟩
  · obtain ⟨rfl, hlast⟩ := List.append_inj' hsplit rfl
    have hsame := List.cons.inj hlast
    exact hfate (congrArg Prod.snd hsame.1)
  · have hinit : trace ++ [(ev, fate)] = (p ++ (ev', .swallowed) :: q) ++ [last] := by
      simpa using hsplit
    exact h p ev' q (List.append_inj' hinit rfl).1

theorem append_swallowed (h : AfterWake trace) (hs : Swallowing trace) (events : List Event) :
    AfterWake (trace ++ events.map (·, .swallowed)) := by
  induction events generalizing trace with
  | nil => simpa using h
  | cons ev events ih =>
    have hnext := ih (h.snoc fun _ => hs) ⟨trace, ev, .swallowed, rfl, .inl rfl⟩
    simpa using hnext

end AfterWake

namespace OledModule

structure Accounted (m : OledModule) : Prop where
  order : m.pushed = m.trace.map Prod.fst ++ m.loop.inHand ++ m.queue
  swallowed : AfterWake m.trace
  dropped : ∀ ev, (ev, .dropped) ∈ m.trace → m.loop = .exited ∧ m.runFlag = false
  woken : m.loop = .clearQueue → Swallowing m.trace

namespace Accounted
variable {m : OledModule}

theorem push (h : m.Accounted) (ev : Event) : (m.push ev).Accounted where
  order := by
    simp only [OledModule.push]
    rw [h.order, List.append_assoc]
  swallowed := h.swallowed
  dropped := h.dropped
  woken := h.woken

theorem same (h : m.Accounted) {m' : OledModule} (hpushed : m'.pushed = m.pushed)
    (htrace : m'.trace = m.trace) (hqueue : m'.queue = m.queue)
    (hhand : m'.loop.inHand = m.loop.inHand) (hwake : m'.loop ≠ .clearQueue)
    (hexit : m.loop = .exited → m'.loop = .exited) (hrun : m'.runFlag = m.runFlag) :
    m'.Accounted where
  order := by rw [hpushed, htrace, hqueue, hhand, h.order]
  swallowed := htrace ▸ h.swallowed
  dropped := by
    intro ev hev
    rw [htrace] at hev
    exact ⟨hexit (h.dropped ev hev).1, hrun ▸ (h.dropped ev hev).2⟩
  woken := fun hclear => absurd hclear hwake

theorem goTo (h : m.Accounted) {loop : Loop} (hhand : loop.inHand = m.loop.inHand)
    (hwake : loop ≠ .clearQueue) (hexit : m.loop ≠ .exited) : (m.goTo loop).Accounted :=
  h.same rfl rfl rfl hhand hwake (fun hl => absurd hl hexit) rfl

theorem report (h : m.Accounted) (ev : Event) (fate : Fate) {m' : OledModule}
    (hhand : m.loop.inHand = [ev]) (hexit : m.loop ≠ .exited) (hpushed : m'.pushed = m.pushed)
    (htrace : m'.trace = m.trace ++ [(ev, fate)]) (hqueue : m'.queue = m.queue)
    (hhand' : m'.loop.inHand = []) (hfate : fate ≠ .swallowed)
    (hdropped : fate = .dropped → m'.loop = .exited ∧ m'.runFlag = false)
    (hwake : m'.loop = .clearQueue → fate = .handled .sleeping) : m'.Accounted where
  order := by
    rw [hpushed, htrace, hqueue, hhand', h.order, hhand]
    simp
  swallowed := htrace ▸ h.swallowed.snoc fun hf => absurd hf hfate
  dropped := by
    intro ev' hev'
    rw [htrace, List.mem_append, List.mem_singleton] at hev'
    rcases hev' with hold | hnew
    · exact absurd (h.dropped ev' hold).1 hexit
    · exact hdropped (congrArg Prod.snd hnew).symm
  woken := fun hclear => ⟨m.trace, ev, fate, htrace, .inr (hwake hclear)⟩

theorem swallow (h : m.Accounted) (hl : m.loop = .clearQueue) :
    (m.swallow.goTo .timeout).Accounted where
  order := by
    have horder := h.order
    rw [hl] at horder
    simp [OledModule.swallow, OledModule.goTo, Loop.inHand, horder, Function.comp_def]
  swallowed := h.swallowed.append_swallowed (h.woken hl) m.queue
  dropped := by
    intro ev hev
    simp only [OledModule.swallow, OledModule.goTo, List.mem_append, List.mem_map] at hev
    rcases hev with hold | ⟨ev', _, hnew⟩
    · have hexited := (h.dropped ev hold).1
      rw [hl] at hexited
      cases hexited
    · exact absurd (congrArg Prod.snd hnew) (by simp)
  woken := fun hclear => by simp [OledModule.goTo] at hclear

theorem moves (h : m.Accounted) {m' : OledModule} (hm : m.Moves m') : m'.Accounted := by
  cases hm with
  | enter hl => exact h.goTo (by rw [hl]; rfl) (by simp) (by simp [hl])
  | leave hl hrun =>
    refine h.same rfl rfl rfl ?_ (by simp [OledModule.goTo]) (fun _ => rfl) rfl
    rcases hl with hl | hl <;> rw [hl] <;> rfl
  | expire hl => exact h.goTo (by rw [hl]; rfl) (by simp) (by simp [hl])
  | take ev rest hl hq =>
    have horder := h.order
    rw [hl, hq] at horder
    refine ⟨?_, h.swallowed, fun ev' hev => ?_, fun hclear => by simp at hclear⟩
    · simpa [Loop.inHand] using horder
    · have hexited := (h.dropped ev' hev).1
      rw [hl] at hexited
      cases hexited
  | idle hl => exact h.goTo (by rw [hl]; rfl) (by simp) (by simp [hl])
  | accept ev hl => exact h.goTo (by rw [hl]; rfl) (by simp) (by simp [hl])
  | drop ev hl hrun =>
    exact h.report ev .dropped (by rw [hl]; rfl) (by simp [hl]) rfl rfl rfl rfl
      (by simp) (fun _ => ⟨rfl, hrun⟩) (by simp [OledModule.goTo])
  | wake ev hl hs =>
    exact h.report ev (.handled .sleeping) (by rw [hl]; rfl) (by simp [hl]) rfl rfl
      rfl rfl (by simp) (by simp) (fun _ => rfl)
  | react ev hl hs =>
    exact h.report ev (.handled m.ctx.state) (by rw [hl]; rfl) (by simp [hl]) rfl
      rfl rfl rfl (by simp) (by simp) (by simp)
  | swallow hl => exact h.swallow hl
  | asleep hl => exact h.goTo (by rw [hl]; rfl) (by simp) (by simp [hl])
  | timedOut hl =>
    exact h.same rfl rfl rfl (by rw [hl]; rfl) (by simp) (by simp [hl]) rfl
  | awake hl => exact h.goTo (by rw [hl]; rfl) (by simp) (by simp [hl])
  | setSleep hl =>
    exact h.same rfl rfl rfl (by rw [hl]; rfl) (by simp [OledModule.goTo]) (by simp [hl]) rfl
  | clear hl =>
    exact h.same rfl rfl rfl (by rw [hl]; rfl) (by simp [OledModule.goTo]) (by simp [hl]) rfl
  | display hl =>
    exact h.same rfl rfl rfl (by rw [hl]; rfl) (by simp [OledModule.goTo]) (by simp [hl]) rfl
  | draw hl =>
    exact h.same rfl rfl rfl (by rw [hl]; rfl) (by simp [OledModule.goTo]) (by simp [hl]) rfl
  | transfer hl =>
    exact h.same rfl rfl rfl (by rw [hl]; rfl) (by simp [OledModule.goTo]) (by simp [hl]) rfl
  | exited hl => exact h

theorem flag (h : m.Accounted) {m' : OledModule} (hpushed : m'.pushed = m.pushed)
    (htrace : m'.trace = m.trace) (hqueue : m'.queue = m.queue) (hloop : m'.loop = m.loop)
    (hrun : m'.runFlag = m.runFlag ∨ m'.runFlag = false) : m'.Accounted where
  order := by rw [hpushed, htrace, hqueue, hloop, h.order]
  swallowed := htrace ▸ h.swallowed
  dropped := by
    intro ev hev
    rw [htrace] at hev
    obtain ⟨hexit, hstop⟩ := h.dropped ev hev
    rw [hloop]
    exact ⟨hexit, hrun.elim (fun hrun => hrun.trans hstop) id⟩
  woken := by
    rw [hloop, htrace]
    exact h.woken

theorem shutdownStep (h : m.Accounted) {m' : OledModule} (hm : m.shutdownStep = some m') :
    m'.Accounted := by
  unfold OledModule.shutdownStep at hm
  split at hm
  next => cases hm; exact h.flag rfl rfl rfl rfl (.inr rfl)
  next => cases hm; exact (h.push .btnBack).flag rfl rfl rfl rfl (.inl rfl)
  next =>
    split_ifs at hm
    cases hm
    exact h.flag rfl rfl rfl rfl (.inl rfl)
  next =>
    split_ifs at hm
    cases hm
    exact h.flag rfl rfl rfl rfl (.inl rfl)
  next => cases hm; exact h.flag rfl rfl rfl rfl (.inl rfl)
  next => cases hm; exact h.flag rfl rfl rfl rfl (.inl rfl)
  next => cases hm; exact h.flag rfl rfl rfl rfl (.inl rfl)
  next => cases hm

theorem step (h : m.Accounted) {a : Action} {m' : OledModule} (hm : m.step a = some m') :
    m'.Accounted := by
  cases a with
  | time d => cases hm; exact h.flag rfl rfl rfl rfl (.inl rfl)
  | input ev =>
    simp only [OledModule.step] at hm
    split_ifs at hm
    cases hm
    exact h.push ev
  | gpioFails =>
    simp only [OledModule.step] at hm
    split_ifs at hm
    cases hm
    exact h.flag rfl rfl rfl rfl (.inr rfl)
  | gpioReturns =>
    simp only [OledModule.step] at hm
    split_ifs at hm
    cases hm
    exact h.flag rfl rfl rfl rfl (.inl rfl)
  | statsReturns =>
    simp only [OledModule.step] at hm
    split_ifs at hm
    cases hm
    exact h.flag rfl rfl rfl rfl (.inl rfl)
  | data snap => cases hm; exact h.flag rfl rfl rfl rfl (.inl rfl)
  | main => cases hm; exact h.moves m.moves_mainStep
  | shutdown => exact h.shutdownStep hm

end Accounted

/-- Nothing is lost, doubled or overtaken, and only what follows a wake-up is swallowed. -/
theorem events_accounted (now sleepTimeout : ℤ) (shared : DataSnapshot) {as : List Action}
    {m : OledModule} (h : Run step (started now sleepTimeout shared) as m) :
    m.pushed = m.trace.map Prod.fst ++ m.loop.inHand ++ m.queue ∧ AfterWake m.trace ∧
      ∀ ev, (ev, .dropped) ∈ m.trace → m.loop = .exited ∧ m.runFlag = false := by
  have hstart : (started now sleepTimeout shared).Accounted :=
    ⟨rfl, fun p ev q hsplit => by simp [started] at hsplit, fun ev hev => by simp [started] at hev,
      fun hclear => by simp [started] at hclear⟩
  have hm := h.invariant Accounted hstart fun s a t hs ht => hs.step ht
  exact ⟨hm.order, hm.swallowed, hm.dropped⟩

def bounce : List Action :=
  [.input .encPush, .main, .main, .main, .input .encCw, .main, .input .encCcw, .main, .input .btnBack]

theorem events_accounted_bounce :
    ∃ m, Run step (started 0 30000000000 .initial) bounce m ∧
      m.trace = [(.encPush, .handled .sleeping), (.encCw, .swallowed), (.encCcw, .swallowed)] ∧
      m.pushed = m.trace.map Prod.fst ++ m.loop.inHand ++ m.queue ∧ AfterWake m.trace ∧
      ∀ ev, (ev, .dropped) ∈ m.trace → m.loop = .exited ∧ m.runFlag = false :=
  ⟨_, Runs.run_of_exec bounce rfl, rfl,
    events_accounted 0 30000000000 .initial (Runs.run_of_exec bounce rfl)⟩

end OledModule
end MybipedalDeploy.Oled
