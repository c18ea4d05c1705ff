import MybipedalDeploy.Library.Runs
import MybipedalDeploy.Oled.UiRenderer

/-!
# The threads of the display module

`MainLoop`, the input thread, the writers of the shared data and `Shutdown`, one queue
operation, buffer operation or panel command a step. The input thread is any source of
events here. `pushed` and `trace` are histories that no step reads.
-/

namespace MybipedalDeploy.Oled
open OledDriver (clear)

/-- What became of an event; it was handled in a state. -/
inductive Fate
  | handled (state : UIState)
  | swallowed
  | dropped
  deriving DecidableEq

inductive Loop
  | test
  | pop
  | check (ev : Option Event)
  | handle (ev : Event)
  | clearQueue
  | timeout
  | setSleep
  | clear
  | display
  | draw
  | transfer
  | exited
  deriving DecidableEq

inductive Closing
  | store | push | joinGpio | joinStats | clear | display | setSleep | finished
  deriving DecidableEq

structure OledModule where
  runFlag : Bool
  queue : List Event
  ctx : UIContext
  display : Display
  shared : DataSnapshot
  now : ℤ
  sleepTimeout : ℤ
  loop : Loop
  gpioDone : Bool
  statsDone : Bool
  closing : Closing
  pushed : List Event
  trace : List (Event × Fate)

inductive Action
  | time (d : ℕ)
  | input (ev : Event)
  | gpioFails
  | gpioReturns
  | statsReturns
  | data (snap : DataSnapshot)
  | main
  | shutdown

namespace OledModule

/-- `Initialize` and `Start`: the panel was switched on, cleared and put to sleep. -/
def started (now sleepTimeout : ℤ) (shared : DataSnapshot) : OledModule where
  runFlag := true
  queue := []
  ctx := .start now
  display := (((⟨clear false, true, clear false⟩ : Display).draw fun _ => clear false).display).setSleep true
  shared := shared
  now := now
  sleepTimeout := sleepTimeout
  loop := .test
  gpioDone := false
  statsDone := false
  closing := .store
  pushed := []
  trace := []

variable (m : OledModule)

def push (ev : Event) : OledModule :=
  { m with queue := m.queue ++ [ev], pushed := m.pushed ++ [ev] }

def goTo (loop : Loop) : OledModule := { m with loop := loop }

def onDisplay (f : Display → Display) : OledModule := { m with display := f m.display }

def note (ev : Event) (fate : Fate) : OledModule := { m with trace := m.trace ++ [(ev, fate)] }

def handle (ev : Event) : OledModule :=
  let r := handleEvent ev m.now m.ctx m.display
  { m.note ev (.handled m.ctx.state) with
    ctx := r.1
    display := r.2
    -- the queue is cleared after the event that wakes the display
    loop := if m.ctx.state = .sleeping then .clearQueue else .timeout }

def swallow : OledModule :=
  { m with queue := [], trace := m.trace ++ m.queue.map (·, .swallowed) }

/-- Drawing ends with the buffer full; `display` sends it in the next step. -/
def draw : OledModule :=
  let r := renderFrame m.ctx m.shared
  { m with ctx := r.1, display := m.display.draw fun _ => r.2 }

def mainStep : OledModule :=
  match m.loop with
  | .test => m.goTo (if m.runFlag then .pop else .exited)
  | .pop =>
    match m.queue with
    | [] => m.goTo (.check none)
    | ev :: rest => { m with queue := rest, loop := .check (some ev) }
  | .check none => m.goTo (if m.runFlag then .timeout else .exited)
  | .check (some ev) => if m.runFlag then m.goTo (.handle ev) else (m.note ev .dropped).goTo .exited
  | .handle ev => m.handle ev
  | .clearQueue => m.swallow.goTo .timeout
  | .timeout =>
    if m.ctx.state = .sleeping then m.goTo .test
    else if m.ctx.isTimedOut m.now m.sleepTimeout then
      { m with ctx := { m.ctx with state := .sleeping }, loop := .setSleep }
    else m.goTo .draw
  | .setSleep => (m.onDisplay (.setSleep true)).goTo .clear
  | .clear => (m.onDisplay (.draw fun _ => clear false)).goTo .display
  | .display => (m.onDisplay .display).goTo .test
  | .draw => m.draw.goTo .transfer
  | .transfer => (m.onDisplay .display).goTo .test
  | .exited => m

inductive Moves : OledModule → Prop
  | enter (hl : m.loop = .test) (hrun : m.runFlag = true) : Moves (m.goTo .pop)
  | leave (hl : m.loop = .test ∨ m.loop = .check none) (hrun : m.runFlag = false) :
      Moves (m.goTo .exited)
  | expire (hl : m.loop = .pop) (hq : m.queue = []) : Moves (m.goTo (.check none))
  | take (ev : Event) (rest : List Event) (hl : m.loop = .pop) (hq : m.queue = ev :: rest) :
      Moves { m with queue := rest, loop := .check (some ev) }
  | idle (hl : m.loop = .check none) (hrun : m.runFlag = true) : Moves (m.goTo .timeout)
  | accept (ev : Event) (hl : m.loop = .check (some ev)) (hrun : m.runFlag = true) :
      Moves (m.goTo (.handle ev))
  | drop (ev : Event) (hl : m.loop = .check (some ev)) (hrun : m.runFlag = false) :
      Moves ((m.note ev .dropped).goTo .exited)
  | wake (ev : Event) (hl : m.loop = .handle ev) (hs : m.ctx.state = .sleeping) :
      Moves { m.note ev (.handled .sleeping) with
        ctx := { m.ctx.touch m.now with state := .main }
        display := m.display.setSleep false
        loop := .clearQueue }
  | react (ev : Event) (hl : m.loop = .handle ev) (hs : m.ctx.state ≠ .sleeping) :
      Moves { m.note ev (.handled m.ctx.state) with
        ctx := onEvent ev (m.ctx.touch m.now)
        loop := .timeout }
  | swallow (hl : m.loop = .clearQueue) : Moves (m.swallow.goTo .timeout)
  | asleep (hl : m.loop = .timeout) (hs : m.ctx.state = .sleeping) : Moves (m.goTo .test)
  | timedOut (hl : m.loop = .timeout) (hs : m.ctx.state ≠ .sleeping) :
      Moves { m with ctx := { m.ctx with state := .sleeping }, loop := .setSleep }
  | awake (hl : m.loop = .timeout) (hs : m.ctx.state ≠ .sleeping) : Moves (m.goTo .draw)
  | setSleep (hl : m.loop = .setSleep) : Moves ((m.onDisplay (.setSleep true)).goTo .clear)
  | clear (hl : m.loop = .clear) : Moves ((m.onDisplay (.draw fun _ => clear false)).goTo .display)
  | display (hl : m.loop = .display) : Moves ((m.onDisplay .display).goTo .test)
  | draw (hl : m.loop = .draw) : Moves (m.draw.goTo .transfer)
  | transfer (hl : m.loop = .transfer) : Moves ((m.onDisplay .display).goTo .test)
  | exited (hl : m.loop = .exited) : Moves m

theorem moves_mainStep : m.Moves m.mainStep := by
  unfold mainStep
  split
  next hl =>
    cases hrun : m.runFlag with
    | true => exact .enter hl hrun
    | false => exact .leave (.inl hl) hrun
  next hl =>
    split
    next hq => exact .expire hl hq
    next ev rest hq => exact .take ev rest hl hq
  next hl =>
    cases hrun : m.runFlag with
    | true => exact .idle hl hrun
    | false => exact .leave (.inr hl) hrun
  next ev hl =>
    cases hrun : m.runFlag with
    | true => exact .accept ev hl hrun
    | false => exact .drop ev hl hrun
  next ev hl =>
    unfold OledModule.handle handleEvent
    by_cases hs : m.ctx.state = .sleeping
    · simp only [UIContext.touch, hs, if_true]
      exact .wake ev hl hs
    · simp only [UIContext.touch, hs, if_false]
      exact .react ev hl hs
  next hl => exact .swallow hl
  next hl =>
    by_cases hs : m.ctx.state = .sleeping
    · rw [if_pos hs]
      exact .asleep hl hs
    · rw [if_neg hs]
      split_ifs
      · exact .timedOut hl hs
      · exact .awake hl hs
  next hl => exact .setSleep hl
  next hl => exact .clear hl
  next hl => exact .display hl
  next hl => exact .draw hl
  next hl => exact .transfer hl
  next hl => exact .exited hl

theorem Moves.frame {m m' : OledModule} (h : m.Moves m') :
    m'.closing = m.closing ∧ m'.runFlag = m.runFlag ∧ m'.shared = m.shared := by
  cases h <;> exact ⟨rfl, rfl, rfl⟩

def shutdownStep : Option OledModule :=
  match m.closing with
  | .store => some { m with runFlag := false, closing := .push }
  | .push => some { m.push .btnBack with closing := .joinGpio }
  | .joinGpio => if m.gpioDone then some { m with closing := .joinStats } else none
  | .joinStats => if m.statsDone then some { m with closing := .clear } else none
  | .clear => some { m.onDisplay (.draw fun _ => clear false) with closing := .display }
  | .display => some { m.onDisplay .display with closing := .setSleep }
  | .setSleep => some { m.onDisplay (.setSleep true) with closing := .finished }
  | .finished => none

def step (m : OledModule) : Action → Option OledModule
  | .time d => some { m with now := m.now + d }
  | .input ev => if m.gpioDone then none else some (m.push ev)
  | .gpioFails => if m.gpioDone then none else some { m with runFlag := false, gpioDone := true }
  | .gpioReturns => if m.runFlag then none else some { m with gpioDone := true }
  | .statsReturns => if m.runFlag then none else some { m with statsDone := true }
  | .data snap => some { m with shared := snap }
  | .main => some m.mainStep
  | .shutdown => m.shutdownStep

theorem step_beside {m m' : OledModule} {a : Action} (h : m.step a = some m') (ha : a ≠ .main) :
    m'.loop = m.loop ∧ m'.ctx = m.ctx ∧ m'.trace = m.trace := by
  cases a with
  | main => exact absurd rfl ha
  | shutdown =>
    simp only [step, shutdownStep] at h
    split at h
    next => cases h; exact ⟨rfl, rfl, rfl⟩
    next => cases h; exact ⟨rfl, rfl, rfl⟩
    next => split_ifs at h; cases h; exact ⟨rfl, rfl, rfl⟩
    next => split_ifs at h; cases h; exact ⟨rfl, rfl, rfl⟩
    next => cases h; exact ⟨rfl, rfl, rfl⟩
    next => cases h; exact ⟨rfl, rfl, rfl⟩
    next => cases h; exact ⟨rfl, rfl, rfl⟩
    next => cases h
  | _ =>
    simp only [step] at h
    first
    | (cases h; exact ⟨rfl, rfl, rfl⟩)
    | (split_ifs at h; cases h; exact ⟨rfl, rfl, rfl⟩)

end OledModule
end MybipedalDeploy.Oled
