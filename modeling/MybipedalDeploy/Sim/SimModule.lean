import MybipedalDeploy.Library.CriticalSection
import MybipedalDeploy.Library.Runs

/-!
# Shutdown of the simulation

Callbacks, shutdowns and the render thread share `sim_->mtx`. A callback uses the model
and the data under the lock, after a second look at the flag and the pointer; a shutdown
frees them under the lock, after the render loop has reported its exit, or not at all.
-/

namespace MybipedalDeploy.Sim
open Runs (Run)
open CriticalSection (Exclusive)

inductive Pointer
  | null
  | live
  | dangling
  deriving DecidableEq

structure Block where
  ptr : Pointer
  frees : ℕ
  deriving DecidableEq

def Block.delete (b : Block) : Block :=
  if b.ptr = .null then b else ⟨.dangling, b.frees + 1⟩

def Block.forget (b : Block) : Block := { b with ptr := .null }

theorem Block.delete_of_null {b : Block} (h : b.ptr = .null) : b.delete = b := if_pos h

theorem Block.forget_of_null {b : Block} (h : b.ptr = .null) : b.forget = b := by
  cases b
  cases h
  rfl

theorem Block.delete_ptr_ne_live (b : Block) : b.delete.ptr ≠ .live := by
  unfold Block.delete
  split_ifs with h
  · simp [h]
  · simp

inductive Resource
  | ctrlNoise
  | data
  | model
  deriving DecidableEq

inductive Thread
  | callback (i : ℕ)
  | shutdown (i : ℕ)
  | render
  deriving DecidableEq

inductive Phase
  | idle
  -- `CmdCallback`
  | checkRunning
  | checkElapsed
  | lockCallback
  | recheck
  | writeMotorCmd
  | mjStep
  | readSensorData
  -- `Shutdown`
  | testSim
  | requestExit
  | poll (i : ℕ)
  | checkExit
  | lockShutdown
  | delete (r : Resource)
  | forget (r : Resource)
  -- `RenderLoop`
  | loopTest
  | lockFrame
  | frame
  | unlockFrame
  | lockExit
  | reportExit
  | unlockExit
  -- the end of a callback or a shutdown
  | unlock
  deriving DecidableEq

structure SimModule where
  running : Bool
  sim : Bool
  exitrequest : ℕ
  block : Resource → Block
  owner : Option Thread
  pc : Thread → Phase
  fault : Bool

namespace SimModule

def initial (start data : Bool) : SimModule where
  running := start
  sim := start
  exitrequest := 0
  block
    | .model => ⟨if start then .live else .null, 0⟩
    | .ctrlNoise | .data => ⟨if start && data then .live else .null, 0⟩
  owner := none
  pc
    | .render => if start then .loopTest else .idle
    | .callback _ | .shutdown _ => .idle
  fault := false

section Step
variable (s : SimModule) (t : Thread)

def goto (p : Phase) : SimModule := { s with pc := Function.update s.pc t p }

/-- The mutex is a member of the simulation. -/
def lock (p : Phase) : Option SimModule :=
  if s.sim then
    if s.owner = none then some ({ s with owner := some t }.goto t p) else none
  else some { s with fault := true }

def unlock (p : Phase) : SimModule := { s with owner := none }.goto t p

def usable : Bool := (s.block .model).ptr == Pointer.live && (s.block .data).ptr == Pointer.live

/-- `WriteMotorCmd`, `mj_step` and `ReadSensorData` follow both pointers. -/
def use (p : Phase) : SimModule :=
  { s with fault := s.fault || !s.usable }.goto t p

def setBlock (r : Resource) (b : Block) : SimModule :=
  { s with block := Function.update s.block r b }

def afterForget : Resource → Phase
  | .ctrlNoise => .delete .data
  | .data => .delete .model
  | .model => .unlock

/-- The choice is what the step finds outside: the time elapsed, the window or a quit
event. -/
def step (choice : Bool) : Option SimModule :=
  match s.pc t with
  | .idle =>
    match t with
    | .callback _ => some (s.goto t .checkRunning)
    | .shutdown _ => some ({ s with running := false }.goto t .testSim)
    | .render => none
  | .checkRunning => some (s.goto t (if s.running then .checkElapsed else .idle))
  | .checkElapsed => some (s.goto t (if choice then .lockCallback else .idle))
  | .lockCallback => s.lock t .recheck
  | .recheck =>
    some (s.goto t (if s.running ∧ (s.block .data).ptr ≠ .null then .writeMotorCmd else .unlock))
  | .writeMotorCmd => some (s.use t .mjStep)
  | .mjStep => some (s.use t .readSensorData)
  | .readSensorData => some (s.use t .unlock)
  | .testSim => some (s.goto t (if s.sim then .requestExit else .delete .ctrlNoise))
  | .requestExit =>
    some ({ s with exitrequest := if s.exitrequest = 0 then 1 else s.exitrequest }.goto t (.poll 0))
  | .poll i => some (s.goto t (if i < 400 ∧ s.exitrequest ≠ 2 then .poll (i + 1) else .checkExit))
  | .checkExit => some (s.goto t (if s.exitrequest ≠ 2 then .idle else .lockShutdown))
  | .lockShutdown => s.lock t (.delete .ctrlNoise)
  | .delete r => some ((s.setBlock r (s.block r).delete).goto t (.forget r))
  | .forget r => some ((s.setBlock r (s.block r).forget).goto t (afterForget r))
  | .unlock => some (s.unlock t .idle)
  | .loopTest => some (s.goto t (if choice || s.exitrequest ≠ 0 then .lockExit else .lockFrame))
  | .lockFrame => s.lock t .frame
  | .frame =>
    some ({ s with exitrequest := if choice then 1 else s.exitrequest }.goto t .unlockFrame)
  | .unlockFrame => some (s.unlock t .loopTest)
  | .lockExit => s.lock t .reportExit
  | .reportExit => some ({ s with exitrequest := 2 }.goto t .unlockExit)
  | .unlockExit => some (s.unlock t .idle)

def act (a : Thread × Bool) : Option SimModule := s.step a.1 a.2

@[simp] theorem goto_pc_self (p : Phase) : (s.goto t p).pc t = p := Function.update_self ..

theorem goto_pc_of_ne {u : Thread} (h : u ≠ t) (p : Phase) : (s.goto t p).pc u = s.pc u :=
  Function.update_of_ne h ..

@[simp] theorem setBlock_self (r : Resource) (b : Block) : (s.setBlock r b).block r = b :=
  Function.update_self ..

theorem setBlock_of_ne {r r' : Resource} (h : r' ≠ r) (b : Block) :
    (s.setBlock r b).block r' = s.block r' :=
  Function.update_of_ne h ..

end Step
end SimModule
end MybipedalDeploy.Sim
