import Mathlib.Algebra.Order.Floor.Defs
import Mathlib.Data.Rat.Floor
import MybipedalDeploy.Control.Callbacks
import MybipedalDeploy.Control.RingTrace

/-!
# The traces of the control module

With a directory for them in the environment, `MainLoop` records each command it publishes,
and the callbacks the joint states and the IMU samples as they come. The traces are written
to files once, by whoever ends the module first: `Shutdown`, or `MainLoop` when it is left.
A callback and a dump are one step here; how a dump meets a push that is under way is the
subject of `Recorder`.
-/

namespace MybipedalDeploy.Control
open Msg (Twist Imu JointState JointCommand)

/-- `static_cast<float>` of a double and of an integer, and the quiet NaN. -/
structure Floats (K : Type*) (F : Type) where
  cast : K → F
  ofInt : ℤ → F
  nan : F

structure TraceFiles where
  jointCmd : List String
  jointState : List String
  imu : List String
  metaTxt : List String

/-- The members of `ControlModule` that its traces use. The row buffers are left out: a row
is written whole before it is pushed. -/
structure Traces (F : Type) where
  jointNames : List String
  ctrlNames : List String
  cmdTrace : RingTrace F
  stateTrace : RingTrace F
  imuTrace : RingTrace F
  stateIdx : List ℤ
  lastCmd : F × F × F
  traceT0Ns : BitVec 64
  freq : ℕ
  traceDumped : Bool
  files : Option TraceFiles

structure Disk where
  created : Bool
  cmdOpened : Bool
  stateOpened : Bool
  imuOpened : Bool
  metaOpened : Bool

def Disk.whole : Disk := ⟨true, true, true, true, true⟩

namespace Traces
variable {K : Type*} {F : Type}

def cmdCols (jointNames : List String) : List String :=
  jointNames.map ("cmd_" ++ ·) ++ ["vx", "vy", "wz", "ctrl_id"]

def stateCols (jointNames : List String) : List String :=
  jointNames.map ("pos_" ++ ·) ++ jointNames.map ("vel_" ++ ·) ++ jointNames.map ("eff_" ++ ·)

def imuCols : List String := ["qw", "qx", "qy", "qz", "gx", "gy", "gz", "ax", "ay", "az"]

/-- The place of the last active controller in the configuration, -1 without one. -/
def ctrlId (ctrlNames active : List String) : ℤ :=
  match active.getLast? with
  | none => -1
  | some name =>
    match ctrlNames.findIdx? (· == name) with
    | none => -1
    | some k => k

def imuRow (fl : Floats K F) (msg : Imu K) : List F :=
  [fl.cast msg.orientation.w, fl.cast msg.orientation.x, fl.cast msg.orientation.y,
    fl.cast msg.orientation.z, fl.cast msg.angularVelocity.x, fl.cast msg.angularVelocity.y,
    fl.cast msg.angularVelocity.z, fl.cast msg.linearAcceleration.x,
    fl.cast msg.linearAcceleration.y, fl.cast msg.linearAcceleration.z]

section Zero
variable [Zero F]

/-- `InitTrace` at the end of `Initialize`; `dir` is `MYBIPEDAL_LOG_DIR` and `secs` the value
of `MYBIPEDAL_LOG_SECONDS`, if there is one. -/
def initTrace (jointNames ctrlNames : List String) (freq : ℕ) (dir : Option String)
    (secs : Option ℚ) (nowNs : BitVec 64) : Traces F :=
  let off : Traces F :=
    { jointNames := jointNames
      ctrlNames := ctrlNames
      cmdTrace := .new
      stateTrace := .new
      imuTrace := .new
      stateIdx := []
      lastCmd := (0, 0, 0)
      traceT0Ns := 0
      freq := freq
      traceDumped := false
      files := none }
  if dir.getD "" = "" then off
  else
    let secs := max (secs.getD ((300 : ℕ) : ℚ)) 1
    let rows := ⌊secs * freq⌋₊
    let rows2 := ⌊secs * freq * ((2 : ℕ) : ℚ)⌋₊
    { off with
      cmdTrace := RingTrace.new.init (cmdCols jointNames) rows
      stateTrace := RingTrace.new.init (stateCols jointNames) rows2
      imuTrace := RingTrace.new.init imuCols rows2
      traceT0Ns := nowNs }

variable [Zero K] (fl : Floats K F)

def cmdRow (r : Traces F) (active : List String) (cmd : JointCommand K) : List F :=
  (List.range r.jointNames.length).map (fun ii : ℕ => fl.cast (cmd.position.getD ii 0)) ++
    [r.lastCmd.1, r.lastCmd.2.1, r.lastCmd.2.2, fl.ofInt (ctrlId r.ctrlNames active)]

def pick (v : List K) (idx : ℤ) : F :=
  if 0 ≤ idx ∧ idx.toNat < v.length then fl.cast (v.getD idx.toNat 0) else fl.nan

def stateRow (idx : List ℤ) (msg : JointState K) : List F :=
  idx.map (pick fl msg.position) ++ idx.map (pick fl msg.velocity) ++
    idx.map (pick fl msg.effort)

def storeCmd (r : Traces F) (joy : Twist K) : Traces F :=
  { r with lastCmd := (fl.cast joy.linear.x, fl.cast joy.linear.y, fl.cast joy.angular.z) }

def pushState (r : Traces F) (indices : IndexMap) (nowNs : BitVec 64) (msg : JointState K) :
    Traces F :=
  if r.stateTrace.enabled then
    let idx := if r.stateIdx.isEmpty then
      r.jointNames.map fun jn => (indices.at? jn).getD (-1) else r.stateIdx
    { r with
      stateIdx := idx
      stateTrace := r.stateTrace.push nowNs (stateRow fl idx msg) }
  else r

def pushImu (r : Traces F) (nowNs : BitVec 64) (msg : Imu K) : Traces F :=
  if r.imuTrace.enabled then { r with imuTrace := r.imuTrace.push nowNs (imuRow fl msg) } else r

def pushCmd (r : Traces F) (active : List String) (nowNs : BitVec 64) (cmd : JointCommand K) :
    Traces F :=
  if r.cmdTrace.enabled then
    { r with cmdTrace := r.cmdTrace.push nowNs (cmdRow fl r active cmd) }
  else r

end Zero

def metaTxt (r : Traces F) (cmdRows stateRows : ℕ) : List String :=
  ["control_frequency_hz=" ++ toString r.freq, "cmd_rows=" ++ toString cmdRows,
    "state_rows=" ++ toString stateRows,
    "cmd_total_pushed=" ++ toString r.cmdTrace.totalPushed.toNat,
    "state_total_pushed=" ++ toString r.stateTrace.totalPushed.toNat,
    "joints=" ++ ",".intercalate r.jointNames,
    "ctrl_ids=" ++ ",".intercalate
      (r.ctrlNames.zipIdx.map fun e => toString e.2 ++ ":" ++ e.1)]

variable [Zero F]

/-- A directory that cannot be made is not tried again. -/
def dumpTrace (io : Printer F) (disk : Disk) (r : Traces F) : Traces F :=
  if !r.cmdTrace.enabled && !r.stateTrace.enabled then r
  else if r.traceDumped then r
  else
    let r := { r with traceDumped := true }
    if !disk.created then r
    else
      let cmd := r.cmdTrace.dump io disk.cmdOpened r.traceT0Ns
      let state := r.stateTrace.dump io disk.stateOpened r.traceT0Ns
      let imu := r.imuTrace.dump io disk.imuOpened r.traceT0Ns
      let r := { r with cmdTrace := cmd.trace, stateTrace := state.trace, imuTrace := imu.trace }
      let files : TraceFiles :=
        { jointCmd := cmd.lines
          jointState := state.lines
          imu := imu.lines
          metaTxt := if disk.metaOpened then r.metaTxt cmd.count state.count else [] }
      { r with files := some files }

end Traces

structure Pass (K : Type*) where
  nowNs : BitVec 64
  active : List String
  joy : Option (Twist K)
  cmd : JointCommand K

/-- The module with its traces. `joy`, `passes`, `states` and `samples` are the history that
the traces are compared with. -/
structure Traced (K : Type*) (F : Type) where
  module : ControlModule K
  loop : Loop
  active : List String
  runFlag : Bool
  exited : Bool
  traces : Traces F
  joy : Option (Twist K)
  passes : List (Pass K)
  states : List (BitVec 64 × JointState K)
  samples : List (BitVec 64 × Imu K)

namespace Traced
variable {K : Type*} {F : Type}

inductive Action (K : Type*)
  | callback (c : Reception.Callback K) (nowNs : BitVec 64)
  | loop (nowNs : BitVec 64)
  | shutdown (disk : Disk)
  | leave (failed : Bool) (disk : Disk)

variable [Field K] [Zero F]

def boot (m : ControlModule K) (traces : Traces F) : Traced K F :=
  ⟨m, .sleep, [], true, false, traces, none, [], [], []⟩

variable (fl : Floats K F)

def note (s : Traced K F) (nowNs : BitVec 64) : Reception.Callback K → Traced K F
  | .trigger _ _ => s
  | .cmdVel joy => { s with traces := s.traces.storeCmd fl joy, joy := some joy }
  | .imu msg =>
    { s with
      traces := s.traces.pushImu fl nowNs msg
      samples := s.samples ++ [(nowNs, msg)] }
  | .jointState msg =>
    { s with
      traces := s.traces.pushState fl (s.module.noteIndices msg).jointStateIndexMap nowNs msg
      states := s.states ++ [(nowNs, msg)] }

def record (s : Traced K F) (nowNs : BitVec 64) : Traced K F :=
  match s.loop with
  | .sleep => { s with active := s.module.currentControllers }
  | .update [] =>
    { s with
      traces := s.traces.pushCmd fl s.active nowNs s.module.cmdMsg
      passes := s.passes ++ [⟨nowNs, s.active, s.joy, s.module.cmdMsg⟩] }
  | _ => s

variable [LinearOrder K] (io : Platform K) (out : Printer F)

/-- `MainLoop` is left at its head once `run_flag_` is cleared, or by an exception inside a
pass; either way it dumps the traces. -/
def step (s : Traced K F) : Action K → Option (Traced K F)
  | .callback c nowNs => (s.module.handle c).map fun m => { s.note fl nowNs c with module := m }
  | .loop nowNs =>
    match s.exited, s.loop, s.runFlag with
    | true, _, _ => none
    | false, .sleep, false => none
    | false, _, _ => (ControlModule.loopStep io s.loop s.module).map fun r =>
        { s.record fl nowNs with loop := r.1, module := r.2 }
  | .shutdown disk => some { s with runFlag := false, traces := s.traces.dumpTrace out disk }
  | .leave failed disk =>
    match s.exited, s.loop, failed with
    | false, .sleep, false =>
      if s.runFlag then none
      else some { s with exited := true, traces := s.traces.dumpTrace out disk }
    | false, .update _, true | false, .take _ _, true =>
      some { s with exited := true, traces := s.traces.dumpTrace out disk }
    | _, _, _ => none

end Traced

end MybipedalDeploy.Control
