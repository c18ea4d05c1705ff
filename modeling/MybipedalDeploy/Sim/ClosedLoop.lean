import MybipedalDeploy.Control.Naming
import MybipedalDeploy.Sim.MotorCommand

/-!
# The control module and the simulation in a closed loop

The simulation steps with every command it is handed and publishes what the sensors read
then. The channels may delay, repeat, reorder or lose what is published on them. Joints are
matched by name in both directions, although each side keeps its own order and its own
indices.
-/

namespace MybipedalDeploy.Sim
open Control (Config ControlModule Cycling JointEntry Platform lastPlace)
open Msg (Imu JointCommand JointState Twist)
open Runs (Run)

inductive JointType
  | free
  | ball
  | slide
  | hinge
  deriving DecidableEq

/-- The joints that `Start` finds in the model, less the free one. -/
def startJointNames (joints : List (JointType × String)) : List String :=
  (joints.filter fun e => e.1 ≠ .free).map Prod.snd

/-- The parts of `mjData` that the module reads. -/
structure Data (K : Type*) where
  qpos : List K
  qvel : List K
  qfrcActuator : List K
  sensordata : List K

/-- What a call of the callback finds, with the time since the start in nanoseconds, and
what `mj_step` makes of the data. -/
structure Call (K : Type) where
  elapsed : ℤ
  timestep : K
  ctrlNoiseStd : K
  ctrlNoiseRate : K
  standardNormal : ℕ → K
  next : Data K

structure Simulation (K : Type) where
  running : Bool
  motors : Motors K
  data : Data K

section Callback
variable {K : Type} [Field K]

def copied (v : List K) (first n : ℕ) : List K := (List.range n).map fun i => v.getD (i + first) 0

def readSensorData (d : Data K) (jointNames : List String) : Imu K × JointState K :=
  let x := fun i => d.sensordata.getD i 0
  let n := jointNames.length
  (⟨⟨x 1, x 2, x 3, x 0⟩, ⟨x 4, x 5, x 6⟩, ⟨x 13, x 14, x 15⟩⟩,
    ⟨jointNames, copied d.qpos 7 n, copied d.qvel 6 n, copied d.qfrcActuator 6 n⟩)

def Call.scene (call : Call K) (d : Data K) : Scene K :=
  ⟨d.qpos, d.qvel, call.timestep, call.ctrlNoiseStd, call.ctrlNoiseRate, call.standardNormal⟩

variable [LinearOrder K]

/-- In the first three seconds and after the shutdown a command is dropped. -/
def Simulation.cmdCallback (math : Mathematics K) (call : Call K) (cmd : JointCommand K)
    (s : Simulation K) : Option (Simulation K × Imu K × JointState K) :=
  if s.running ∧ 3000 * 1000000 < call.elapsed then
    let motors := s.motors.writeMotorCmd math (call.scene s.data) cmd
    some ({ s with motors := motors, data := call.next },
      readSensorData call.next motors.jointNames)
  else none

end Callback

structure Drive (K : Type) where
  message : ℕ
  cmd : JointCommand K
  motors : Motors K
  scene : Scene K
  after : Data K
  imu : Imu K
  jointState : JointState K

structure ClosedLoop (K : Type) where
  control : Cycling K
  simulation : Simulation K
  driven : List (Drive K)

namespace ClosedLoop
variable {K : Type}

inductive Action (K : Type)
  | wake (active : List String)
  | loop
  | trigger (now : ℤ) (topic : String)
  | cmdVel (joy : Twist K)
  | imu (i : ℕ)
  | jointState (i : ℕ)
  | cmdCallback (i : ℕ) (call : Call K)
  | shutdown

section Step
variable [Field K]

def boot (m : ControlModule K) (joints : List (JointType × String)) (nu : ℕ) (d : Data K) :
    ClosedLoop K :=
  ⟨.boot m, ⟨true, .start (startJointNames joints) nu, d⟩, []⟩

def deliver (s : ClosedLoop K) : Action K → Option (Cycling.Action K)
  | .wake active => some (.wake active)
  | .loop => some .loop
  | .trigger now topic => some (.callback (.trigger now topic))
  | .cmdVel joy => some (.callback (.cmdVel joy))
  | .imu i => s.driven[i]?.map fun d => .callback (.imu d.imu)
  | .jointState i => s.driven[i]?.map fun d => .callback (.jointState d.jointState)
  | _ => none

variable [LinearOrder K]

def drive (math : Mathematics K) (i : ℕ) (call : Call K) (cmd : JointCommand K)
    (s : ClosedLoop K) : ClosedLoop K :=
  match s.simulation.cmdCallback math call cmd with
  | none => s
  | some (simulation, imu, jointState) =>
    { s with
      simulation := simulation
      driven := s.driven ++ [⟨i, cmd, s.simulation.motors, call.scene s.simulation.data,
        simulation.data, imu, jointState⟩] }

def step (io : Platform K) (math : Mathematics K) (s : ClosedLoop K) :
    Action K → Option (ClosedLoop K)
  | .cmdCallback i call => s.control.cycles[i]?.map fun c => s.drive math i call c.published
  | .shutdown => some { s with simulation := { s.simulation with running := false } }
  | a => (s.deliver a).bind fun b => (s.control.step io b).map fun t => { s with control := t }

end Step

theorem jointState_of_deliver {s : ClosedLoop K} {a : Action K} {msg : JointState K}
    (h : s.deliver a = some (.callback (.jointState msg))) :
    ∃ d ∈ s.driven, msg = d.jointState := by
  cases a with
  | jointState i =>
    obtain ⟨d, hd, heq⟩ := Option.map_eq_some_iff.mp h
    cases heq
    exact ⟨d, List.mem_of_getElem? hd, rfl⟩
  | imu i =>
    obtain ⟨d, hd, heq⟩ := Option.map_eq_some_iff.mp h
    cases heq
  | _ => cases h

section Cases
variable [Field K] [LinearOrder K] {io : Platform K} {math : Mathematics K} {s t : ClosedLoop K}

theorem drive_cases (s : ClosedLoop K) (math : Mathematics K) (i : ℕ) (call : Call K)
    (cmd : JointCommand K) : s.drive math i call cmd = s ∨
      s.drive math i call cmd =
        { s with
          simulation :=
            { s.simulation with
              motors := s.simulation.motors.writeMotorCmd math (call.scene s.simulation.data) cmd
              data := call.next }
          driven := s.driven ++ [⟨i, cmd, s.simulation.motors, call.scene s.simulation.data,
            call.next, (readSensorData call.next s.simulation.motors.jointNames).1,
            (readSensorData call.next s.simulation.motors.jointNames).2⟩] } := by
  unfold drive Simulation.cmdCallback
  split_ifs
  · right
    simp only [Motors.writeMotorCmd_jointNames]
  · exact .inl rfl

theorem step_cases {a : Action K} (h : s.step io math a = some t) :
    (∃ b u, s.deliver a = some b ∧ s.control.step io b = some u ∧ t = { s with control := u }) ∨
    (∃ i call c, a = .cmdCallback i call ∧ s.control.cycles[i]? = some c ∧
      t = s.drive math i call c.published) ∨
    t = { s with simulation := { s.simulation with running := false } } := by
  have hcontrol (h : ((s.deliver a).bind fun b => (s.control.step io b).map fun t =>
      { s with control := t }) = some t) : ∃ b u, s.deliver a = some b ∧
        s.control.step io b = some u ∧ t = { s with control := u } := by
    obtain ⟨b, hb, h⟩ := Option.bind_eq_some_iff.mp h
    obtain ⟨u, hu, rfl⟩ := Option.map_eq_some_iff.mp h
    exact ⟨b, u, hb, hu, rfl⟩
  cases a with
  | cmdCallback i call =>
    obtain ⟨c, hc, rfl⟩ := Option.map_eq_some_iff.mp h
    exact .inr (.inl ⟨i, call, c, rfl, hc, rfl⟩)
  | shutdown => exact .inr (.inr (Option.some.inj h).symm)
  | _ => exact .inl (hcontrol h)

end Cases

section Names
variable {conf : Config K} {names : List String}

/-- The joints of the configuration are joints of the model, which are named and distinct. -/
structure Simulated (conf : Config K) (names : List String) : Prop where
  nodup : names.Nodup
  named : "" ∉ names
  simulated : ∀ joint ∈ conf.jointList, joint ∈ names
  offsets : ∀ e ∈ conf.jointOffset, e.1 ∈ names
  listed : conf.Listed
  jointList_nodup : conf.jointList.Nodup
  jointList_ne_nil : conf.jointList ≠ []
  offsets_nodup : (conf.jointOffset.map Prod.fst).Nodup

theorem Simulated.relevant (h : Simulated conf names) {joint : String}
    (hjoint : joint ∈ ControlModule.relevant conf) : joint ∈ names := by
  rcases List.mem_append.mp hjoint with hjoint | hjoint
  · obtain ⟨e, he, hjoint⟩ := List.mem_flatMap.mp hjoint
    exact h.simulated joint (h.listed e he joint hjoint)
  · obtain ⟨e, he, rfl⟩ := List.mem_map.mp hjoint
    exact h.offsets e he

theorem Simulated.lastPlace_eq (h : Simulated conf names) {joint : String} (hjoint : joint ∈ names) :
    lastPlace names joint = some (names.idxOf joint) :=
  Control.lastPlace_of_nodup h.nodup (List.getElem?_idxOf hjoint)

variable [Field K]

theorem length_copied (v : List K) (first n : ℕ) : (copied v first n).length = n := by
  simp [copied]

theorem getD_copied (v : List K) (first : ℕ) {n i : ℕ} (hi : i < n) :
    (copied v first n).getD i 0 = v.getD (i + first) 0 := by
  simp [copied, List.getD_eq_getElem?_getD, hi]

theorem Simulated.fits (h : Simulated conf names) (d : Data K) :
    ControlModule.Fits conf names.idxOf (readSensorData d names).2 where
  listed := h.simulated
  position := length_copied _ _ _
  velocity := length_copied _ _ _
  effort := length_copied _ _ _
  placed _ hjoint := h.lastPlace_eq (h.relevant hjoint)

def Senses (conf : Config K) (names : List String) (d : Data K) (m : ControlModule K) : Prop :=
  ∀ name node, (name, node) ∈ conf.controllers → ∃ c, m.controllerMap name = some c ∧
    ∀ ii joint, c.base.jointNames[ii]? = some joint → ∃ k, names[k]? = some joint ∧
      c.base.stored ii = ⟨d.qpos.getD (k + 7) 0 - (conf.jointOffset.lookup joint).getD 0,
        d.qvel.getD (k + 6) 0, d.qfrcActuator.getD (k + 6) 0⟩

theorem senses_of_matches {d : Data K} {m : ControlModule K}
    (h : ControlModule.Matches conf (readSensorData d names).2 m) : Senses conf names d m := by
  intro name node hnode
  obtain ⟨c, hc, hstored⟩ := h name node hnode
  refine ⟨c, hc, fun ii joint hii => ?_⟩
  obtain ⟨k, hk, heq⟩ := hstored ii joint hii
  have hplace : names[k]? = some joint := Control.getElem?_of_lastPlace hk
  have hlt : k < names.length := (List.getElem?_eq_some_iff.mp hplace).1
  refine ⟨k, hplace, heq.trans ?_⟩
  simp only [JointEntry.less, JointEntry.of, readSensorData, getD_copied _ _ hlt]

variable {m : ControlModule K}

structure Sound (names : List String) (cycles : List (Control.Cycle K)) (d : Drive K) : Prop where
  sameNames : d.motors.jointNames = names
  published : ∃ c, cycles[d.message]? = some c ∧ c.published = d.cmd
  jointState : d.jointState = (readSensorData d.after names).2

structure Inv (conf : Config K) (m : ControlModule K) (names : List String) (s : ClosedLoop K) :
    Prop where
  sameNames : s.simulation.motors.jointNames = names
  wired : s.control.module.Wired conf names.idxOf
  named : s.control.Named m conf.jointList
  driven : ∀ d ∈ s.driven, Sound names s.control.cycles d

variable [LinearOrder K] {io : Platform K} {math : Mathematics K} {s t : ClosedLoop K}

theorem cycles_kept {s t : Cycling K} {a : Cycling.Action K} (h : s.step io a = some t) {i : ℕ}
    {c : Control.Cycle K} (hc : s.cycles[i]? = some c) : t.cycles[i]? = some c := by
  cases a with
  | wake active =>
    obtain ⟨_, rfl⟩ := Cycling.wake_cases h
    exact hc
  | callback b =>
    obtain ⟨n, _, rfl⟩ := Option.map_eq_some_iff.mp h
    exact hc
  | loop =>
    obtain ⟨name, rest, b, _, _, rfl⟩ | ⟨name, rest, b, _, _, rfl⟩ | ⟨_, rfl⟩ :=
      Cycling.loop_cases h
    · exact hc
    · exact hc
    · rw [List.getElem?_append_left (List.getElem?_eq_some_iff.mp hc).1]
      exact hc

theorem Inv.drive (h : s.Inv conf m names) {i : ℕ} {c : Control.Cycle K}
    (hc : s.control.cycles[i]? = some c) (call : Call K) :
    (s.drive math i call c.published).Inv conf m names := by
  obtain heq | heq := drive_cases s math i call c.published
  · rw [heq]
    exact h
  · rw [heq]
    refine ⟨?_, h.wired, h.named, fun d hd => ?_⟩
    · exact (Motors.writeMotorCmd_jointNames math _ _ _).trans h.sameNames
    · rcases List.mem_append.mp hd with hd | hd
      · exact h.driven d hd
      · rw [List.mem_singleton.mp hd]
        exact ⟨h.sameNames, ⟨c, hc, rfl⟩, by rw [h.sameNames]⟩

theorem Inv.step (h : s.Inv conf m names) (hconf : Simulated conf names)
    (hx : Cycling.Indexed m conf.jointList) {a : Action K}
    (hstep : s.step io math a = some t) : t.Inv conf m names := by
  obtain ⟨b, u, hb, hu, rfl⟩ | ⟨i, call, c, rfl, hc, rfl⟩ | rfl := step_cases hstep
  · have hfits : ∀ msg, b = .callback (.jointState msg) →
        ControlModule.Fits conf names.idxOf msg := by
      rintro msg rfl
      obtain ⟨d, hd, rfl⟩ := jointState_of_deliver hb
      rw [(h.driven d hd).jointState]
      exact hconf.fits d.after
    refine ⟨h.sameNames, Cycling.wired_step h.wired hfits hu,
      Cycling.named_step h.named hx hconf.listed h.wired hu, fun d hd => ?_⟩
    obtain ⟨c, hc, hcmd⟩ := (h.driven d hd).published
    exact ⟨(h.driven d hd).sameNames, ⟨c, cycles_kept hu hc, hcmd⟩, (h.driven d hd).jointState⟩
  · exact h.drive hc call
  · exact ⟨h.sameNames, h.wired, h.named, h.driven⟩

end Names
section Matched
variable [Field K] {conf : Config K} {names : List String} {m : ControlModule K}
  {s t : ClosedLoop K}

theorem inv_boot {firstEntry : List String → ℕ} {now : ℤ} {joints : List (JointType × String)}
    (hm : ControlModule.initializeModule firstEntry now conf = some m)
    (hconf : Simulated conf (startJointNames joints)) (nu : ℕ) (d : Data K) :
    (boot m joints nu d).Inv conf m (startJointNames joints) where
  sameNames := rfl
  wired := ControlModule.wired_at_start _ hm hconf.jointList_ne_nil hconf.offsets_nodup
  named := Cycling.named_at_start hm hconf.jointList_nodup
  driven d hd := by simp [boot] at hd

def commandedBefore (s : ClosedLoop K) (message : ℕ) : List String :=
  Control.Cycle.commanded (s.control.cycles.take (message + 1))

theorem commandedBefore_listed (h : s.Inv conf m names) {message : ℕ} {joint : String}
    (hjoint : joint ∈ s.commandedBefore message) : joint ∈ conf.jointList := by
  obtain ⟨c, hc, hmem⟩ := List.mem_flatMap.mp hjoint
  exact h.named.commanded joint (List.mem_flatMap.mpr ⟨c, List.mem_of_mem_take hc, hmem⟩)

variable [LinearOrder K] {io : Platform K} {math : Mathematics K}

theorem Inv.senses (h : s.Inv conf m names) (hconf : Simulated conf names) {i : ℕ}
    (ht : s.step io math (.jointState i) = some t) :
    ∃ d, s.driven[i]? = some d ∧ Senses conf names d.after t.control.module := by
  obtain ⟨b, hb, ht⟩ := Option.bind_eq_some_iff.mp ht
  obtain ⟨d, hd, rfl⟩ := Option.map_eq_some_iff.mp hb
  obtain ⟨u, hu, rfl⟩ := Option.map_eq_some_iff.mp ht
  cases hu
  refine ⟨d, hd, senses_of_matches ?_⟩
  rw [(h.driven d (List.mem_of_getElem? hd)).jointState]
  exact (ControlModule.onJointState_spec h.wired (hconf.fits d.after)).2

theorem Inv.follows_commanded (h : s.Inv conf m names) (hconf : Simulated conf names) {d : Drive K}
    (hd : d ∈ s.driven) : d.motors.Follows math d.scene d.cmd ↔
      (∀ joint ∈ names, joint ∈ s.commandedBefore d.message) ∧ d.motors.Quiet math d.scene := by
  have hsound := h.driven d hd
  obtain ⟨c, hc, hcmd⟩ := hsound.published
  obtain ⟨hsized, hknown⟩ := h.named.published d.message c hc
  rw [hcmd] at hsized hknown
  have hfits : Fits d.cmd := by
    constructor <;> rw [hsized.name]
    exacts [hsized.position, hsized.velocity, hsized.effort, hsized.stiffness, hsized.damping]
  rw [Motors.follows_message_iff hfits, hsound.sameNames]
  refine and_congr_left fun _ => forall₂_congr fun joint hjoint => ?_
  have hne : joint ≠ "" := fun heq => hconf.named (heq ▸ hjoint)
  exact hknown.mem_iff hsized (fun joint hknown => commandedBefore_listed h hknown) hne

/-- In every run of the closed loop the joints are matched by name. A controller that gets
a message holds what the simulation showed of its own joints; the motors follow a message
exactly if every simulated joint was commanded by then, and the noise adds nothing. -/
theorem joints_matched (io : Platform K) (math : Mathematics K) {firstEntry : List String → ℕ}
    {now : ℤ} (hm : ControlModule.initializeModule firstEntry now conf = some m)
    {joints : List (JointType × String)} (hconf : Simulated conf (startJointNames joints))
    {nu : ℕ} {d : Data K} {as : List (Action K)} (h : Run (step io math) (boot m joints nu d) as s) :
    (∀ i t, s.step io math (.jointState i) = some t → ∃ d, s.driven[i]? = some d ∧
      Senses conf (startJointNames joints) d.after t.control.module) ∧
    ∀ d ∈ s.driven, d.motors.Follows math d.scene d.cmd ↔
      (∀ joint ∈ startJointNames joints, joint ∈ s.commandedBefore d.message) ∧
        d.motors.Quiet math d.scene := by
  have hx := Cycling.indexed_at_start hm hconf.jointList_nodup
  have hinv := h.invariant (fun s => s.Inv conf m (startJointNames joints))
    (inv_boot hm hconf nu d) fun _ _ _ hs hstep => hs.step hconf hx hstep
  exact ⟨fun _ _ ht => hinv.senses hconf ht, fun _ hd => hinv.follows_commanded hconf hd⟩

section Standing

def standingJoints : List (JointType × String) := [(.free, "root"), (.hinge, "knee"), (.hinge, "hip")]

def settled : Data ℚ := ⟨[0, 0, 1, 1, 0, 0, 0, 5, 6], List.replicate 8 0, List.replicate 8 0, []⟩

def quietCall : Call ℚ := ⟨4000000000, 1 / 500, 0, 0, fun _ => 0, settled⟩

def standing : List (Action ℚ) :=
  [.wake ["pd_legs"], .loop, .loop, .loop, .cmdCallback 0 quietCall]

def standingBoot : ClosedLoop ℚ := boot Cycling.legsModule standingJoints 2 settled

theorem standing_runs : (Runs.exec (step Control.Reception.upright Motors.noMath) standingBoot
    standing).isSome = true := by
  decide +kernel

def stood : ClosedLoop ℚ :=
  (Runs.exec (step Control.Reception.upright Motors.noMath) standingBoot standing).get standing_runs

theorem stood_hears :
    (stood.step Control.Reception.upright Motors.noMath (.jointState 0)).isSome = true := by
  decide +kernel

theorem standing_simulated : Simulated Cycling.legsConfig (startJointNames standingJoints) := by
  refine ⟨by decide, by decide, by decide, by decide, ?_, by decide, by decide, by decide⟩
  unfold Config.Listed
  decide

theorem standing_commands : ∀ d ∈ stood.driven, d.scene.ctrlNoiseStd = 0 ∧
    ∀ joint ∈ startJointNames standingJoints, joint ∈ stood.commandedBefore d.message := by
  decide +kernel

theorem joints_matched_standing :
    (∃ d, stood.driven[0]? = some d ∧
      Senses Cycling.legsConfig (startJointNames standingJoints) d.after
        ((stood.step Control.Reception.upright Motors.noMath (.jointState 0)).get
          stood_hears).control.module) ∧
    ∀ d ∈ stood.driven, d.motors.Follows Motors.noMath d.scene d.cmd := by
  obtain ⟨hsenses, hfollows⟩ := joints_matched Control.Reception.upright Motors.noMath
    (Option.some_get Cycling.legs_initializes).symm standing_simulated
    (Runs.run_of_exec standing (Option.some_get standing_runs).symm)
  refine ⟨hsenses 0 _ (Option.some_get _).symm, fun d hd => (hfollows d hd).mpr ?_⟩
  obtain ⟨hstd, hcommanded⟩ := standing_commands d hd
  exact ⟨hcommanded, Motors.quiet_of_std hstd⟩

end Standing
end Matched
end ClosedLoop
end MybipedalDeploy.Sim
