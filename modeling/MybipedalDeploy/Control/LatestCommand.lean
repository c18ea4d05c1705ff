import Mathlib.Algebra.Field.Rat
import Mathlib.Algebra.Order.Ring.Rat
import MybipedalDeploy.Control.ControlModule
import MybipedalDeploy.Library.AssociationList
import MybipedalDeploy.Library.Runs

/-!
# The messages the policy sees

Velocity and inertial messages go to the controllers of the current state alone,
and a restart keeps what a controller was handed. An observation is made of the
latest messages exactly if its controller was handed them, or equal ones.
-/

namespace MybipedalDeploy.Control
open Msg (Twist Imu JointState)
open Runs (Run Along)

def Sample.default (K : Type*) [Zero K] [One K] : Sample K := ⟨.zero K, .default K⟩

structure Observation (K : Type*) where
  name : String
  used : Sample K
  latest : Sample K

/-- `received` holds the latest messages of the module, `delivered` the latest that
arrived while the named controller was in the list of the current state. -/
structure Reception (K : Type*) where
  module : ControlModule K
  loop : Loop
  received : Sample K
  delivered : String → Sample K
  observations : List (Observation K)

namespace ControlModule
variable {K : Type*}

def trigger [Zero K] (m : ControlModule K) (now : ℤ) (topic : String) : Option (ControlModule K) :=
  match m.onTrigger now topic with
  | (m, none) => some m
  | (m, some names) => m.forEach Controller.restartController names

theorem trigger_eq [Zero K] (m : ControlModule K) (now : ℤ) (topic : String) :
    m.trigger now topic = forEach Controller.restartController
      ((m.onTrigger now topic).2.getD []) (m.onTrigger now topic).1 := by
  unfold trigger
  generalize m.onTrigger now topic = r
  obtain ⟨n, restarts⟩ := r
  cases restarts with
  | none => rfl
  | some names => rfl

theorem Every.trigger [Zero K] {P : String → Controller K → Prop} {m n : ControlModule K}
    (h : m.Every P) (hP : ∀ name c, P name c → P name c.restartController) {now : ℤ}
    {topic : String} (hn : m.trigger now topic = some n) : n.Every P := by
  rw [trigger_eq] at hn
  exact (h.of_map (m.controllerMap_onTrigger now topic)).forEach hP hn

theorem exists_of_mem_mapM {α β : Type*} {f : α → Option β} {xs : List α} {ys : List β}
    (h : xs.mapM f = some ys) {y : β} (hy : y ∈ ys) : ∃ x ∈ xs, f x = some y := by
  induction xs generalizing ys with
  | nil =>
    cases h
    cases hy
  | cons x xs ih =>
    rw [List.mapM_cons] at h
    obtain ⟨z, hz, h⟩ := Option.bind_eq_some_iff.mp h
    obtain ⟨zs, hzs, h⟩ := Option.bind_eq_some_iff.mp h
    cases h
    rcases List.mem_cons.mp hy with rfl | hy
    · exact ⟨x, List.mem_cons_self, hz⟩
    · obtain ⟨x', hx', hfx⟩ := ih hzs hy
      exact ⟨x', List.mem_cons_of_mem _ hx', hfx⟩

theorem made_at_start [Field K] {firstEntry : List String → ℕ} {now : ℤ} {conf : Config K}
    {m : ControlModule K} (hm : initializeModule firstEntry now conf = some m) {name : String}
    {c : Controller K} (hc : m.controllerMap name = some c) :
    ∃ node, (name, node) ∈ conf.controllers ∧ Controller.make name node = some c := by
  obtain ⟨machine, _, hm⟩ := Option.bind_eq_some_iff.mp hm
  obtain ⟨controllers, hmake, rfl⟩ := Option.map_eq_some_iff.mp hm
  have hmem := List.mem_reverse.mp (AssociationList.mem_of_lookup hc)
  obtain ⟨e, he, hentry⟩ := exists_of_mem_mapM hmake hmem
  obtain ⟨c', hc', heq⟩ := Option.map_eq_some_iff.mp hentry
  cases heq
  exact ⟨e.2, he, hc'⟩

def observedBy (m : ControlModule K) (name : String) : Option (Sample K) :=
  match m.controllerMap name with
  | some (.rl c) => c.observed
  | _ => none

theorem observedBy_eq_some {m : ControlModule K} {name : String} {s : Sample K}
    (h : m.observedBy name = some s) :
    ∃ c, m.controllerMap name = some c ∧ s = c.base.sample := by
  unfold observedBy at h
  split at h
  next c hc =>
    unfold RLController.observed at h
    split_ifs at h
    cases h
    exact ⟨.rl c, hc, rfl⟩
  · cases h

end ControlModule

namespace Reception
variable {K : Type*}

def ObservedLatest (s : Reception K) : Prop := ∀ o ∈ s.observations, o.used = o.latest

instance [DecidableEq K] (s : Reception K) : Decidable s.ObservedLatest :=
  inferInstanceAs (Decidable (∀ o ∈ s.observations, _))

inductive Callback (K : Type*)
  | trigger (now : ℤ) (topic : String)
  | cmdVel (joy : Twist K)
  | imu (imu : Imu K)
  | jointState (msg : JointState K)

inductive Event (K : Type*)
  | callback (c : Callback K)
  | loop

def boot [Zero K] [One K] (m : ControlModule K) : Reception K :=
  ⟨m, .sleep, .default K, fun _ => .default K, []⟩

def deliver (s : Reception K) (g : Sample K → Sample K) (m : ControlModule K) : Reception K :=
  { s with
    module := m
    received := g s.received
    delivered := fun name =>
      if name ∈ s.module.currentControllers then g (s.delivered name) else s.delivered name }

def observe (s : Reception K) : Reception K :=
  match s.loop with
  | .update (name :: _) =>
    { s with observations := s.observations ++
        (s.module.observedBy name).toList.map fun used => ⟨name, used, s.received⟩ }
  | _ => s

def handle [Field K] (s : Reception K) : Callback K → Option (Reception K)
  | .trigger now topic => (s.module.trigger now topic).map fun m => { s with module := m }
  | .cmdVel joy => (s.module.onCmdVel joy).map (s.deliver fun sample => { sample with velocity := joy })
  | .imu imu => (s.module.onImu imu).map (s.deliver fun sample => { sample with imu := imu })
  | .jointState msg => some { s with module := s.module.onJointState msg }

/-- A control cycle goes through before the next callback runs. -/
def step [Field K] [LinearOrder K] (io : Platform K) (s : Reception K) :
    Event K → Option (Reception K)
  | .callback c =>
    match s.loop with
    | .sleep => s.handle c
    | _ => none
  | .loop => (ControlModule.loopStep io s.loop s.module).map fun r =>
      { s.observe with loop := r.1, module := r.2 }

def Heard (s : Reception K) : Event K → Prop
  | .loop =>
    match s.loop with
    | .update (name :: _) => (s.module.observedBy name).isSome → s.delivered name = s.received
    | _ => True
  | _ => True

instance [DecidableEq K] (s : Reception K) (e : Event K) : Decidable (s.Heard e) := by
  unfold Heard
  split
  · split <;> infer_instance
  · infer_instance

def Inv (s : Reception K) : Prop := s.module.Every fun name c => c.base.sample = s.delivered name

section Initialized
variable [Field K]

theorem sample_make {name : String} {node : ControllerNode K} {c : Controller K}
    (h : Controller.make name node = some c) : c.base.sample = .default K := by
  rw [Controller.base_make h]
  rfl

theorem inv_boot {firstEntry : List String → ℕ} {now : ℤ} {conf : Config K} {m : ControlModule K}
    (h : ControlModule.initializeModule firstEntry now conf = some m) : (boot m).Inv := by
  intro name c hc
  obtain ⟨node, _, hmake⟩ := ControlModule.made_at_start h hc
  exact sample_make hmake

end Initialized

section Invariant
variable {s t : Reception K}

theorem Inv.used_eq (h : s.Inv) {name : String} {used : Sample K}
    (hused : s.module.observedBy name = some used) : used = s.delivered name := by
  obtain ⟨c, hc, rfl⟩ := ControlModule.observedBy_eq_some hused
  exact h name c hc

theorem Inv.deliver (h : s.Inv) {f : ControllerBase K → ControllerBase K}
    {g : Sample K → Sample K} {m : ControlModule K}
    (hm : ControlModule.forEach (Controller.withBase f) s.module.currentControllers s.module = some m)
    (hf : ∀ b, f (f b) = f b) (hfg : ∀ b, (f b).sample = g b.sample) : (s.deliver g m).Inv := by
  have htwice : ∀ c : Controller K, (c.withBase f).withBase f = c.withBase f := by
    intro c
    cases c <;> simp [Controller.withBase, hf]
  intro name c hc
  simp only [Reception.deliver] at hc ⊢
  -- A controller that the state lists twice is handed the message twice.
  rw [ControlModule.controllerMap_forEach htwice hm] at hc
  split_ifs at hc ⊢
  · obtain ⟨d, hd, rfl⟩ := Option.map_eq_some_iff.mp hc
    rw [Controller.base_withBase, hfg, h name d hd]
  · exact h name c hc

variable [Field K]

theorem Inv.trigger (h : s.Inv) {now : ℤ} {topic : String} {m : ControlModule K}
    (hm : s.module.trigger now topic = some m) : Inv { s with module := m } := by
  refine ControlModule.Every.trigger h (fun name c hc => ?_) hm
  rwa [Controller.base_restartController]

theorem Inv.handle (h : s.Inv) {c : Callback K} (ht : s.handle c = some t) : t.Inv := by
  cases c with
  | trigger now topic =>
    obtain ⟨m, hm, rfl⟩ := Option.map_eq_some_iff.mp ht
    exact h.trigger hm
  | cmdVel joy =>
    obtain ⟨m, hm, rfl⟩ := Option.map_eq_some_iff.mp ht
    exact h.deliver hm (fun _ => rfl) fun _ => rfl
  | imu imu =>
    obtain ⟨m, hm, rfl⟩ := Option.map_eq_some_iff.mp ht
    exact h.deliver hm (fun _ => rfl) fun _ => rfl
  | jointState msg =>
    cases ht
    refine ControlModule.Every.onJointState (fun name c msg indices hc => ?_) h msg
    rw [Controller.base_withBase]
    exact (ControllerBase.storeJoints_sample _ _ _ _).trans hc

theorem observations_handle {c : Callback K} (ht : s.handle c = some t) :
    t.observations = s.observations := by
  cases c with
  | trigger now topic =>
    obtain ⟨m, -, rfl⟩ := Option.map_eq_some_iff.mp ht
    rfl
  | cmdVel joy =>
    obtain ⟨m, -, rfl⟩ := Option.map_eq_some_iff.mp ht
    rfl
  | imu imu =>
    obtain ⟨m, -, rfl⟩ := Option.map_eq_some_iff.mp ht
    rfl
  | jointState msg =>
    cases ht
    rfl

variable [LinearOrder K] {io : Platform K}

theorem inv_loop (h : s.Inv) {r : Loop × ControlModule K}
    (hr : ControlModule.loopStep io s.loop s.module = some r) :
    Inv { s.observe with loop := r.1, module := r.2 } := by
  have hdelivered : s.observe.delivered = s.delivered := by
    unfold observe
    split <;> rfl
  suffices hmodule : r.2.Every fun name c => c.base.sample = s.delivered name by
    unfold Inv
    rwa [hdelivered]
  obtain ⟨-, rfl⟩ | ⟨-, rfl⟩ | ⟨name, rest, c, -, hc, rfl⟩ | ⟨name, rest, c, -, hc, rfl⟩ :=
    ControlModule.loopStep_cases hr
  · exact h
  · exact h.of_map rfl
  · refine h.setController ?_ fun _ _ _ hother => hother
    rw [Controller.base_update]
    exact h name c hc
  · refine ControlModule.Every.of_map ?_ (ControlModule.controllerMap_merge _ _)
    refine h.setController ?_ fun _ _ _ hother => hother
    rw [Controller.base_getJointCmdData]
    exact h name c hc

theorem inv_step {e : Event K} (h : s.Inv) (ht : s.step io e = some t) : t.Inv := by
  cases e with
  | callback c =>
    simp only [step] at ht
    split at ht
    · exact h.handle ht
    · cases ht
  | loop =>
    obtain ⟨r, hr, rfl⟩ := Option.map_eq_some_iff.mp ht
    exact inv_loop h hr

theorem observations_step {e : Event K} (h : s.Inv) (ht : s.step io e = some t) :
    t.ObservedLatest ↔ s.ObservedLatest ∧ s.Heard e := by
  cases e with
  | callback c =>
    simp only [step] at ht
    split at ht
    · simp [ObservedLatest, observations_handle ht, Heard]
    · cases ht
  | loop =>
    obtain ⟨r, hr, rfl⟩ := Option.map_eq_some_iff.mp ht
    obtain ⟨hloop, -⟩ | ⟨hloop, -⟩ | ⟨name, rest, c, hloop, -⟩ | ⟨name, rest, c, hloop, -⟩ :=
      ControlModule.loopStep_cases hr
    · simp [ObservedLatest, observe, Heard, hloop]
    · simp [ObservedLatest, observe, Heard, hloop]
    · cases hused : s.module.observedBy name with
      | none => simp [ObservedLatest, observe, Heard, hloop, hused]
      | some used =>
        simp [ObservedLatest, observe, Heard, hloop, hused, or_imp, forall_and, h.used_eq hused]
    · simp [ObservedLatest, observe, Heard, hloop]

end Invariant

/-- Every observation of a run is made of the latest messages exactly if every controller
that made one was handed the latest messages, or equal ones. -/
theorem observes_latest_iff [Field K] [LinearOrder K] (io : Platform K)
    {firstEntry : List String → ℕ} {now : ℤ} {conf : Config K} {m : ControlModule K}
    (hm : ControlModule.initializeModule firstEntry now conf = some m) {es : List (Event K)}
    {s : Reception K} (h : Run (step io) (boot m) es s) :
    s.ObservedLatest ↔ Along (step io) (fun s e => s.Heard e) (boot m) es := by
  refine h.iff_along (fun s e => s.Heard e) ObservedLatest (by simp [boot, ObservedLatest]) ?_
  intro p s e t hr ht
  have hinv : s.Inv := hr.invariant Inv (inv_boot hm) fun _ _ _ h ht => inv_step h ht
  exact observations_step hinv ht

def walkConfig : Config ℚ :=
  let walk : RLConf ℚ :=
    { actionScale := 1, decimation := 20, swMode := false, cmdThreshold := 0, loopDt := 1 / 1000
      angVelScale := 1, dofPosScale := 1, dofVelScale := 1, actionsSize := 1
      observationsSize := 15, numHist := 1, observationsClip := 100, actionsClip := 100
      estSize := 3, gaitFreq := 0, gaitOffset := 0, gaitDuration := 0, gaitSwingHeight := 0
      lpfWc := 100, lpfTs := 1 / 1000, encoder := fun _ => [0, 0, 0], policy := fun _ => [0] }
  { robotStates := [⟨"idle", "/idle_mode", ["walk"], ["pd_idle"]⟩,
      ⟨"walk", "/walk_mode", ["idle"], ["rl_walk"]⟩]
    controllers := [("pd_idle", ⟨["knee"], [0], [80], [2], none, none⟩),
      ("rl_walk", ⟨["knee"], [0], [80], [2], none, some walk⟩)]
    jointList := ["knee"]
    jointOffset := [("knee", 0)] }

theorem walk_initializes :
    (ControlModule.initializeModule (fun _ => 0) 0 walkConfig).isSome = true := by
  decide +kernel

def walker : ControlModule ℚ :=
  (ControlModule.initializeModule (fun _ => 0) 0 walkConfig).get walk_initializes

def upright : Platform ℚ where
  sin := id
  cos := fun _ => 1
  asin := id
  atan2 := fun y _ => y
  sqrt := id
  fmod := fun x _ => x
  pi := 22 / 7

def forward : Twist ℚ := ⟨⟨1, 0, 0⟩, ⟨0, 0, 0⟩⟩

def walkMode : Event ℚ := .callback (.trigger 1000000000 "/walk_mode")

def heard : List (Event ℚ) :=
  [walkMode, .callback (.cmdVel forward), .callback (.imu (.default ℚ)), .loop, .loop, .loop, .loop]

def missed : List (Event ℚ) := [.callback (.cmdVel forward), walkMode, .loop, .loop]

theorem heard_runs : (Runs.exec (step upright) (boot walker) heard).isSome = true := by
  decide +kernel

theorem missed_runs : (Runs.exec (step upright) (boot walker) missed).isSome = true := by
  decide +kernel

theorem observes_latest_iff_heard :
    ((Runs.exec (step upright) (boot walker) heard).get heard_runs).ObservedLatest :=
  (observes_latest_iff upright (Option.some_get walk_initializes).symm
    (Runs.run_of_exec heard (Option.some_get _).symm)).mpr
    (Runs.along_of_guardsHold (by decide +kernel))

/-- The policy walks by the default velocity. -/
theorem observes_stale :
    ¬ ∀ es s, Run (step upright) (boot walker) es s → s.ObservedLatest := by
  intro h
  have hlatest := h missed _ (Runs.run_of_exec missed (Option.some_get missed_runs).symm)
  revert hlatest
  decide +kernel

end Reception
end MybipedalDeploy.Control
