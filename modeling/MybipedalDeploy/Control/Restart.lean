import Mathlib.Algebra.Field.Rat
import Mathlib.Algebra.Order.Ring.Rat
import MybipedalDeploy.Control.ControlModule
import MybipedalDeploy.Library.Runs

/-!
# Restarts against the main loop

The callback of a trigger, `MainLoop` and the other callbacks take turns; a call of
a controller's method is one step. The callback installs the controllers of a state
before it restarts them, and those of the first state are never restarted, so the
loop can take commands of an earlier activation.
-/

namespace MybipedalDeploy.Control
open Msg (Twist Imu JointState)
open Runs (Run Along)

/-- Whom a transition makes active: every controller of the new list, or those that
were not in the old one. -/
inductive Activation
  | listed
  | entering

def Activation.activated : Activation → List String → List String → List String
  | .listed, _, new => new
  | .entering, old, new => new.filter fun name => !old.contains name

theorem Activation.mem_of_activated {reading : Activation} {old new : List String} {name : String}
    (h : name ∈ reading.activated old new) : name ∈ new := by
  cases reading with
  | listed => exact h
  | entering => exact List.mem_of_mem_filter h

structure Restarting where
  activated : List String
  done : List String
  todo : List String

structure Restarted (K : Type*) where
  start : List K
  updates : ℕ

/-- A command `MainLoop` took, with the controller it took it from and the restart
that was completed since the controller became active. -/
structure Take (K : Type*) where
  name : String
  controller : Controller K
  since : Option (Restarted K)

namespace Controller
variable {K : Type*} [Field K] [LinearOrder K]

def Ramps (r : Restarted K) : Controller K → Prop
  | .pd c => c.Ramping r.start r.updates
  | .rl _ => True

theorem Ramps.withBase {r : Restarted K} {c : Controller K} (h : c.Ramps r)
    (f : ControllerBase K → ControllerBase K) : (c.withBase f).Ramps r := by
  cases c <;> exact h

theorem Ramps.getJointCmdData {r : Restarted K} {c : Controller K} (h : c.Ramps r) :
    c.getJointCmdData.2.Ramps r := by
  cases c <;> exact h

variable [IsStrictOrderedRing K]

theorem ramps_restartController (c : Controller K) :
    c.restartController.Ramps ⟨c.base.jointStateData.position, 0⟩ := by
  cases c with
  | pd c => exact c.restartController_ramping
  | rl c => trivial

theorem Ramps.update {r : Restarted K} {c : Controller K} (h : c.Ramps r) (io : Platform K) :
    (c.update io).Ramps ⟨r.start, r.updates + 1⟩ := by
  cases c with
  | pd c => exact PDController.Ramping.update h
  | rl c => trivial

end Controller

def Take.Sound {K : Type*} [Field K] [LinearOrder K] (k : Take K) : Prop :=
  ∃ r, k.since = some r ∧ ∀ c, k.controller = .pd c →
    c.getJointCmdData.position =
      (List.range c.base.jointNames.length).map (c.ramp r.start r.updates)

/-- `restarted` names every controller whose `RestartController` has returned; `since`
is what a monitor notes of the restarts since each controller became active. -/
structure Session (K : Type*) where
  module : ControlModule K
  callback : Option Restarting
  loop : Loop
  restarted : List String
  since : String → Option (Restarted K)
  taken : List (Take K)

namespace Session
variable {K : Type*}

inductive Action (K : Type*)
  | trigger (now : ℤ) (topic : String)
  | restart
  | loop
  | cmdVel (joy : Twist K)
  | imu (imu : Imu K)
  | jointState (msg : JointState K)

def TookSound [Field K] [LinearOrder K] (s : Session K) : Prop := ∀ k ∈ s.taken, k.Sound

def boot (m : ControlModule K) : Session K := ⟨m, none, .sleep, [], fun _ => none, []⟩

section Step
variable [Field K] [LinearOrder K] (io : Platform K) (reading : Activation) (s : Session K)

def trigger (now : ℤ) (topic : String) : Session K :=
  match s.module.onTrigger now topic with
  | (m, none) => { s with module := m }
  | (m, some names) =>
    let activated := reading.activated s.module.currentControllers names
    { s with
      module := m
      callback := some ⟨activated, [], names⟩
      since := fun name => if name ∈ activated then none else s.since name }

def restart (r : Restarting) (name : String) (todo : List String) : Option (Session K) :=
  (s.module.restartController name).map fun m =>
    { s with
      module := m
      callback := some { r with done := name :: r.done, todo := todo }
      restarted := name :: s.restarted
      since := Function.update s.since name <| (s.module.controllerMap name).map fun c =>
        ⟨c.base.jointStateData.position, 0⟩ }

def observe : Session K :=
  match s.loop with
  | .update (name :: _) =>
    { s with since := Function.update s.since name <| (s.since name).map fun r =>
        { r with updates := r.updates + 1 } }
  | .take name _ =>
    { s with taken := s.taken ++
        (s.module.controllerMap name).toList.map fun c => ⟨name, c, s.since name⟩ }
  | _ => s

def step : Action K → Option (Session K)
  | .trigger now topic =>
    -- the callbacks of the triggers come one after another
    match s.callback with
    | some _ => none
    | none => some (s.trigger reading now topic)
  | .restart =>
    match s.callback with
    | none => none
    | some ⟨_, _, []⟩ => some { s with callback := none }
    | some ⟨activated, done, name :: todo⟩ => s.restart ⟨activated, done, name :: todo⟩ name todo
  | .loop => (ControlModule.loopStep io s.loop s.module).map fun r =>
      { s.observe with loop := r.1, module := r.2 }
  | .cmdVel joy => (s.module.onCmdVel joy).map fun m => { s with module := m }
  | .imu imu => (s.module.onImu imu).map fun m => { s with module := m }
  | .jointState msg => some { s with module := s.module.onJointState msg }

end Step

def Ready (s : Session K) (name : String) : Prop :=
  name ∈ s.restarted ∧ ∀ r ∈ s.callback, name ∈ r.activated → name ∈ r.done

instance (s : Session K) (name : String) : Decidable (s.Ready name) :=
  inferInstanceAs (Decidable (_ ∧ _))

/-- `MainLoop` takes the commands of ready controllers only. -/
def TakesReady (s : Session K) : Action K → Prop
  | .loop =>
    match s.loop with
    | .take name _ => s.Ready name
    | _ => True
  | _ => True

instance (s : Session K) (a : Action K) : Decidable (s.TakesReady a) := by
  unfold TakesReady
  split
  · split <;> infer_instance
  · infer_instance

section Invariant
variable [Field K] [LinearOrder K]

structure Inv (s : Session K) : Prop where
  ready : ∀ name, (s.since name).isSome ↔ s.Ready name
  covered : ∀ r ∈ s.callback, ∀ name ∈ r.activated, name ∈ r.done ∨ name ∈ r.todo
  ramps : s.module.Every fun name c => ∀ r ∈ s.since name, c.Ramps r

theorem inv_boot (m : ControlModule K) : (boot m).Inv where
  ready := by simp [boot, Ready]
  covered := by simp [boot]
  ramps := by simp [boot, ControlModule.Every]

variable {io : Platform K} {reading : Activation} {s t : Session K}

theorem Inv.withModule (h : s.Inv) {m : ControlModule K}
    (hm : m.Every fun name c => ∀ r ∈ s.since name, c.Ramps r) : Inv { s with module := m } :=
  ⟨h.ready, h.covered, hm⟩

theorem Inv.messages (h : s.Inv) {f : ControllerBase K → ControllerBase K} {names : List String}
    {m : ControlModule K} (hm : ControlModule.forEach (Controller.withBase f) names s.module = some m) :
    Inv { s with module := m } :=
  h.withModule (h.ramps.forEach (fun _ _ hr r hmem => (hr r hmem).withBase f) hm)

theorem inv_trigger (h : s.Inv) (hidle : s.callback = none) (now : ℤ) (topic : String) :
    (s.trigger reading now topic).Inv := by
  have hmap := ControlModule.controllerMap_onTrigger s.module now topic
  unfold trigger
  split
  next m hm =>
    rw [hm] at hmap
    exact h.withModule (h.ramps.of_map hmap)
  next m names hm =>
    rw [hm] at hmap
    refine ⟨fun name => ?_, fun r hr name hname => ?_, fun name c hc r hr => ?_⟩
    -- the monitor forgets the restarts of those that become active
    · by_cases hmem : name ∈ reading.activated s.module.currentControllers names
      · simp [Ready, hmem]
      · simpa [Ready, hmem, hidle] using h.ready name
    · cases hr
      exact Or.inr (Activation.mem_of_activated hname)
    · simp only [Option.mem_def] at hr
      split_ifs at hr
      exact h.ramps name c (hmap ▸ hc) r hr

theorem Inv.sound_iff (h : s.Inv) {name : String} {c : Controller K}
    (hc : s.module.controllerMap name = some c) :
    (Take.mk name c (s.since name)).Sound ↔ s.Ready name := by
  rw [← h.ready name, Option.isSome_iff_exists]
  constructor
  · rintro ⟨r, hr, -⟩
    exact ⟨r, hr⟩
  · rintro ⟨r, hr⟩
    refine ⟨r, hr, fun pd hpd => ?_⟩
    have hramps := h.ramps name c hc r hr
    dsimp only at hpd
    rw [hpd] at hramps
    exact PDController.Ramping.position hramps

theorem taken_of_ne_loop {a : Action K} (ha : a ≠ .loop) (ht : s.step io reading a = some t) :
    t.taken = s.taken := by
  cases a with
  | trigger now topic =>
    simp only [step] at ht
    split at ht
    · cases ht
    · cases ht
      unfold trigger
      split <;> rfl
  | restart =>
    simp only [step] at ht
    split at ht
    · cases ht
    · cases ht
      rfl
    · obtain ⟨m, -, rfl⟩ := Option.map_eq_some_iff.mp ht
      rfl
  | loop => exact absurd rfl ha
  | cmdVel joy =>
    obtain ⟨m, -, rfl⟩ := Option.map_eq_some_iff.mp ht
    rfl
  | imu imu =>
    obtain ⟨m, -, rfl⟩ := Option.map_eq_some_iff.mp ht
    rfl
  | jointState msg =>
    cases ht
    rfl

theorem taken_loop (h : s.Inv) (ht : s.step io reading .loop = some t) :
    t.TookSound ↔ s.TookSound ∧ s.TakesReady .loop := by
  obtain ⟨r, hr, rfl⟩ := Option.map_eq_some_iff.mp ht
  obtain ⟨hloop, rfl⟩ | ⟨hloop, rfl⟩ | ⟨name, rest, c, hloop, hc, rfl⟩ |
    ⟨name, rest, c, hloop, hc, rfl⟩ := ControlModule.loopStep_cases hr
  · simp [TookSound, observe, TakesReady, hloop]
  · simp [TookSound, observe, TakesReady, hloop]
  · simp [TookSound, observe, TakesReady, hloop]
  · simp only [TookSound, observe, TakesReady, hloop, hc, Option.toList_some, List.map_cons,
      List.map_nil, List.mem_append, List.mem_singleton, or_imp, forall_and, forall_eq,
      h.sound_iff hc]

theorem taken_step {a : Action K} (h : s.Inv) (ht : s.step io reading a = some t) :
    t.TookSound ↔ s.TookSound ∧ s.TakesReady a := by
  cases a with
  | loop => exact taken_loop h ht
  | _ => simp [TookSound, taken_of_ne_loop (by simp) ht, TakesReady]

variable [IsStrictOrderedRing K]

theorem inv_restart (h : s.Inv) {r : Restarting} {name : String} {todo : List String}
    (hcall : s.callback = some r) (htodo : r.todo = name :: todo)
    (ht : s.restart r name todo = some t) : t.Inv := by
  obtain ⟨m, hm, rfl⟩ := Option.map_eq_some_iff.mp ht
  obtain ⟨c, hc, rfl⟩ := ControlModule.withController_eq_some.mp hm
  refine ⟨fun other => ?_, fun r' hr' other hother => ?_, ?_⟩
  · by_cases heq : other = name
    · subst heq
      simp [Ready, hc]
    · have hready := h.ready other
      simp only [Ready, hcall] at hready
      simpa [Ready, heq] using hready
  · cases hr'
    have hcovered := h.covered r hcall other hother
    -- `name` moves from the one list to the other.
    rw [htodo] at hcovered
    simp only [List.mem_cons] at hcovered ⊢
    tauto
  · refine h.ramps.setController (fun r' hr' => ?_) fun other d hne hd r' hr' => ?_
    · simp only [Function.update_self, hc, Option.map_some, Option.mem_some_iff] at hr'
      exact hr' ▸ c.ramps_restartController
    · simp only [Function.update_of_ne hne] at hr'
      exact hd r' hr'

theorem inv_loop (h : s.Inv) {r : Loop × ControlModule K}
    (hr : ControlModule.loopStep io s.loop s.module = some r) :
    Inv { s.observe with loop := r.1, module := r.2 } := by
  obtain ⟨hloop, rfl⟩ | ⟨hloop, rfl⟩ | ⟨name, rest, c, hloop, hc, rfl⟩ |
    ⟨name, rest, c, hloop, hc, rfl⟩ := ControlModule.loopStep_cases hr
  · simp only [observe, hloop]
    exact ⟨h.ready, h.covered, h.ramps⟩
  · simp only [observe, hloop]
    exact ⟨h.ready, h.covered, h.ramps.of_map rfl⟩
  · simp only [observe, hloop]
    -- An update is counted in the restart it follows, and changes nobody's readiness.
    refine ⟨fun other => ?_, h.covered, ?_⟩
    · refine Iff.trans ?_ (h.ready other)
      by_cases heq : other = name
      · subst heq
        simp
      · simp [heq]
    · refine h.ramps.setController (fun r' hr' => ?_) fun other d hne hd r' hr' => ?_
      · simp only [Function.update_self, Option.mem_def, Option.map_eq_some_iff] at hr'
        obtain ⟨r, hr, rfl⟩ := hr'
        exact (h.ramps name c hc r hr).update io
      · simp only [Function.update_of_ne hne] at hr'
        exact hd r' hr'
  · simp only [observe, hloop]
    refine ⟨h.ready, h.covered, ?_⟩
    refine ControlModule.Every.of_map ?_ (ControlModule.controllerMap_merge _ _)
    exact h.ramps.setController (fun r hr => (h.ramps name c hc r hr).getJointCmdData)
      fun _ _ _ hother => hother

theorem inv_step {a : Action K} (h : s.Inv) (ht : s.step io reading a = some t) : t.Inv := by
  cases a with
  | trigger now topic =>
    simp only [step] at ht
    split at ht
    · cases ht
    next hidle =>
      cases ht
      exact inv_trigger h hidle now topic
  | restart =>
    simp only [step] at ht
    split at ht
    · cases ht
    next activated done hcall =>
      -- the callback is through: whoever it made active was restarted
      cases ht
      refine ⟨fun name => ?_, by simp, h.ramps⟩
      have hcovered := h.covered _ hcall
      have hready := h.ready name
      simp only [Ready, hcall, Option.mem_some_iff, forall_eq'] at hready
      simp only [List.not_mem_nil, or_false] at hcovered
      simpa [Ready] using hready.trans ⟨And.left, fun hmem => ⟨hmem, hcovered name⟩⟩
    next activated done name todo hcall => exact inv_restart h hcall rfl ht
  | loop =>
    obtain ⟨r, hr, rfl⟩ := Option.map_eq_some_iff.mp ht
    exact inv_loop h hr
  | cmdVel joy =>
    obtain ⟨m, hm, rfl⟩ := Option.map_eq_some_iff.mp ht
    exact h.messages hm
  | imu imu =>
    obtain ⟨m, hm, rfl⟩ := Option.map_eq_some_iff.mp ht
    exact h.messages hm
  | jointState msg =>
    cases ht
    exact h.withModule (h.ramps.onJointState
      (fun _ _ _ _ hr r hmem => (hr r hmem).withBase _) msg)

end Invariant

/-- Whichever way a transition makes controllers active, every command taken in a run
follows a restart, and starts a position controller's transition anew, exactly if
`MainLoop` took the commands of ready controllers only. -/
theorem commands_restarted_iff [Field K] [LinearOrder K] [IsStrictOrderedRing K]
    (io : Platform K) (reading : Activation) (m : ControlModule K) {as : List (Action K)}
    {s : Session K} (h : Run (step io reading) (boot m) as s) :
    s.TookSound ↔ Along (step io reading) (fun s a => s.TakesReady a) (boot m) as := by
  refine h.iff_along (fun s a => s.TakesReady a) TookSound (by simp [boot, TookSound]) ?_
  intro p s a t hr ht
  have hinv : s.Inv := hr.invariant Inv (inv_boot m) fun _ _ _ h ht => inv_step h ht
  exact taken_step hinv ht

def kneeConfig : Config ℚ :=
  let pd : ControllerNode ℚ := ⟨["knee"], [0], [80], [2], none, none⟩
  { robotStates := [⟨"idle", "/idle_mode", ["zero"], ["pd_idle"]⟩,
      ⟨"zero", "/zero_mode", ["idle"], ["pd_zero"]⟩]
    controllers := [("pd_idle", pd), ("pd_zero", pd)]
    jointList := ["knee"]
    jointOffset := [("knee", 0)] }

theorem knee_initializes :
    (ControlModule.initializeModule (fun _ => 0) 0 kneeConfig).isSome = true := by
  decide +kernel

def knee : Session ℚ :=
  boot ((ControlModule.initializeModule (fun _ => 0) 0 kneeConfig).get knee_initializes)

def noMath : Platform ℚ := ⟨id, id, id, fun x _ => x, id, fun x _ => x, 0⟩

def bentKnee : JointState ℚ := ⟨["knee"], [1], [0], [0]⟩

def untilInstalled : List (Action ℚ) :=
  [.jointState bentKnee, .trigger 1000000000 "/zero_mode"]

def inTime : List (Action ℚ) := untilInstalled ++ [.restart, .loop, .loop, .loop]

def overtaken : List (Action ℚ) := untilInstalled ++ [.loop, .loop, .loop]

theorem inTime_runs : (Runs.exec (step noMath .listed) knee inTime).isSome = true := by
  decide +kernel

theorem overtaken_runs (reading : Activation) :
    (Runs.exec (step noMath reading) knee overtaken).isSome = true := by
  cases reading <;> decide +kernel

theorem commands_restarted_iff_inTime :
    ((Runs.exec (step noMath .listed) knee inTime).get inTime_runs).TookSound :=
  (commands_restarted_iff noMath .listed _ (Runs.run_of_exec inTime (Option.some_get _).symm)).mpr
    (Runs.along_of_guardsHold (by decide +kernel))

/-- The command for the bent knee is taken of a controller that was never restarted. -/
theorem command_before_restart :
    ¬ ∃ reading, ∀ as s, Run (step noMath reading) knee as s → s.TookSound := by
  rintro ⟨reading, h⟩
  have hsound := h overtaken _ (Runs.run_of_exec overtaken (Option.some_get (overtaken_runs _)).symm)
  have hnone : ((Runs.exec (step noMath reading) knee overtaken).get
      (overtaken_runs _)).taken.any (·.since.isNone) = true := by
    cases reading <;> decide +kernel
  obtain ⟨k, hk, hsince⟩ := List.any_eq_true.mp hnone
  obtain ⟨r, hr, -⟩ := hsound k hk
  rw [hr] at hsince
  cases hsince

end Session
end MybipedalDeploy.Control
