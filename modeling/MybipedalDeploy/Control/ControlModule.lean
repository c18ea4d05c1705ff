import Mathlib.Data.List.Dedup
import Mathlib.Data.List.Sort
import MybipedalDeploy.Control.RLController
import MybipedalDeploy.Control.StateMachine

/-!
# The control module

What `Initialize` builds of a configuration, the callbacks of the topics and the
steps of `MainLoop`. A result of `none` is a null pointer that ends the process:
a state lists a controller that is not configured. The traces are left out.
-/

namespace MybipedalDeploy.Control
open Msg (Twist Imu JointState JointCommand)

inductive Controller (K : Type*)
  | pd (c : PDController K)
  | rl (c : RLController K)

/-- The entry of a controller; `walk` is what only the learned controller reads. -/
structure ControllerNode (K : Type*) where
  jointList : List String
  initState : List K
  stiffness : List K
  damping : List K
  isKeepController : Option Bool
  walk : Option (RLConf K)

namespace Controller
variable {K : Type*}

def base : Controller K → ControllerBase K
  | .pd c => c.base
  | .rl c => c.base

def withBase (f : ControllerBase K → ControllerBase K) : Controller K → Controller K
  | .pd c => .pd { c with base := f c.base }
  | .rl c => .rl { c with base := f c.base }

@[simp] theorem base_withBase (f : ControllerBase K → ControllerBase K) (c : Controller K) :
    (c.withBase f).base = f c.base := by
  cases c <;> rfl

def restartController [Zero K] : Controller K → Controller K
  | .pd c => .pd c.restartController
  | .rl c => .rl c.restartController

@[simp] theorem base_restartController [Zero K] (c : Controller K) :
    c.restartController.base = c.base := by
  cases c <;> rfl

variable [Field K]

/-- The prefix of the name chooses the class; another one leaves a null pointer. -/
def make (name : String) (node : ControllerNode K) : Option (Controller K) :=
  let base := .new node.jointList node.initState node.stiffness node.damping
  if name.take 3 == "rl_" then node.walk.map fun conf => .rl (.new base conf)
  else if name.take 3 == "pd_" then some (.pd (.new base (node.isKeepController.getD false)))
  else none

theorem base_make {name : String} {node : ControllerNode K} {c : Controller K}
    (h : make name node = some c) :
    c.base = .new node.jointList node.initState node.stiffness node.damping := by
  unfold make at h
  split_ifs at h
  · obtain ⟨conf, -, rfl⟩ := Option.map_eq_some_iff.mp h
    rfl
  · cases h
    rfl

def getJointCmdData : Controller K → JointCommand K × Controller K
  | .pd c => (c.getJointCmdData, .pd c)
  | .rl c => (c.getJointCmdData.1, .rl c.getJointCmdData.2)

@[simp] theorem base_getJointCmdData (c : Controller K) :
    c.getJointCmdData.2.base = c.base := by
  cases c <;> rfl

variable [LinearOrder K]

def update (io : Platform K) : Controller K → Controller K
  | .pd c => .pd c.update
  | .rl c => .rl (c.update io)

@[simp] theorem base_update (io : Platform K) (c : Controller K) :
    (c.update io).base = c.base := by
  cases c with
  | pd c =>
    simp only [update, base, PDController.update]
    split_ifs <;> rfl
  | rl c => exact c.base_update io

end Controller

structure Config (K : Type*) where
  robotStates : List State
  controllers : List (String × ControllerNode K)
  jointList : List String
  jointOffset : List (String × K)

/-- `controllerNames` are the keys of the map in its order; `firstEntry` tells which
key an `unordered_map` puts first; `cmdMsg` is the message `MainLoop` fills. -/
structure ControlModule (K : Type*) where
  stateMachine : StateMachine
  triggerTopics : List String
  controllerMap : String → Option (Controller K)
  controllerNames : List String
  jointStateIndexMap : IndexMap
  jointCmdIndexMap : IndexMap
  jointOffsetMap : List (String × K)
  firstEntry : List String → ℕ
  lastTriggerTime : ℤ
  cmdMsg : JointCommand K
  published : List (JointCommand K)

inductive Loop
  | sleep
  | update (names : List String)
  | take (name : String) (rest : List String)

def throttler (now last : ℤ) : Bool := 1000 * 1000000 ≤ now - last

namespace ControlModule
variable {K : Type*}

def initializeModule [Field K] (firstEntry : List String → ℕ) (now : ℤ) (conf : Config K) :
    Option (ControlModule K) :=
  let n := conf.jointList.dedup.length
  (StateMachine.init conf.robotStates).bind fun stateMachine =>
  (conf.controllers.mapM fun e => (Controller.make e.1 e.2).map fun c => (e.1, c)).map
    fun controllers =>
    { stateMachine := stateMachine
      triggerTopics := (conf.robotStates.map State.triggerTopic).dedup
      controllerMap := fun name => controllers.reverse.lookup name
      controllerNames := (controllers.map Prod.fst).dedup.insertionSort (· ≤ ·)
      jointStateIndexMap := conf.jointList.foldl (fun m joint => m.set joint (-1)) []
      jointCmdIndexMap := conf.jointList.zipIdx.foldl (fun m e => m.set e.1 e.2) []
      jointOffsetMap := conf.jointOffset
      firstEntry := firstEntry
      lastTriggerTime := now
      cmdMsg := ⟨List.replicate n "", zeros n, zeros n, zeros n, zeros n, zeros n⟩
      published := [] }

def currentControllers (m : ControlModule K) : List String := m.stateMachine.controllers

def setController (m : ControlModule K) (name : String) (c : Controller K) : ControlModule K :=
  { m with controllerMap := Function.update m.controllerMap name (some c) }

def withController (m : ControlModule K) (name : String) (f : Controller K → Controller K) :
    Option (ControlModule K) :=
  (m.controllerMap name).map fun c => m.setController name (f c)

def forEach (f : Controller K → Controller K) :
    List String → ControlModule K → Option (ControlModule K)
  | [], m => some m
  | name :: names, m => (m.withController name f).bind (forEach f names)

/-- The callback of a trigger up to its loop: the transition and the controllers that
are to be restarted. Only the topics of the states have a callback. -/
def onTrigger (m : ControlModule K) (now : ℤ) (topic : String) :
    ControlModule K × Option (List String) :=
  if topic ∈ m.triggerTopics ∧ throttler now m.lastTriggerTime then
    match m.stateMachine.onEvent topic with
    -- the throttler has noted the time of a refused event
    | none => ({ m with lastTriggerTime := now }, none)
    | some stateMachine =>
      ({ m with lastTriggerTime := now, stateMachine := stateMachine }, some stateMachine.controllers)
  else (m, none)

def restartController [Zero K] (m : ControlModule K) (name : String) : Option (ControlModule K) :=
  m.withController name Controller.restartController

def onCmdVel (m : ControlModule K) (joy : Twist K) : Option (ControlModule K) :=
  m.forEach (Controller.withBase (·.setCmdData joy)) m.currentControllers

def onImu (m : ControlModule K) (imu : Imu K) : Option (ControlModule K) :=
  m.forEach (Controller.withBase (·.setImuData imu)) m.currentControllers

section JointState
variable [Field K]

/-- The indices are taken from the message while the first entry has none. -/
def noteIndices (m : ControlModule K) (msg : JointState K) : ControlModule K :=
  let n := m.firstEntry (m.jointStateIndexMap.map Prod.fst) % m.jointStateIndexMap.length
  if (m.jointStateIndexMap[n]?).map Prod.snd = some (-1) then
    { m with jointStateIndexMap :=
        msg.name.zipIdx.foldl (fun indices e => indices.set e.1 e.2) m.jointStateIndexMap }
  else m

def subtractOffsets (m : ControlModule K) (msg : JointState K) : Option (JointState K) :=
  m.jointOffsetMap.foldlM (fun msg e =>
    (m.jointStateIndexMap.at? e.1).map fun i =>
      { msg with position := writeAt msg.position i (readAt msg.position i - e.2) }) msg

def forwardJointState (msg : JointState K) : List String → ControlModule K → ControlModule K
  | [], m => m
  | name :: names, m =>
    match m.controllerMap name with
    | none => m
    | some c =>
      let r := c.base.setJointStateData msg m.jointStateIndexMap
      let m := m.setController name (c.withBase fun _ => r.2)
      if r.1 then forwardJointState msg names m else m

def onJointState (m : ControlModule K) (msg : JointState K) : ControlModule K :=
  let m := m.noteIndices msg
  match m.subtractOffsets msg with
  | none => m
  | some msg => m.forwardJointState msg m.controllerNames

end JointState

section Loop
variable [Field K]

/-- Joint `ii` of a controller's command; `operator[]` gives an unknown joint the slot 0
and adds a zero offset for it. -/
def mergeJoint (m : ControlModule K) (cmd : JointCommand K) (ii : ℕ) (name : String) :
    ControlModule K :=
  let index := ((m.jointCmdIndexMap.at? name).getD 0).toNat
  let offset := (m.jointOffsetMap.lookup name).getD 0
  { m with
    jointOffsetMap :=
      if (m.jointOffsetMap.lookup name).isSome then m.jointOffsetMap
      else m.jointOffsetMap ++ [(name, 0)]
    cmdMsg :=
      { name := m.cmdMsg.name.set index name
        position := m.cmdMsg.position.set index (cmd.position.getD ii 0 + offset)
        velocity := m.cmdMsg.velocity.set index (cmd.velocity.getD ii 0)
        effort := m.cmdMsg.effort.set index (cmd.effort.getD ii 0)
        stiffness := m.cmdMsg.stiffness.set index (cmd.stiffness.getD ii 0)
        damping := m.cmdMsg.damping.set index (cmd.damping.getD ii 0) } }

def merge (m : ControlModule K) (cmd : JointCommand K) : ControlModule K :=
  cmd.name.zipIdx.foldl (fun m e => m.mergeJoint cmd e.2 e.1) m

def publish (m : ControlModule K) : ControlModule K :=
  { m with published := m.published ++ [m.cmdMsg] }

variable [LinearOrder K]

def updateController (io : Platform K) (m : ControlModule K) (name : String) :
    Option (ControlModule K) :=
  m.withController name (Controller.update io)

def takeCommand (m : ControlModule K) (name : String) : Option (ControlModule K) :=
  (m.controllerMap name).map fun c =>
    let r := c.getJointCmdData
    (m.setController name r.2).merge r.1

def loopStep (io : Platform K) : Loop → ControlModule K → Option (Loop × ControlModule K)
  | .sleep, m => some (.update m.currentControllers, m)
  | .update [], m => some (.sleep, m.publish)
  | .update (name :: rest), m => (m.updateController io name).map fun m => (.take name rest, m)
  | .take name rest, m => (m.takeCommand name).map fun m => (.update rest, m)

theorem loopStep_cases {io : Platform K} {l : Loop} {m : ControlModule K}
    {r : Loop × ControlModule K} (h : loopStep io l m = some r) :
    (l = .sleep ∧ r = (.update m.currentControllers, m)) ∨
    (l = .update [] ∧ r = (.sleep, m.publish)) ∨
    (∃ name rest c, l = .update (name :: rest) ∧ m.controllerMap name = some c ∧
      r = (.take name rest, m.setController name (c.update io))) ∨
    ∃ name rest c, l = .take name rest ∧ m.controllerMap name = some c ∧
      r = (.update rest, (m.setController name c.getJointCmdData.2).merge c.getJointCmdData.1) := by
  cases l with
  | sleep => exact .inl ⟨rfl, (Option.some.inj h).symm⟩
  | update names =>
    cases names with
    | nil => exact .inr (.inl ⟨rfl, (Option.some.inj h).symm⟩)
    | cons name rest =>
      obtain ⟨m', hm, rfl⟩ := Option.map_eq_some_iff.mp h
      obtain ⟨c, hc, rfl⟩ := Option.map_eq_some_iff.mp hm
      exact .inr (.inr (.inl ⟨name, rest, c, rfl, hc, rfl⟩))
  | take name rest =>
    obtain ⟨m', hm, rfl⟩ := Option.map_eq_some_iff.mp h
    obtain ⟨c, hc, rfl⟩ := Option.map_eq_some_iff.mp hm
    exact .inr (.inr (.inr ⟨name, rest, c, rfl, hc, rfl⟩))

end Loop

def Every (P : String → Controller K → Prop) (m : ControlModule K) : Prop :=
  ∀ name c, m.controllerMap name = some c → P name c

section Frame
variable {P Q : String → Controller K → Prop} {m n : ControlModule K}

theorem Every.of_map (h : m.Every P) (hmap : n.controllerMap = m.controllerMap) : n.Every P :=
  fun name c hc => h name c (hmap ▸ hc)

theorem Every.setController (h : m.Every P) {name : String} {c : Controller K} (hname : Q name c)
    (hother : ∀ other c, other ≠ name → P other c → Q other c) : (m.setController name c).Every Q := by
  intro other d hd
  simp only [ControlModule.setController, Function.update_apply] at hd
  split_ifs at hd with heq
  · cases hd
    exact heq ▸ hname
  · exact hother other d heq (h other d hd)

theorem withController_eq_some {name : String} {f : Controller K → Controller K} :
    m.withController name f = some n ↔
      ∃ c, m.controllerMap name = some c ∧ m.setController name (f c) = n := by
  simp [withController]

theorem Every.withController {f : Controller K → Controller K} (h : m.Every P) {name : String}
    (hf : ∀ c, P name c → Q name (f c)) (hother : ∀ other c, other ≠ name → P other c → Q other c)
    (hn : m.withController name f = some n) : n.Every Q := by
  obtain ⟨c, hc, rfl⟩ := withController_eq_some.mp hn
  exact h.setController (hf c (h name c hc)) hother

theorem Every.forEach {f : Controller K → Controller K} (hf : ∀ name c, P name c → P name (f c))
    {names : List String} (h : m.Every P) (hn : forEach f names m = some n) : n.Every P := by
  induction names generalizing m with
  | nil => cases hn; exact h
  | cons name names ih =>
    obtain ⟨m', hm', hn⟩ := Option.bind_eq_some_iff.mp hn
    exact ih (h.withController (hf name) (fun _ _ _ hP => hP) hm') hn

theorem controllerMap_forEach {f : Controller K → Controller K} (hf : ∀ c, f (f c) = f c)
    {names : List String} (hn : forEach f names m = some n) (name : String) :
    n.controllerMap name =
      if name ∈ names then (m.controllerMap name).map f else m.controllerMap name := by
  induction names generalizing m with
  | nil => cases hn; simp
  | cons first names ih =>
    obtain ⟨m', hm', hn⟩ := Option.bind_eq_some_iff.mp hn
    obtain ⟨c, hc, rfl⟩ := withController_eq_some.mp hm'
    rw [ih hn]
    by_cases heq : name = first
    · subst heq
      simp [setController, hc, hf]
    · simp [setController, heq]

section JointState
variable [Field K] (hP : ∀ name c msg indices, P name c →
  P name (c.withBase fun _ => (c.base.setJointStateData msg indices).2))
include hP

theorem Every.forwardJointState (msg : JointState K) (names : List String) (h : m.Every P) :
    (forwardJointState msg names m).Every P := by
  induction names generalizing m with
  | nil => exact h
  | cons name names ih =>
    simp only [ControlModule.forwardJointState]
    split
    · exact h
    next c hc =>
      have hset := h.setController (hP name c msg m.jointStateIndexMap (h name c hc))
        fun _ _ _ hother => hother
      split_ifs
      · exact ih hset
      · exact hset

theorem Every.onJointState (h : m.Every P) (msg : JointState K) : (m.onJointState msg).Every P := by
  have hnote : (m.noteIndices msg).Every P := h.of_map (by unfold noteIndices; dsimp only; split_ifs <;> rfl)
  unfold ControlModule.onJointState
  dsimp only
  split
  · exact hnote
  · exact hnote.forwardJointState hP _ _

end JointState

theorem controllerMap_onTrigger (m : ControlModule K) (now : ℤ) (topic : String) :
    (m.onTrigger now topic).1.controllerMap = m.controllerMap := by
  unfold onTrigger
  split_ifs
  · split <;> rfl
  · rfl

@[simp] theorem controllerMap_merge [Field K] (m : ControlModule K) (cmd : JointCommand K) :
    (m.merge cmd).controllerMap = m.controllerMap := by
  unfold merge
  induction cmd.name.zipIdx generalizing m with
  | nil => rfl
  | cons e es ih => exact (ih _).trans rfl

end Frame
end ControlModule
end MybipedalDeploy.Control
