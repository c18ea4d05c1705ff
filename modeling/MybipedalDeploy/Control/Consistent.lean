import MybipedalDeploy.Control.Bounds
import MybipedalDeploy.Control.Throttle

/-!
# Consistent configurations

The entries of a configuration may fit each other. While the messages are as long as the
first one, each step of its runs fits: the controllers keep the sizes they were made with,
and the indices that were noted stay below the length of a message.
-/

namespace MybipedalDeploy.Control
open Msg (JointCommand JointState)
open Access (AllValid)
open Runs (Along)

structure RLConf.Suits {K : Type*} (joints : ℕ) (conf : RLConf K) : Prop where
  actionsSize : conf.actionsSize = joints
  observationsSize : conf.observationsSize = conf.frameSize
  numHist : 1 ≤ conf.numHist
  policy : ∀ x, joints ≤ (conf.policy x).length

structure ControllerNode.Suits {K : Type*} (node : ControllerNode K) : Prop where
  initState : node.jointList.length ≤ node.initState.length
  stiffness : node.jointList.length ≤ node.stiffness.length
  damping : node.jointList.length ≤ node.damping.length
  walk : ∀ walk, node.walk = some walk → walk.Suits node.jointList.length

structure Config.Consistent {K : Type*} (conf : Config K) : Prop where
  joints : conf.jointList ≠ []
  nodup : conf.jointList.Nodup
  controllers : ∀ e ∈ conf.controllers, e.2.Suits
  states : ∀ s ∈ conf.robotStates, ∀ name ∈ s.controllers, name ∈ conf.controllers.map Prod.fst

namespace Controller
variable {K : Type*}

def conf? : Controller K → Option (RLConf K)
  | .pd _ => none
  | .rl c => some c.conf

structure Suited (c : Controller K) : Prop where
  initState : c.base.jointNames.length ≤ c.base.initState.length
  stiffness : c.base.jointNames.length ≤ c.base.stiffness.length
  damping : c.base.jointNames.length ≤ c.base.damping.length
  walk : ∀ walk, c.conf? = some walk → walk.Suits c.base.jointNames.length

theorem Suited.keep {c d : Controller K} (h : c.Suited)
    (hnames : d.base.jointNames = c.base.jointNames) (hinit : d.base.initState = c.base.initState)
    (hstiffness : d.base.stiffness = c.base.stiffness) (hdamping : d.base.damping = c.base.damping)
    (hconf : d.conf? = c.conf?) : d.Suited := by
  constructor
  · rw [hnames, hinit]
    exact h.initState
  · rw [hnames, hstiffness]
    exact h.stiffness
  · rw [hnames, hdamping]
    exact h.damping
  · rw [hnames, hconf]
    exact h.walk

theorem Suited.of_base {c d : Controller K} (h : c.Suited) (hbase : d.base = c.base)
    (hconf : d.conf? = c.conf?) : d.Suited :=
  h.keep (by rw [hbase]) (by rw [hbase]) (by rw [hbase]) (by rw [hbase]) hconf

theorem conf?_withBase (f : ControllerBase K → ControllerBase K) (c : Controller K) :
    (c.withBase f).conf? = c.conf? := by
  cases c <;> rfl

theorem Suited.setData {c : Controller K} (h : c.Suited)
    {f : ControllerBase K → ControllerBase K} (hnames : (f c.base).jointNames = c.base.jointNames)
    (hinit : (f c.base).initState = c.base.initState)
    (hstiffness : (f c.base).stiffness = c.base.stiffness)
    (hdamping : (f c.base).damping = c.base.damping) : (c.withBase f).Suited := by
  apply h.keep _ _ _ _ (conf?_withBase f c) <;> rw [base_withBase] <;> assumption

theorem conf?_getJointCmdData [Field K] (c : Controller K) :
    c.getJointCmdData.2.conf? = c.conf? := by
  cases c <;> rfl

theorem conf?_update [Field K] [LinearOrder K] (io : Platform K) (c : Controller K) :
    (c.update io).conf? = c.conf? := by
  cases c with
  | pd c => rfl
  | rl c => exact congrArg some (c.conf_update io)

theorem Suited.commandFits {c : Controller K} (h : c.Suited) : c.CommandFits := by
  cases c with
  | pd c => exact ⟨fun _ => h.initState, h.stiffness, h.damping⟩
  | rl c =>
    have hsize : c.conf.actionsSize = c.base.jointNames.length := (h.walk c.conf rfl).actionsSize
    exact ⟨hsize.trans_le h.initState, hsize.trans_le h.stiffness, hsize.trans_le h.damping,
      hsize.le⟩

theorem Suited.updateFits {c : Controller K} (h : c.Suited) : c.UpdateFits ∧ c.TraceFits := by
  cases c with
  | pd c => exact ⟨trivial, trivial⟩
  | rl c =>
    obtain ⟨hactions, hobservations, hhist, hpolicy⟩ := h.walk c.conf rfl
    change c.conf.actionsSize = c.base.jointNames.length at hactions
    refine ⟨⟨hactions.le, fun _ => ⟨hobservations.ge, ?_, hhist, ?_, fun _ => hactions.ge⟩⟩,
      fun _ => hobservations.le⟩
    · rw [hactions]
      exact h.initState
    · rw [hactions]
      exact hpolicy

theorem suited_make [Field K] {name : String} {node : ControllerNode K} {c : Controller K}
    (h : make name node = some c) (hnode : node.Suits) : c.Suited := by
  have hbase := Controller.base_make h
  have hconf : ∀ walk, c.conf? = some walk → node.walk = some walk := by
    unfold make at h
    split_ifs at h
    · obtain ⟨conf, hwalk, rfl⟩ := Option.map_eq_some_iff.mp h
      intro walk hconf
      cases hconf
      exact hwalk
    · cases h
      intro walk hconf
      cases hconf
  constructor
  · rw [hbase]
    exact hnode.initState
  · rw [hbase]
    exact hnode.stiffness
  · rw [hbase]
    exact hnode.damping
  · rw [hbase]
    exact fun walk hwalk => hnode.walk walk (hconf walk hwalk)

end Controller

namespace IndexMap

theorem exists_of_mem_lookups {indices : IndexMap} {names : List String} {i : ℤ}
    (h : i ∈ indices.lookups names) : ∃ name, indices.at? name = some i := by
  induction names with
  | nil => cases h
  | cons name names ih =>
    simp only [lookups] at h
    cases hat : indices.at? name with
    | none =>
      rw [hat] at h
      cases h
    | some j =>
      rw [hat] at h
      rcases List.mem_cons.mp h with rfl | h
      · exact ⟨name, hat⟩
      · exact ih h

end IndexMap

namespace ControlModule
variable {K : Type*}

def NotedWithin (length : ℕ) (indices : IndexMap) : Prop :=
  indices ≠ [] ∧ ∀ e ∈ indices, 0 ≤ e.2 ∧ e.2 < length

theorem NotedWithin.within {length : ℕ} {indices : IndexMap} (h : NotedWithin length indices)
    (names : List String) : indices.Within names length := by
  intro i hi
  obtain ⟨name, hat⟩ := IndexMap.exists_of_mem_lookups hi
  exact h.2 (name, i) (AssociationList.mem_of_lookup hat)

theorem notedWithin_noteIndices {conf : Config K} {m : ControlModule K} {msg : JointState K}
    (hlisted : ∀ joint ∈ conf.jointList, joint ∈ msg.name)
    (h : Unnoted conf m.jointStateIndexMap ∨ NotedWithin msg.name.length m.jointStateIndexMap) :
    NotedWithin msg.name.length (m.noteIndices msg).jointStateIndexMap := by
  rcases h with hunnoted | hnoted
  · rw [noteIndices_of_unnoted hunnoted]
    refine ⟨?_, fun e he => place_of_unnoted hunnoted hlisted he⟩
    exact Runs.foldl_invariant (fun (m : IndexMap) (e : String × ℕ) => m.set e.1 e.2) (· ≠ [])
      hunnoted.1 (fun m e _ => m.set_ne_nil e.1 e.2) msg.name.zipIdx
  · rw [noteIndices_of_noted fun e he => (hnoted.2 e he).1]
    exact hnoted

structure Kept (conf : Config K) (length : ℕ) (m : ControlModule K) : Prop where
  sound : m.Sound conf.jointList.length
  suited : m.Every fun _ c => c.Suited
  known : ∀ name ∈ conf.controllers.map Prod.fst, (m.controllerMap name).isSome
  machine : m.Configured conf.robotStates
  slots : ∀ joint, 0 ≤ (m.jointCmdIndexMap.at? joint).getD 0 ∧
    (m.jointCmdIndexMap.at? joint).getD 0 < conf.jointList.length
  indices : Unnoted conf m.jointStateIndexMap ∨ NotedWithin length m.jointStateIndexMap

structure SameMachine (m n : ControlModule K) : Prop where
  topics : n.triggerTopics = m.triggerTopics
  machine : n.stateMachine = m.stateMachine

theorem sameMachine_frame : SetFrame (SameMachine (K := K)) where
  refl _ := ⟨rfl, rfl⟩
  trans h h' := ⟨h'.topics.trans h.topics, h'.machine.trans h.machine⟩
  set _ _ _ _ _ := ⟨rfl, rfl⟩

variable {m n : ControlModule K} {states : List State} {conf : Config K} {length : ℕ}

theorem Configured.keep (h : m.Configured states) (hsame : m.SameMachine n) :
    n.Configured states :=
  ⟨hsame.topics.trans h.topics, hsame.machine.symm ▸ h.stands⟩

theorem sameMachine_noteIndices (m : ControlModule K) (msg : JointState K) :
    m.SameMachine (m.noteIndices msg) := by
  unfold noteIndices
  dsimp only
  split_ifs <;> exact ⟨rfl, rfl⟩

theorem Configured.withOutput (h : m.Configured states) (o : Output K) :
    (m.withOutput o).Configured states :=
  ⟨h.topics, h.stands⟩

theorem Kept.standsWithin (h : m.Kept conf length) {msg : JointState K}
    (hcarries : Carries conf msg) (hlength : msg.name.length = length) : m.StandsWithin msg := by
  subst hlength
  have hnoted := notedWithin_noteIndices hcarries.listed h.indices
  refine ⟨?_, hnoted.within m.lookedUp⟩
  rcases h.indices with hunnoted | hnoted
  · exact hunnoted.1
  · exact hnoted.1

theorem Kept.current_known (h : m.Kept conf length) (hconf : conf.Consistent) {name : String}
    (hname : name ∈ m.currentControllers) : name ∈ conf.controllers.map Prod.fst := by
  obtain ⟨u, hu⟩ := h.machine.stands
  apply hconf.states u hu.configured
  rw [← hu.controllers]
  exact hname

theorem Kept.restarted_known (h : m.Kept conf length) (hconf : conf.Consistent) {now : ℤ}
    {topic name : String} (hname : name ∈ (m.onTrigger now topic).2.getD []) :
    name ∈ conf.controllers.map Prod.fst := by
  obtain ⟨u, hu⟩ := h.machine.stands
  change name ∈ (m.accepted (now, topic)).getD [] at hname
  obtain ⟨t, _, ht, hacc, _⟩ | ⟨_, _, hacc, _⟩ | ⟨_, hacc, _⟩ := m.onTrigger_cases (now, topic)
  · rw [hacc] at hname
    exact hconf.states t ((StateMachine.target_eq_some_iff hu).mp ht).mem name hname
  · rw [hacc] at hname
    cases hname
  · rw [hacc] at hname
    cases hname

theorem Kept.updateFits (h : m.Kept conf length) (traced : Bool) {name : String}
    (hname : name ∈ conf.controllers.map Prod.fst) : m.UpdateFits traced name := by
  obtain ⟨c, hc⟩ := Option.isSome_iff_exists.mp (h.known name hname)
  have hfits := (h.suited name c hc).updateFits
  exact ⟨c, hc, hfits.1, fun _ => hfits.2⟩

theorem Kept.takeFits (h : m.Kept conf length) {name : String}
    (hname : name ∈ conf.controllers.map Prod.fst) : m.TakeFits name := by
  obtain ⟨c, hc⟩ := Option.isSome_iff_exists.mp (h.known name hname)
  refine ⟨c, hc, (h.suited name c hc).commandFits, fun joint _ => ?_⟩
  rw [h.sound.sized.name]
  exact h.slots joint

theorem Kept.set (h : m.Kept conf length) {name : String} {c c' : Controller K}
    (hc : m.controllerMap name = some c) (hbuilt : c'.Built) (hsuited : c'.Suited) :
    (m.setController name c').Kept conf length where
  sound := h.sound.set hc hbuilt
  suited := h.suited.setController hsuited fun _ _ _ hother => hother
  known other hother := by
    rw [(sameNames_frame.set m name c c' hc).present]
    exact h.known other hother
  machine := h.machine.keep (sameMachine_frame.set m name c c' hc)
  slots := h.slots
  indices := h.indices

theorem Kept.withOutput (h : m.Kept conf length) {o : Output K}
    (hsized : Sized conf.jointList.length o.cmdMsg) : (m.withOutput o).Kept conf length :=
  ⟨h.sound.withOutput hsized, h.suited, h.known, h.machine.withOutput o, h.slots, h.indices⟩

variable [Field K]

theorem Configured.handle (h : m.Configured states) {c : Reception.Callback K}
    (hn : m.handle c = some n) : n.Configured states := by
  cases c with
  | trigger now topic =>
    have htrigger : m.trigger now topic = some n := hn
    rw [trigger_eq] at htrigger
    exact (h.event ⟨now, topic⟩).keep (sameMachine_frame.forEach htrigger)
  | cmdVel joy => exact h.keep (sameMachine_frame.forEach hn)
  | imu imu => exact h.keep (sameMachine_frame.forEach hn)
  | jointState msg =>
    cases hn
    exact h.keep (sameMachine_frame.onJointState (sameMachine_noteIndices m msg))

theorem suited_handle (h : m.Every fun _ c => c.Suited) {c : Reception.Callback K}
    (hn : m.handle c = some n) : n.Every fun _ c => c.Suited := by
  apply h.handle _ _ _ _ hn
  · intro _ c hc
    refine hc.of_base c.base_restartController ?_
    cases c <;> rfl
  · intro joy _ c hc
    exact hc.setData rfl rfl rfl rfl
  · intro imu _ c hc
    exact hc.setData rfl rfl rfl rfl
  · intro _ c msg indices hc
    obtain ⟨data, hdata⟩ :=
      ControllerBase.storeJoints_eq msg indices c.base.jointNames.zipIdx c.base
    apply hc.setData <;> rw [ControllerBase.setJointStateData, hdata]

theorem indices_onJointState (m : ControlModule K) (msg : JointState K) :
    (m.onJointState msg).jointStateIndexMap = (m.noteIndices msg).jointStateIndexMap := by
  unfold onJointState
  dsimp only
  split
  · rfl
  · exact (sameWiring_frame.forwardJointState _ _ _).indices

theorem Kept.handle (h : m.Kept conf length) {c : Reception.Callback K}
    (hagrees : ∀ msg, c = .jointState msg → Carries conf msg ∧ msg.name.length = length)
    (hn : m.handle c = some n) : n.Kept conf length where
  sound := h.sound.handle hn
  suited := suited_handle h.suited hn
  known name hname := by
    rw [(sameNames_handle hn).present]
    exact h.known name hname
  machine := h.machine.handle hn
  slots := by
    rw [(sameOutput_handle hn).indices]
    exact h.slots
  indices := by
    cases c with
    | trigger now topic =>
      rw [(sameWiring_frame.trigger hn).indices]
      exact h.indices
    | cmdVel joy =>
      rw [(sameWiring_frame.forEach hn).indices]
      exact h.indices
    | imu imu =>
      rw [(sameWiring_frame.forEach hn).indices]
      exact h.indices
    | jointState msg =>
      cases hn
      obtain ⟨hcarries, rfl⟩ := hagrees msg rfl
      rw [indices_onJointState]
      exact .inr (notedWithin_noteIndices hcarries.listed h.indices)

theorem Kept.merge (h : m.Kept conf length) (cmd : JointCommand K) :
    (m.merge cmd).Kept conf length := by
  have hsized := (m.extends_merge cmd).sized _ h.sound.sized
  obtain ⟨o, ho⟩ := m.exists_withOutput_merge cmd
  rw [ho] at hsized ⊢
  exact h.withOutput hsized

theorem kept_at_start {firstEntry : List String → ℕ} {now : ℤ}
    (hm : initializeModule firstEntry now conf = some m) (hfixed : conf.FixedPolicies)
    (hconf : conf.Consistent) (length : ℕ) : m.Kept conf length where
  sound := by
    have hsound := sound_at_start hm hfixed
    rwa [hconf.nodup.dedup] at hsound
  suited name c hc := by
    obtain ⟨node, hnode, hmake⟩ := made_at_start hm hc
    exact Controller.suited_make hmake (hconf.controllers (name, node) hnode)
  known name hname := (present_at_start hm name).2.mp hname
  machine := (configured_at_start hm).1
  slots joint := by
    have hpos := List.length_pos_iff.mpr hconf.joints
    obtain ⟨machine, _, hm⟩ := Option.bind_eq_some_iff.mp hm
    obtain ⟨controllers, _, rfl⟩ := Option.map_eq_some_iff.mp hm
    dsimp only
    rw [IndexMap.at?_foldl_set]
    cases hplace : lastPlace conf.jointList joint with
    | none => simpa [IndexMap.at?] using hpos
    | some i =>
      have hlt := (List.getElem?_eq_some_iff.mp (getElem?_of_lastPlace hplace)).1
      simpa using hlt
  indices := by
    obtain ⟨machine, _, hm⟩ := Option.bind_eq_some_iff.mp hm
    obtain ⟨controllers, _, rfl⟩ := Option.map_eq_some_iff.mp hm
    exact .inl (unnoted_at_start hconf.joints)

end ControlModule

def Loop.names : Loop → List String
  | .sleep => []
  | .update names => names
  | .take name rest => name :: rest

namespace Running
variable {K : Type*}
open Reception (Event)
open ControlModule (Carries)

structure Kept (conf : Config K) (length : ℕ) (s : Running K) : Prop where
  module : s.module.Kept conf length
  names : ∀ name ∈ s.loop.names, name ∈ conf.controllers.map Prod.fst
  traced : s.traced.getD 0 ≤ conf.jointList.length

variable {conf : Config K} {length : ℕ} {s t : Running K} {e : Event K}

theorem Kept.fits (h : s.Kept conf length) (hconf : conf.Consistent)
    (hagrees : ∀ msg, e = .callback (.jointState msg) →
      Carries conf msg ∧ msg.name.length = length) : s.Fits e := by
  cases e with
  | callback c =>
    cases c with
    | trigger now topic =>
      exact fun name hname => h.module.known name (h.module.restarted_known hconf hname)
    | cmdVel joy => exact fun name hname => h.module.known name (h.module.current_known hconf hname)
    | imu imu => exact fun name hname => h.module.known name (h.module.current_known hconf hname)
    | jointState msg =>
      obtain ⟨hcarries, hlength⟩ := hagrees msg rfl
      exact h.module.standsWithin hcarries hlength
  | loop =>
    have hnames := h.names
    unfold Fits LoopFits
    cases hloop : s.loop with
    | sleep => trivial
    | update names =>
      rw [hloop] at hnames
      cases names with
      | nil => exact h.traced.trans h.module.sound.sized.position.ge
      | cons name rest => exact h.module.updateFits _ (hnames name List.mem_cons_self)
    | take name rest =>
      rw [hloop] at hnames
      exact h.module.takeFits (hnames name List.mem_cons_self)

variable [Field K] [LinearOrder K] {io : Platform K}

theorem Kept.step (h : s.Kept conf length) (hconf : conf.Consistent)
    (hagrees : ∀ msg, e = .callback (.jointState msg) →
      Carries conf msg ∧ msg.name.length = length) (ht : s.step io e = some t) :
    t.Kept conf length := by
  cases e with
  | callback c =>
    obtain ⟨m, hm, rfl⟩ := Option.map_eq_some_iff.mp ht
    exact ⟨h.module.handle (fun msg hmsg => hagrees msg (congrArg _ hmsg)) hm, h.names, h.traced⟩
  | loop =>
    obtain ⟨r, hr, rfl⟩ := Option.map_eq_some_iff.mp ht
    have hnames := h.names
    obtain ⟨_, rfl⟩ | ⟨_, rfl⟩ | ⟨name, rest, c, hloop, hc, rfl⟩ |
      ⟨name, rest, c, hloop, hc, rfl⟩ := ControlModule.loopStep_cases hr
    · exact ⟨h.module, fun name hname => h.module.current_known hconf hname, h.traced⟩
    · refine ⟨?_, (fun name hname => nomatch hname), h.traced⟩
      exact h.module.withOutput (o := ⟨s.module.jointOffsetMap, s.module.cmdMsg, _⟩)
        h.module.sound.sized
    · rw [hloop] at hnames
      have hfits := h.module.updateFits false (hnames name List.mem_cons_self)
      have hsuited := (h.module.suited name c hc).of_base (c.base_update io) (c.conf?_update io)
      exact ⟨h.module.set hc (hfits.built h.module.sound hc) hsuited, hnames, h.traced⟩
    · rw [hloop] at hnames
      have hfits := h.module.takeFits (hnames name List.mem_cons_self)
      have hsuited := (h.module.suited name c hc).of_base c.base_getJointCmdData
        c.conf?_getJointCmdData
      exact ⟨(h.module.set hc (hfits.built h.module.sound hc) hsuited).merge _,
        fun other hother => hnames other (List.mem_cons_of_mem name hother), h.traced⟩

theorem consistent_fits {firstEntry : List String → ℕ} {now : ℤ} {m : ControlModule K}
    (hm : ControlModule.initializeModule firstEntry now conf = some m)
    (hfixed : conf.FixedPolicies) (hconf : conf.Consistent) (tracing : Bool) {es : List (Event K)}
    (hagrees : ∀ msg, .callback (.jointState msg) ∈ es →
      Carries conf msg ∧ msg.name.length = length) :
    Along (step io) Fits (boot conf tracing m) es := by
  have hboot : (boot conf tracing m).Kept conf length := by
    refine ⟨ControlModule.kept_at_start hm hfixed hconf length, (fun _ h => nomatch h), ?_⟩
    cases tracing with
    | false => exact Nat.zero_le _
    | true => exact le_rfl
  have hfits : Along (step io) Fits (boot conf tracing m) es ↔
      Along (step io) (fun _ _ => True) (boot conf tracing m) es :=
    Runs.along_congr (Kept conf length)
      (fun e => ∀ msg, e = .callback (.jointState msg) →
        Carries conf msg ∧ msg.name.length = length)
      (fun s e h he => iff_true_intro (h.fits hconf he)) (fun s e t h he _ ht => h.step hconf he ht)
      hboot es fun e he msg heq => hagrees msg (heq ▸ he)
  exact hfits.mpr fun _ _ _ _ _ _ => trivial

section Standing
open Reception (walkConfig walk_initializes walker walkMode upright)

theorem walkConfig_fixedPolicies : walkConfig.FixedPolicies := by
  intro e he walk hwalk x y
  simp only [walkConfig, List.mem_cons, List.not_mem_nil, or_false] at he
  rcases he with rfl | rfl
  · cases hwalk
  · cases hwalk
    rfl

def wholeState (names : List String) : JointState ℚ :=
  ⟨names, zeros names.length, zeros names.length, zeros names.length⟩

theorem carries_wholeState {conf : Config ℚ} {names : List String}
    (h : ∀ joint ∈ conf.jointList, joint ∈ names) : Carries conf (wholeState names) :=
  ⟨h, List.length_replicate, List.length_replicate, List.length_replicate⟩

def walking : List (Event ℚ) :=
  [.callback (.jointState (wholeState ["knee"])), walkMode, .callback (.imu (.default ℚ)),
    .loop, .loop, .loop, .callback (.jointState (wholeState ["knee"])), .loop]

theorem walkConfig_consistent : walkConfig.Consistent where
  joints := by decide
  nodup := by decide
  controllers := by
    intro e he
    simp only [walkConfig, List.mem_cons, List.not_mem_nil, or_false] at he
    rcases he with rfl | rfl
    · exact ⟨le_rfl, le_rfl, le_rfl, fun walk hwalk => nomatch hwalk⟩
    · refine ⟨le_rfl, le_rfl, le_rfl, fun walk hwalk => ?_⟩
      cases hwalk
      exact ⟨rfl, rfl, le_rfl, fun _ => le_rfl⟩
  states := by decide

/-- Every run whose messages carry the listed joints stays within its arrays. -/
def SafeToRun (conf : Config ℚ) : Prop :=
  ∀ m, ControlModule.initializeModule (fun _ => 0) 0 conf = some m →
    ∀ es, (∀ msg, .callback (.jointState msg) ∈ es → Carries conf msg) →
      Along (step upright) (fun s e => AllValid (s.accesses upright e)) (boot conf false m) es

theorem not_safeToRun {conf : Config ℚ}
    (hinit : (ControlModule.initializeModule (fun _ => 0) 0 conf).isSome = true)
    (es : List (Event ℚ))
    (hcarries : ∀ msg, .callback (.jointState msg) ∈ es → Carries conf msg)
    (hguards : Runs.guardsHold (step upright) (fun s e => AllValid (s.accesses upright e))
      (boot conf false (Option.get _ hinit)) es = false) : ¬ SafeToRun conf := by
  intro h
  have hvalid := h _ (Option.some_get hinit).symm es hcarries
  rw [← Runs.guardsHold_iff, hguards] at hvalid
  cases hvalid

def standing (listed : List String) (stiffness : List ℚ) : Config ℚ where
  robotStates := [⟨"stand", "/stand_mode", [], listed⟩]
  controllers := [("pd_stand", ⟨["hip", "knee"], [0, 0], stiffness, [2, 2], none, none⟩)]
  jointList := ["hip", "knee"]
  jointOffset := []

end Standing

end Running
end MybipedalDeploy.Control
