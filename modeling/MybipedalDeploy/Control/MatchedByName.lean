import MybipedalDeploy.Control.JointStates

/-!
# The joint states by name

While every message carries the joints that matter at the same places, each controller
holds after it the entries for its joints, whatever happens between the messages. The
indices are taken once, so a message in another order is read at the old places.
-/

namespace MybipedalDeploy.Control
open Msg (JointCommand JointState)
open Runs (Run)

namespace ControlModule
variable {K : Type*}

section Wired
variable {conf : Config K} [Field K] {place : String → ℕ} {m n : ControlModule K}

theorem keys_mergeJoint (h : (m.jointOffsetMap.map Prod.fst).Nodup) (cmd : JointCommand K) (ii : ℕ)
    (name : String) : ((m.mergeJoint cmd ii name).jointOffsetMap.map Prod.fst).Nodup := by
  unfold ControlModule.mergeJoint
  dsimp only
  split_ifs with hsome
  · exact h
  · rw [List.map_append, List.map_singleton]
    refine h.append (List.nodup_singleton name) (List.disjoint_singleton.mpr ?_)
    rwa [AssociationList.lookup_isSome_iff_mem] at hsome

theorem Wired.mergeJoint (h : m.Wired conf place) (cmd : JointCommand K) (ii : ℕ) {name : String}
    (hname : name ∈ relevant conf) : (m.mergeJoint cmd ii name).Wired conf place := by
  have hextends := m.extends_mergeJoint cmd ii name
  refine ⟨h.shaped, h.present, h.configured, keys_mergeJoint h.keys cmd ii name, ?_, ?_, h.indices⟩
  · unfold ControlModule.mergeJoint
    dsimp only
    split_ifs with hsome
    · exact h.known
    · intro e he
      rcases List.mem_append.mp he with he | he
      · exact h.known e he
      · rw [List.mem_singleton.mp he]
        exact hname
  · intro other
    rw [hextends.offsets]
    exact h.offsets other

theorem Wired.merge (h : m.Wired conf place) {cmd : JointCommand K}
    (hcmd : ∀ joint ∈ cmd.name, joint ∈ relevant conf) : (m.merge cmd).Wired conf place := by
  unfold ControlModule.merge
  have hes : ∀ e ∈ cmd.name.zipIdx, e.1 ∈ relevant conf := fun e he =>
    hcmd e.1 (List.mem_of_getElem? (List.mem_zipIdx_iff_getElem?.mp he))
  generalize cmd.name.zipIdx = es at hes
  induction es generalizing m with
  | nil => exact h
  | cons e es ih =>
    exact ih (h.mergeJoint cmd e.2 (hes e List.mem_cons_self))
      fun e' he' => hes e' (List.mem_cons_of_mem e he')

theorem Wired.setController (h : m.Wired conf place) {name : String} {c c' : Controller K}
    (hc : m.controllerMap name = some c) (hbase : c'.base = c.base) :
    (m.setController name c').Wired conf place := by
  refine h.keep (sameWiring_frame.set m name c c' hc) (h.shaped.setController ?_ fun _ _ _ h => h)
  obtain ⟨node, hnode, hshaped⟩ := h.shaped name c hc
  exact ⟨node, hnode, hbase.symm ▸ hshaped⟩

theorem name_getJointCmdData (c : Controller K) :
    c.getJointCmdData.1.name = c.base.jointNames := by
  cases c <;> rfl

theorem Wired.forEach (h : m.Wired conf place) {f : Controller K → Controller K}
    (hf : ∀ c, AsConfigured conf c → AsConfigured conf (f c)) {names : List String}
    (hn : ControlModule.forEach f names m = some n) : n.Wired conf place :=
  h.keep (sameWiring_frame.forEach hn) (h.shaped.forEach (fun _ c hc => hf c hc) hn)

theorem Wired.trigger (h : m.Wired conf place) {now : ℤ} {topic : String}
    (hn : m.trigger now topic = some n) : n.Wired conf place := by
  refine h.keep (sameWiring_frame.trigger hn) (h.shaped.trigger (fun _ c hc => ?_) hn)
  obtain ⟨node, hnode, hshaped⟩ := hc
  exact ⟨node, hnode, by rwa [Controller.base_restartController]⟩

theorem Wired.handle (h : m.Wired conf place) {c : Reception.Callback K}
    (hfits : ∀ msg, c = .jointState msg → Fits conf place msg) (hn : m.handle c = some n) :
    n.Wired conf place := by
  cases c with
  | trigger now topic => exact h.trigger hn
  | cmdVel joy =>
    have hkeep := asConfigured_withBase conf (·.setCmdData joy) fun _ _ hb =>
      ⟨hb.names, hb.position, hb.velocity, hb.effort⟩
    exact h.forEach hkeep hn
  | imu imu =>
    have hkeep := asConfigured_withBase conf (·.setImuData imu) fun _ _ hb =>
      ⟨hb.names, hb.position, hb.velocity, hb.effort⟩
    exact h.forEach hkeep hn
  | jointState msg =>
    cases hn
    exact (onJointState_spec h (hfits msg rfl)).1

end Wired
end ControlModule

namespace Cycling
variable {K : Type*} [Field K] {conf : Config K} {place : String → ℕ}
open ControlModule (Wired Fits Matches)

theorem wired_step [LinearOrder K] {io : Platform K} {s t : Cycling K} {a : Action K}
    (h : s.module.Wired conf place)
    (hfits : ∀ msg, a = .callback (.jointState msg) → Fits conf place msg)
    (hstep : s.step io a = some t) : t.module.Wired conf place := by
  cases a with
  | wake active =>
    obtain ⟨_, rfl⟩ := wake_cases hstep
    exact h
  | loop =>
    obtain ⟨name, rest, c, _, hc, rfl⟩ | ⟨name, rest, c, _, hc, rfl⟩ | ⟨_, rfl⟩ := loop_cases hstep
    · exact h.setController hc (c.base_update io)
    · refine (h.setController hc c.base_getJointCmdData).merge fun joint hjoint => ?_
      obtain ⟨node, hnode, hshaped⟩ := h.shaped name c hc
      rw [ControlModule.name_getJointCmdData, hshaped.names] at hjoint
      exact ControlModule.mem_relevant_of_controller hnode hjoint
    · exact ⟨h.shaped, h.present, h.configured, h.keys, h.known, h.offsets, h.indices⟩
  | callback c =>
    obtain ⟨n, hn, rfl⟩ := Option.map_eq_some_iff.mp hstep
    exact h.handle (fun msg hmsg => hfits msg (by rw [hmsg])) hn

end Cycling

namespace ControlModule
variable {K : Type*} [Field K] {conf : Config K} {m : ControlModule K}

theorem keys_mapM {nodes : List (String × ControllerNode K)} {cs : List (String × Controller K)}
    (h : (nodes.mapM fun e => (Controller.make e.1 e.2).map fun c => (e.1, c)) = some cs) :
    cs.map Prod.fst = nodes.map Prod.fst := by
  induction nodes generalizing cs with
  | nil =>
    cases h
    rfl
  | cons e nodes ih =>
    rw [List.mapM_cons] at h
    obtain ⟨x, hx, h⟩ := Option.bind_eq_some_iff.mp h
    obtain ⟨xs, hxs, h⟩ := Option.bind_eq_some_iff.mp h
    obtain ⟨c, _, rfl⟩ := Option.map_eq_some_iff.mp hx
    cases h
    rw [List.map_cons, List.map_cons, ih hxs]

theorem present_at_start {firstEntry : List String → ℕ} {now : ℤ}
    (hm : initializeModule firstEntry now conf = some m) (name : String) :
    (name ∈ m.controllerNames ↔ (m.controllerMap name).isSome) ∧
      (name ∈ conf.controllers.map Prod.fst ↔ (m.controllerMap name).isSome) := by
  obtain ⟨machine, _, hm⟩ := Option.bind_eq_some_iff.mp hm
  obtain ⟨controllers, hmake, rfl⟩ := Option.map_eq_some_iff.mp hm
  have hpresent : (controllers.reverse.lookup name).isSome ↔
      name ∈ controllers.map Prod.fst := by
    rw [AssociationList.lookup_isSome_iff_mem, List.map_reverse, List.mem_reverse]
  rw [hpresent, ← keys_mapM hmake]
  simp

theorem wired_at_start {firstEntry : List String → ℕ} {now : ℤ} (place : String → ℕ)
    (hm : initializeModule firstEntry now conf = some m) (hne : conf.jointList ≠ [])
    (hkeys : (conf.jointOffset.map Prod.fst).Nodup) : m.Wired conf place := by
  have hshaped : m.Every fun _ c => AsConfigured conf c := by
    intro name c hc
    obtain ⟨node, hnode, hmake⟩ := made_at_start hm hc
    refine ⟨node, List.mem_map_of_mem hnode, ?_⟩
    rw [Controller.base_make hmake]
    constructor <;> simp [ControllerBase.new, zeros]
  have hpresent := present_at_start hm
  obtain ⟨machine, _, hm⟩ := Option.bind_eq_some_iff.mp hm
  obtain ⟨controllers, hmake, rfl⟩ := Option.map_eq_some_iff.mp hm
  refine ⟨hshaped, fun name => (hpresent name).1, fun e he => ?_, hkeys, fun e he => ?_,
    fun _ => rfl, .inl (unnoted_at_start hne)⟩
  · exact (hpresent e.1).2.mp (List.mem_map_of_mem he)
  · exact List.mem_append_right _ (List.mem_map_of_mem he)

end ControlModule

namespace Cycling
variable {K : Type*} [Field K] [LinearOrder K]
open ControlModule (Wired Fits Matches Carries)

/-- Whatever else happens between the messages. -/
theorem matched_by_name (io : Platform K) {firstEntry : List String → ℕ} {now : ℤ}
    {conf : Config K} {m : ControlModule K}
    (hm : ControlModule.initializeModule firstEntry now conf = some m)
    (hne : conf.jointList ≠ []) (hkeys : (conf.jointOffset.map Prod.fst).Nodup)
    (place : String → ℕ) {as : List (Action K)} {s t : Cycling K} {msg : JointState K}
    (hfits : ∀ msg', .callback (.jointState msg') ∈ as ++ [.callback (.jointState msg)] →
      Fits conf place msg')
    (h : Run (step io) (boot m) as s) (ht : s.step io (.callback (.jointState msg)) = some t) :
    Matches conf msg t.module := by
  have hwired : s.module.Wired conf place := by
    refine h.guarded (fun _ a => ∀ msg, a = .callback (.jointState msg) → Fits conf place msg)
      (fun _ s => s.module.Wired conf place) (ControlModule.wired_at_start place hm hne hkeys)
      (fun _ _ _ _ hs hG hstep => wired_step hs hG hstep) ?_
    rintro p a q s' rfl _ msg' rfl
    exact hfits msg' (by simp)
  cases ht
  exact (ControlModule.onJointState_spec hwired (hfits msg (by simp))).2

section Legs

def legs (listed joints : List String) (offsets : List (String × ℚ)) : Config ℚ :=
  { robotStates := [⟨"idle", "/idle_mode", ["idle"], ["pd_legs"]⟩]
    controllers := [("pd_legs", ⟨joints, [0, 0], [80, 80], [2, 2], none, none⟩)]
    jointList := listed
    jointOffset := offsets }

def legsConfig : Config ℚ := legs ["hip", "knee"] ["knee", "hip"] [("hip", 3)]

theorem legs_at_start (listed joints : List String) (offsets : List (String × ℚ)) :
    (ControlModule.initializeModule (fun _ => 0) 0 (legs listed joints offsets)).isSome = true := by
  have hpd : ("pd_legs".take 3).copy = "pd_" := by decide +kernel
  simp [ControlModule.initializeModule, legs, StateMachine.init, StateMachine.triggered,
    Controller.make, hpd]

theorem legs_initializes :
    (ControlModule.initializeModule (fun _ => 0) 0 legsConfig).isSome = true :=
  legs_at_start _ _ _

def legsModule : ControlModule ℚ :=
  (ControlModule.initializeModule (fun _ => 0) 0 legsConfig).get legs_initializes

def legState (names : List String) (hip knee : ℚ) : JointState ℚ :=
  ⟨names, [hip, knee], [hip, knee], [hip, knee]⟩

def legPlace (joint : String) : ℕ := if joint = "hip" then 0 else 1

theorem fits_legState (hip knee : ℚ) :
    Fits legsConfig legPlace (legState ["hip", "knee"] hip knee) where
  listed _ h := h
  placed := show ∀ joint ∈ ControlModule.relevant legsConfig,
    lastPlace ["hip", "knee"] joint = some (legPlace joint) by decide
  position := rfl
  velocity := rfl
  effort := rfl

def betweenMessages : List (Action ℚ) :=
  [.callback (.jointState (legState ["hip", "knee"] 1 2)), .wake ["pd_legs"], .loop, .loop, .loop]

def nextMessage : Action ℚ := .callback (.jointState (legState ["hip", "knee"] 5 6))

theorem betweenMessages_runs :
    (Runs.exec (step Reception.upright) (boot legsModule) betweenMessages).isSome = true := by
  decide +kernel

theorem nextMessage_runs :
    (((Runs.exec (step Reception.upright) (boot legsModule) betweenMessages).get
      betweenMessages_runs).step Reception.upright nextMessage).isSome = true := by
  decide +kernel

theorem matched_by_name_legs :
    Matches legsConfig (legState ["hip", "knee"] 5 6)
      ((((Runs.exec (step Reception.upright) (boot legsModule) betweenMessages).get
        betweenMessages_runs).step Reception.upright nextMessage).get nextMessage_runs).module := by
  refine matched_by_name Reception.upright (Option.some_get legs_initializes).symm (by decide)
    (by decide) legPlace ?_ (Runs.run_of_exec betweenMessages (Option.some_get _).symm)
    (Option.some_get nextMessage_runs).symm
  intro msg hmsg
  simp only [betweenMessages, List.cons_append, List.nil_append, List.mem_cons, List.not_mem_nil,
    or_false, reduceCtorEq, false_or, Action.callback.injEq,
    Reception.Callback.jointState.injEq] at hmsg
  rcases hmsg with rfl | rfl
  · exact fits_legState 1 2
  · exact fits_legState 5 6

theorem carries_legState {conf : Config ℚ} {names : List String}
    (hlisted : ∀ joint ∈ conf.jointList, joint ∈ names) (hlen : names.length = 2) (hip knee : ℚ) :
    Carries conf (legState names hip knee) :=
  ⟨hlisted, hlen.symm, hlen.symm, hlen.symm⟩

def MatchedInAnyOrder (conf : Config ℚ) : Prop :=
  ∀ m, ControlModule.initializeModule (fun _ => 0) 0 conf = some m →
    ∀ msgs msg, (∀ msg' ∈ msgs ++ [msg], Carries conf msg') →
      Matches conf msg ((msgs ++ [msg]).foldl ControlModule.onJointState m)

/-- A later message in another order; a controller's joint or an offset's joint that no
message carries; no listed joint at all. -/
theorem not_matched_in_any_order :
    ¬ MatchedInAnyOrder legsConfig ∧
    ¬ MatchedInAnyOrder (legs ["hip", "knee"] ["knee", "waist"] []) ∧
    ¬ MatchedInAnyOrder (legs ["hip", "knee"] ["knee", "hip"] [("waist", 1)]) ∧
    ¬ MatchedInAnyOrder (legs [] ["knee", "hip"] []) := by
  have hone (conf : Config ℚ) (h : ∀ joint ∈ conf.jointList, joint ∈ ["hip", "knee"]) :
      ∀ msg' ∈ [] ++ [legState ["hip", "knee"] 1 2], Carries conf msg' := by
    intro msg' hmsg'
    rw [List.mem_singleton.mp hmsg']
    exact carries_legState h rfl 1 2
  have htwo : ∀ msg' ∈ [legState ["hip", "knee"] 1 2] ++ [legState ["knee", "hip"] 3 4],
      Carries legsConfig msg' := by
    intro msg' hmsg'
    rcases List.mem_cons.mp hmsg' with rfl | hmsg'
    · exact carries_legState (by decide) rfl 1 2
    · rw [List.mem_singleton.mp hmsg']
      exact carries_legState (by decide) rfl 3 4
  refine ⟨fun h => ?_, fun h => ?_, fun h => ?_, fun h => ?_⟩
  · have heq := (h _ (Option.some_get legs_initializes).symm _ _ htwo).entry_eq (.head _)
      ["knee", "hip"] (by decide +kernel) 0 rfl
    revert heq
    decide +kernel
  · have heq := (h _ (Option.some_get (legs_at_start _ _ _)).symm _ _ (hone _ (by decide))).entry_eq
      (.head _) ["knee", "waist"] (by decide +kernel) 1 rfl
    revert heq
    decide +kernel
  · have heq := (h _ (Option.some_get (legs_at_start _ _ _)).symm _ _ (hone _ (by decide))).entry_eq
      (.head _) ["knee", "hip"] (by decide +kernel) 0 rfl
    revert heq
    decide +kernel
  · have heq := (h _ (Option.some_get (legs_at_start _ _ _)).symm _ _ (hone _ (by decide))).entry_eq
      (.head _) ["knee", "hip"] (by decide +kernel) 0 rfl
    revert heq
    decide +kernel

end Legs

end Cycling
end MybipedalDeploy.Control
