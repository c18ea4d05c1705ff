import MybipedalDeploy.Control.MatchedByName

/-!
# Offsets are transparent

Two modules in lock step: one knows the offsets of the joints and measures angles that
are higher by them, the other has zero offsets. While each joint of an offset stands at
its noted index, the controllers are the same and the commands differ by the offsets.
-/

namespace MybipedalDeploy.Control
open Msg (JointState JointCommand)
open LastWrite (lastHit)
open Runs (Along exec)

def zeroed {K : Type*} [Zero K] (offsets : List (String × K)) : List (String × K) :=
  offsets.map fun e => (e.1, 0)

theorem lookup_zeroed {K : Type*} [Zero K] (offsets : List (String × K)) (name : String) :
    (zeroed offsets).lookup name = (offsets.lookup name).map fun _ => 0 :=
  AssociationList.lookup_mapValues offsets (fun _ _ => 0) name

theorem length_writeAt {K : Type*} (v : List K) (i : ℤ) (x : K) :
    (writeAt v i x).length = v.length := by
  unfold writeAt
  split_ifs
  · exact List.length_set
  · rfl

def Config.withoutOffsets {K : Type*} [Zero K] (conf : Config K) : Config K :=
  { conf with jointOffset := zeroed conf.jointOffset }

def offsetAt {K : Type*} [Zero K] (offsets : List (String × K)) (name : Option String) : K :=
  ((name.bind fun name => offsets.lookup name)).getD 0

/-- The angles of the message are measured higher by the offsets of their joints. -/
def raise {K : Type*} [Zero K] [Add K] (offsets : List (String × K)) (msg : JointState K) :
    JointState K :=
  { msg with position := msg.position.mapIdx fun i x => x + offsetAt offsets msg.name[i]? }

def Reception.Callback.raised {K : Type*} [Zero K] [Add K] (offsets : List (String × K)) :
    Reception.Callback K → Reception.Callback K
  | .jointState msg => .jointState (raise offsets msg)
  | c => c

structure Output (K : Type*) where
  jointOffsetMap : List (String × K)
  cmdMsg : JointCommand K
  published : List (JointCommand K)

namespace ControlModule
variable {K : Type*}

def withOutput (o : Output K) (m : ControlModule K) : ControlModule K :=
  { m with jointOffsetMap := o.jointOffsetMap, cmdMsg := o.cmdMsg, published := o.published }

section Callbacks
variable (o : Output K) (m : ControlModule K)

@[simp] theorem controllerMap_withOutput : (m.withOutput o).controllerMap = m.controllerMap := rfl

theorem withController_withOutput (name : String) (f : Controller K → Controller K) :
    (m.withOutput o).withController name f = (m.withController name f).map (withOutput o) := by
  unfold withController
  rw [Option.map_map]
  rfl

theorem forEach_withOutput (f : Controller K → Controller K) (names : List String) :
    forEach f names (m.withOutput o) = (forEach f names m).map (withOutput o) := by
  induction names generalizing m with
  | nil => rfl
  | cons name names ih =>
    simp only [forEach, withController_withOutput]
    cases m.withController name f with
    | none => rfl
    | some n => exact ih n

theorem onTrigger_withOutput (now : ℤ) (topic : String) :
    (m.withOutput o).onTrigger now topic =
      ((m.onTrigger now topic).1.withOutput o, (m.onTrigger now topic).2) := by
  by_cases hears : topic ∈ m.triggerTopics ∧ throttler now m.lastTriggerTime
  · cases hevent : m.stateMachine.onEvent topic with
    | none => simp [onTrigger, withOutput, hears, hevent]
    | some machine => simp [onTrigger, withOutput, hears, hevent]
  · simp [onTrigger, withOutput, hears]

theorem trigger_withOutput [Zero K] (now : ℤ) (topic : String) :
    (m.withOutput o).trigger now topic = (m.trigger now topic).map (withOutput o) := by
  rw [trigger_eq, trigger_eq, onTrigger_withOutput]
  exact forEach_withOutput o _ _ _

theorem noteIndices_withOutput (msg : JointState K) :
    (m.withOutput o).noteIndices msg = (m.noteIndices msg).withOutput o := by
  unfold noteIndices
  dsimp only
  rw [apply_ite (withOutput o)]
  rfl

variable [Field K]

theorem forwardJointState_withOutput (msg : JointState K) (names : List String) :
    forwardJointState msg names (m.withOutput o) =
      (forwardJointState msg names m).withOutput o := by
  induction names generalizing m with
  | nil => rfl
  | cons name names ih =>
    simp only [forwardJointState, controllerMap_withOutput]
    cases m.controllerMap name with
    | none => rfl
    | some c =>
      dsimp only
      split_ifs with hall hall' hall'
      · exact ih (m.setController name
          (c.withBase fun _ => (c.base.setJointStateData msg m.jointStateIndexMap).2))
      · exact absurd hall hall'
      · exact absurd hall' hall
      · rfl

end Callbacks

section Subtract
variable [Field K]

def Placed (indices : IndexMap) (msg : JointState K) (offsets : List (String × K)) : Prop :=
  ∀ e ∈ offsets, e.2 ≠ 0 → ∀ i < msg.position.length,
    msg.name[i]? = some e.1 ↔ indices.at? e.1 = some (i : ℤ)

instance [DecidableEq K] (indices : IndexMap) (msg : JointState K) (offsets : List (String × K)) :
    Decidable (Placed indices msg offsets) := by
  unfold Placed
  infer_instance

structure Raised (offsets : List (String × K)) (msg msg' : JointState K) : Prop where
  name : msg.name = msg'.name
  velocity : msg.velocity = msg'.velocity
  effort : msg.effort = msg'.effort
  length : msg.position.length = msg'.position.length
  position : ∀ i < msg.position.length, msg.position.getD i 0 =
    msg'.position.getD i 0 + offsetAt offsets msg.name[i]?

theorem raised_raise (offsets : List (String × K)) (msg : JointState K) :
    Raised offsets (raise offsets msg) msg where
  name := rfl
  velocity := rfl
  effort := rfl
  length := by simp [raise]
  position i hi := by
    have hlt : i < msg.position.length := by simpa [raise] using hi
    simp [raise, hlt]

def subtractOne (indices : IndexMap) (msg : JointState K) (e : String × K) :
    Option (JointState K) :=
  (indices.at? e.1).map fun i =>
    { msg with position := writeAt msg.position i (readAt msg.position i - e.2) }

theorem subtractOffsets_eq (m : ControlModule K) (msg : JointState K) :
    m.subtractOffsets msg = m.jointOffsetMap.foldlM (subtractOne m.jointStateIndexMap) msg := rfl

theorem Raised.eq_of_nil {msg msg' : JointState K} (h : Raised [] msg msg') : msg = msg' := by
  have hposition : msg.position = msg'.position := by
    apply List.ext_getElem h.length
    intro i hi hi'
    have hat := h.position i hi
    cases hname : msg.name[i]? with
    | none => simpa [offsetAt, hname, hi, hi'] using hat
    | some name => simpa [offsetAt, hname, hi, hi'] using hat
  cases msg
  cases msg'
  simp only [JointState.mk.injEq]
  exact ⟨h.name, hposition, h.velocity, h.effort⟩

theorem offsetAt_cons {key : String} {es : List (String × K)} (h : key ∉ es.map Prod.fst) (x : K)
    (name : Option String) :
    offsetAt ((key, x) :: es) name = (if name = some key then x else 0) + offsetAt es name := by
  unfold offsetAt
  cases name with
  | none => simp
  | some name =>
    by_cases hname : name = key
    · have hnone : es.lookup key = none := by
        rw [← Option.not_isSome_iff_eq_none, AssociationList.lookup_isSome_iff_mem]
        exact h
      simp [hname, hnone]
    · have hbeq : (name == key) = false := by simpa using hname
      simp [hname, List.lookup_cons, hbeq]

theorem getD_writeAt {v : List K} {k : ℕ} (hk : k < v.length) (i : ℤ) (x : K) :
    (writeAt v i x).getD k 0 = if i = k then x else v.getD k 0 := by
  unfold writeAt
  by_cases hi : 0 ≤ i
  · rw [if_pos hi, getD_set hk]
    have hsame : i.toNat = k ↔ i = k := by omega
    simp only [hsame]
  · have hne : i ≠ k := by omega
    rw [if_neg hi, if_neg hne]

theorem readAt_natCast (v : List K) (k : ℕ) : readAt v k = v.getD k 0 := by
  simp [readAt]

theorem Raised.subtractOne {indices : IndexMap} {key : String} {x : K} {es : List (String × K)}
    {msg msg' : JointState K} (h : Raised ((key, x) :: es) msg msg')
    (hkey : key ∉ es.map Prod.fst) (hplaced : Placed indices msg [(key, x)]) :
    Option.Rel (Raised es) (subtractOne indices msg (key, x))
      (subtractOne indices msg' (key, 0)) := by
  unfold ControlModule.subtractOne
  cases hat : indices.at? key with
  | none => exact .none
  | some j =>
    refine .some ⟨h.name, h.velocity, h.effort, ?_, fun k hk => ?_⟩
    · simp only [length_writeAt, h.length]
    · have hlt : k < msg.position.length := by simpa only [length_writeAt] using hk
      have hlt' : k < msg'.position.length := h.length ▸ hlt
      have hposition := h.position k hlt
      rw [offsetAt_cons hkey] at hposition
      have hstands : x ≠ 0 → (msg.name[k]? = some key ↔ j = k) := by
        intro hx
        rw [hplaced (key, x) List.mem_cons_self hx k hlt, hat]
        exact Option.some_inj
      dsimp only
      rw [getD_writeAt hlt, getD_writeAt hlt']
      by_cases hx : x = 0
      · subst hx
        have hzero : (if msg.name[k]? = some key then (0 : K) else 0) = 0 := ite_self 0
        rw [hzero, zero_add] at hposition
        split_ifs with hj
        · rw [hj, readAt_natCast, readAt_natCast, sub_zero, sub_zero, hposition]
        · exact hposition
      · by_cases hj : j = k
        · rw [if_pos ((hstands hx).mpr hj)] at hposition
          rw [if_pos hj, if_pos hj, hj, readAt_natCast, readAt_natCast, hposition]
          ring
        · rw [if_neg fun hname => hj ((hstands hx).mp hname), zero_add] at hposition
          rw [if_neg hj, if_neg hj, hposition]

theorem foldlM_subtractOne {indices : IndexMap} {es : List (String × K)} {msg msg' : JointState K}
    (h : Raised es msg msg') (hkeys : (es.map Prod.fst).Nodup) (hplaced : Placed indices msg es) :
    es.foldlM (subtractOne indices) msg = (zeroed es).foldlM (subtractOne indices) msg' := by
  induction es generalizing msg msg' with
  | nil => rw [h.eq_of_nil]; rfl
  | cons e es ih =>
    obtain ⟨key, x⟩ := e
    obtain ⟨hkey, hkeys⟩ := List.nodup_cons.mp hkeys
    have hfirst : Placed indices msg [(key, x)] := by
      intro e he
      exact hplaced e (List.mem_singleton.mp he ▸ List.mem_cons_self)
    have hrel := h.subtractOne hkey hfirst
    have hkeeps : ∀ msg₁, subtractOne indices msg (key, x) = some msg₁ →
        msg₁.name = msg.name ∧ msg₁.position.length = msg.position.length := by
      intro msg₁ hmsg₁
      obtain ⟨i, _, rfl⟩ := Option.map_eq_some_iff.mp hmsg₁
      exact ⟨rfl, length_writeAt _ _ _⟩
    simp only [zeroed, List.map_cons, List.foldlM_cons]
    generalize subtractOne indices msg (key, x) = u at hrel hkeeps
    generalize subtractOne indices msg' (key, 0) = v at hrel
    cases hrel with
    | none => rfl
    | some hraised =>
      obtain ⟨hname, hlength⟩ := hkeeps _ rfl
      apply ih hraised hkeys
      intro e he hx i hi
      rw [hname]
      exact hplaced e (List.mem_cons_of_mem _ he) hx i (hlength ▸ hi)

theorem Raised.congr {offsets offsets' : List (String × K)} {msg msg' : JointState K}
    (h : Raised offsets msg msg')
    (hsame : ∀ name, (offsets'.lookup name).getD 0 = (offsets.lookup name).getD 0) :
    Raised offsets' msg msg' where
  name := h.name
  velocity := h.velocity
  effort := h.effort
  length := h.length
  position i hi := by
    have hat : offsetAt offsets' msg.name[i]? = offsetAt offsets msg.name[i]? := by
      cases msg.name[i]? with
      | none => rfl
      | some name => exact hsame name
    rw [hat]
    exact h.position i hi

end Subtract

section Twin
variable [Field K] {m n : ControlModule K}

/-- The same module with zero offsets, and what it made with them. -/
def Twin (m n : ControlModule K) : Prop :=
  ∃ o : Output K, o.jointOffsetMap = zeroed m.jointOffsetMap ∧ n = m.withOutput o

theorem Twin.onJointState (h : Twin m n) (hkeys : (m.jointOffsetMap.map Prod.fst).Nodup)
    {msg msg' : JointState K} (hraised : Raised m.jointOffsetMap msg msg')
    (hplaced : Placed (m.noteIndices msg).jointStateIndexMap msg m.jointOffsetMap) :
    Twin (m.onJointState msg) (n.onJointState msg') := by
  obtain ⟨o, ho, rfl⟩ := h
  have hnote : m.noteIndices msg' = m.noteIndices msg := by
    unfold noteIndices
    rw [hraised.name]
  have hoffsets := (sameWiring_of_note m msg).2.2
  have hsame : ((m.withOutput o).noteIndices msg').subtractOffsets msg' =
      (m.noteIndices msg).subtractOffsets msg := by
    rw [noteIndices_withOutput, hnote, subtractOffsets_eq, subtractOffsets_eq, hoffsets,
      foldlM_subtractOne hraised hkeys hplaced, ← ho]
    rfl
  have hkeeps : (m.onJointState msg).jointOffsetMap = m.jointOffsetMap := by
    refine (sameOutput_handle (c := .jointState msg) rfl).offsets
  refine ⟨o, by rw [hkeeps, ho], ?_⟩
  unfold ControlModule.onJointState
  dsimp only
  rw [hsame, noteIndices_withOutput, hnote]
  cases (m.noteIndices msg).subtractOffsets msg with
  | none => rfl
  | some msg => exact forwardJointState_withOutput o _ msg _

def Places (m : ControlModule K) : Reception.Callback K → Prop
  | .jointState msg => Placed (m.noteIndices msg).jointStateIndexMap msg m.jointOffsetMap
  | _ => True

instance [DecidableEq K] (c : Reception.Callback K) : Decidable (m.Places c) := by
  unfold Places
  split <;> infer_instance

theorem Twin.of_map {o : Output K} (ho : o.jointOffsetMap = zeroed m.jointOffsetMap)
    {c : Reception.Callback K} (hn : n.handle c = (m.handle c).map (withOutput o)) :
    Option.Rel Twin (m.handle c) (n.handle c) := by
  rw [hn]
  cases hu : m.handle c with
  | none => exact .none
  | some m' => exact .some ⟨o, by rw [(sameOutput_handle hu).offsets, ho], rfl⟩

theorem Twin.handle (h : Twin m n) (hkeys : (m.jointOffsetMap.map Prod.fst).Nodup)
    {offsets : List (String × K)}
    (hoffsets : ∀ name, m.offsetOf name = (offsets.lookup name).getD 0)
    (c : Reception.Callback K) (hplaces : m.Places (c.raised offsets)) :
    Option.Rel Twin (m.handle (c.raised offsets)) (n.handle c) := by
  obtain ⟨o, ho, rfl⟩ := h
  cases c with
  | trigger now topic =>
    exact Twin.of_map (c := .trigger now topic) ho (trigger_withOutput o m now topic)
  | cmdVel joy =>
    exact Twin.of_map (c := .cmdVel joy) ho (forEach_withOutput o m _ m.currentControllers)
  | imu imu =>
    exact Twin.of_map (c := .imu imu) ho (forEach_withOutput o m _ m.currentControllers)
  | jointState msg =>
    have hraised := (raised_raise offsets msg).congr hoffsets
    exact .some (Twin.onJointState ⟨o, ho, rfl⟩ hkeys hraised hplaces)

theorem Twin.mergeJoint (h : Twin m n) (cmd : JointCommand K) (ii : ℕ) (name : String) :
    Twin (m.mergeJoint cmd ii name) (n.mergeJoint cmd ii name) := by
  obtain ⟨o, ho, rfl⟩ := h
  refine ⟨⟨((m.withOutput o).mergeJoint cmd ii name).jointOffsetMap,
    ((m.withOutput o).mergeJoint cmd ii name).cmdMsg, o.published⟩, ?_, rfl⟩
  simp only [ControlModule.mergeJoint, withOutput, ho, lookup_zeroed, Option.isSome_map]
  split_ifs
  · rfl
  · simp [zeroed]

theorem Twin.merge (h : Twin m n) (cmd : JointCommand K) : Twin (m.merge cmd) (n.merge cmd) := by
  unfold ControlModule.merge
  induction cmd.name.zipIdx generalizing m n with
  | nil => exact h
  | cons e es ih => exact ih (h.mergeJoint cmd e.2 e.1)

theorem keys_merge (h : (m.jointOffsetMap.map Prod.fst).Nodup) (cmd : JointCommand K) :
    ((m.merge cmd).jointOffsetMap.map Prod.fst).Nodup :=
  Runs.foldl_invariant (mergeIndexed cmd) (fun m => (m.jointOffsetMap.map Prod.fst).Nodup) h
    (fun _ e h => keys_mergeJoint h cmd e.2 e.1) cmd.name.zipIdx

end Twin
end ControlModule

/-- Two cycles that took the same commands, and published each driven joint with its
offset in the first. -/
structure Cycle.Shifted {K : Type*} [Field K] (m : ControlModule K) (c d : Cycle K) : Prop where
  active : d.active = c.active
  taken : d.taken = c.taken
  slots : ∀ e ∈ Cycle.allEntries c.taken, m.slotOf e.name < c.published.name.length →
    Slot.of c.published (m.slotOf e.name) = (Slot.of d.published (m.slotOf e.name)).shift
      (m.offsetOf (Slot.of d.published (m.slotOf e.name)).name)

namespace Cycling
variable {K : Type*} [Field K]
open ControlModule (Twin Carries)

def Action.raised (offsets : List (String × K)) : Action K → Action K
  | .callback c => .callback (c.raised offsets)
  | a => a

def Places (s : Cycling K) : Action K → Prop
  | .callback c => s.module.Places c
  | _ => True

instance [DecidableEq K] (s : Cycling K) : (a : Action K) → Decidable (s.Places a)
  | .wake _ => .isTrue trivial
  | .loop => .isTrue trivial
  | .callback c => inferInstanceAs (Decidable (s.module.Places c))

/-- Equal controllers, and cycle by cycle the same commands but for the offsets. -/
structure Transparent (m : ControlModule K) (s t : Cycling K) : Prop where
  controllers : t.module.controllerMap = s.module.controllerMap
  cycles : List.Forall₂ (Cycle.Shifted m) s.cycles t.cycles

structure Twins (m : ControlModule K) (s t : Cycling K) : Prop where
  module : Twin s.module t.module
  loop : t.loop = s.loop
  active : t.active = s.active
  taken : t.taken = s.taken
  keys : (s.module.jointOffsetMap.map Prod.fst).Nodup
  cycles : List.Forall₂ (Cycle.Shifted m) s.cycles t.cycles

variable {m n : ControlModule K} {size : ℕ} {s t : Cycling K}

theorem Twins.controllerMap (h : Twins m s t) :
    t.module.controllerMap = s.module.controllerMap := by
  obtain ⟨o, _, ht⟩ := h.module
  rw [ht]
  rfl

theorem Twins.shifted (h : Twins m s t) (hs : s.Inv m size) (ht : t.Inv n size) (hmn : Twin m n) :
    Cycle.Shifted m ⟨s.active, s.taken, s.base, s.module.cmdMsg⟩
      ⟨t.active, t.taken, t.base, t.module.cmdMsg⟩ where
  active := h.active
  taken := h.taken
  slots e he hlt := by
    have hsize : m.slotOf e.name < size := (hs.keeps.sized size hs.sized).name ▸ hlt
    have hlanding : n.landing (m.slotOf e.name) = m.landing (m.slotOf e.name) := by
      obtain ⟨o, _, rfl⟩ := hmn
      rfl
    have hzero (name : String) : n.offsetOf name = 0 := by
      obtain ⟨o, ho, rfl⟩ := hmn
      have hlookup : (m.withOutput o).jointOffsetMap.lookup name = _ :=
        (congrArg (List.lookup name) ho).trans (lookup_zeroed _ _)
      unfold ControlModule.offsetOf
      rw [hlookup]
      cases m.jointOffsetMap.lookup name <;> rfl
    have hshift (e : Slot K) : e.shift 0 = e := by simp [Slot.shift]
    have hslot := hs.slots _ hsize
    have hslot' := ht.slots _ hsize
    rw [hlanding, h.taken] at hslot'
    cases hlast : lastHit (m.landing (m.slotOf e.name)) (Cycle.allEntries s.taken) with
    | none =>
      have hmiss := (LastWrite.lastHit_eq_none_iff _).mp hlast e he
      rw [ControlModule.landing_of_slotOf rfl] at hmiss
      cases hmiss
    | some e' =>
      simp only [hlast, Option.map_some, Option.getD_some, hzero, hshift] at hslot hslot'
      dsimp only
      rw [hslot, hslot']

theorem twin_at_start {firstEntry : List String → ℕ} {now : ℤ} {conf : Config K}
    (hm : ControlModule.initializeModule firstEntry now conf = some m) :
    m.jointOffsetMap = conf.jointOffset ∧
      ControlModule.Sized conf.jointList.dedup.length m.cmdMsg ∧
      ControlModule.initializeModule firstEntry now conf.withoutOffsets =
        some (m.withOutput ⟨zeroed conf.jointOffset, m.cmdMsg, m.published⟩) := by
  obtain ⟨machine, hmachine, hm⟩ := Option.bind_eq_some_iff.mp hm
  obtain ⟨controllers, hmake, rfl⟩ := Option.map_eq_some_iff.mp hm
  refine ⟨rfl, by constructor <;> simp [zeros], ?_⟩
  unfold ControlModule.initializeModule
  dsimp only [Config.withoutOffsets]
  rw [hmachine, Option.bind_some, hmake]
  rfl

variable [LinearOrder K] {io : Platform K}

theorem step_publish (hloop : s.loop = .update []) :
    s.step io .loop = some { s with
      loop := .sleep
      module := s.module.publish
      taken := []
      base := s.module.cmdMsg
      cycles := s.cycles ++ [⟨s.active, s.taken, s.base, s.module.cmdMsg⟩] } := by
  simp [step, hloop, ControlModule.loopStep, record]

theorem step_update {name : String} {rest : List String} (hloop : s.loop = .update (name :: rest)) :
    s.step io .loop = (s.module.controllerMap name).map fun c =>
      { s with loop := .take name rest, module := s.module.setController name (c.update io) } := by
  simp only [step, hloop, ControlModule.loopStep, ControlModule.updateController,
    ControlModule.withController, Option.map_map, record]
  rfl

theorem step_take {name : String} {rest : List String} (hloop : s.loop = .take name rest) :
    s.step io .loop = (s.module.controllerMap name).map fun c =>
      { s with
        loop := .update rest
        module := (s.module.setController name c.getJointCmdData.2).merge c.getJointCmdData.1
        taken := s.taken ++ [(name, c.getJointCmdData.1)] } := by
  cases hc : s.module.controllerMap name with
  | none => simp [step, hloop, ControlModule.loopStep, ControlModule.takeCommand, hc]
  | some c => simp [step, hloop, ControlModule.loopStep, ControlModule.takeCommand, hc, record]

theorem Twins.loop_step (h : Twins m s t) (hs : s.Inv m size) (ht : t.Inv n size) (hmn : Twin m n) :
    Option.Rel (Twins m) (s.step io .loop) (t.step io .loop) := by
  have hset (name : String) (c : Controller K) :
      Twin (s.module.setController name c) (t.module.setController name c) := by
    obtain ⟨o, ho, ht⟩ := h.module
    rw [ht]
    exact ⟨o, ho, rfl⟩
  cases hloop : s.loop with
  | sleep =>
    have hloop' := h.loop.trans hloop
    simp only [step, hloop, hloop']
    exact .none
  | update names =>
    cases names with
    | nil =>
      rw [step_publish hloop, step_publish (h.loop.trans hloop)]
      obtain ⟨o, ho, hmodule⟩ := h.module
      refine .some ⟨⟨⟨o.jointOffsetMap, o.cmdMsg, o.published ++ [o.cmdMsg]⟩, ho, ?_⟩,
        rfl, h.active, rfl, h.keys, ?_⟩
      · rw [hmodule]
        rfl
      · exact List.rel_append h.cycles (.cons (h.shifted hs ht hmn) .nil)
    | cons name rest =>
      rw [step_update hloop, step_update (h.loop.trans hloop), h.controllerMap]
      cases s.module.controllerMap name with
      | none => exact .none
      | some c => exact .some ⟨hset name _, rfl, h.active, h.taken, h.keys, h.cycles⟩
  | take name rest =>
    rw [step_take hloop, step_take (h.loop.trans hloop), h.controllerMap]
    cases s.module.controllerMap name with
    | none => exact .none
    | some c =>
      exact .some ⟨(hset name _).merge _, rfl, h.active, congrArg (· ++ _) h.taken,
        ControlModule.keys_merge (m := s.module.setController name _) h.keys _, h.cycles⟩

theorem Twins.step (h : Twins m s t) (hs : s.Inv m size) (ht : t.Inv n size) (hmn : Twin m n)
    {offsets : List (String × K)} (hoffsets : ∀ name, m.offsetOf name = (offsets.lookup name).getD 0)
    (a : Action K) (hplaces : s.Places (a.raised offsets)) :
    Option.Rel (Twins m) (s.step io (a.raised offsets)) (t.step io a) := by
  cases a with
  | wake active =>
    have hloop := h.loop
    simp only [Action.raised, Cycling.step, hloop]
    cases s.loop with
    | sleep => exact .some ⟨h.module, rfl, rfl, h.taken, h.keys, h.cycles⟩
    | update names => exact .none
    | take name rest => exact .none
  | loop => exact h.loop_step hs ht hmn
  | callback c =>
    have hkept (name : String) := (hs.keeps.offsets name).trans (hoffsets name)
    have hrel := h.module.handle h.keys hkept c hplaces
    have hkeeps : ∀ m', s.module.handle (c.raised offsets) = some m' →
        m'.jointOffsetMap = s.module.jointOffsetMap :=
      fun m' hm' => (ControlModule.sameOutput_handle hm').offsets
    simp only [Action.raised, Cycling.step]
    generalize s.module.handle (c.raised offsets) = u at hrel hkeeps
    generalize t.module.handle c = v at hrel
    cases hrel with
    | none => exact .none
    | some htwin =>
      exact .some ⟨htwin, h.loop, h.active, h.taken, hkeeps _ rfl ▸ h.keys, h.cycles⟩

def Paired (m n : ControlModule K) (size : ℕ) (s t : Cycling K) : Prop :=
  Twins m s t ∧ s.Inv m size ∧ t.Inv n size

theorem Paired.step (h : Paired m n size s t) (hmn : Twin m n) {offsets : List (String × K)}
    (hoffsets : ∀ name, m.offsetOf name = (offsets.lookup name).getD 0) (a : Action K)
    (hplaces : s.Places (a.raised offsets)) :
    Option.Rel (Paired m n size) (s.step io (a.raised offsets)) (t.step io a) := by
  obtain ⟨h, hs, ht⟩ := h
  have hstep : Option.Rel _ (s.step io _) (t.step io _) := h.step hs ht hmn hoffsets a hplaces
  have hleft (s' : Cycling K) (hu : s.step io (a.raised offsets) = some s') := inv_step hs hu
  have hright (t' : Cycling K) (hv : t.step io a = some t') := inv_step ht hv
  generalize s.step io (a.raised offsets) = u at hstep hleft
  generalize t.step io a = v at hstep hright
  cases hstep with
  | none => exact .none
  | some h' => exact .some ⟨h', hleft _ rfl, hright _ rfl⟩

def TransparentInAnyOrder (conf : Config ℚ) : Prop :=
  ∀ m n, ControlModule.initializeModule (fun _ => 0) 0 conf = some m →
    ControlModule.initializeModule (fun _ => 0) 0 conf.withoutOffsets = some n →
    ∀ as, (∀ msg, .callback (.jointState msg) ∈ as → Carries conf msg) →
      Option.Rel (Transparent m)
        (exec (step Reception.upright) (boot m) (as.map (Action.raised conf.jointOffset)))
        (exec (step Reception.upright) (boot n) as)

def reordered : List (Action ℚ) :=
  [.callback (.jointState (legState ["hip", "knee"] 1 2)),
    .callback (.jointState (legState ["knee", "hip"] 3 4))]

theorem legs_without_initializes :
    (ControlModule.initializeModule (fun _ => 0) 0 legsConfig.withoutOffsets).isSome = true :=
  legs_at_start _ _ _

end Cycling
end MybipedalDeploy.Control
