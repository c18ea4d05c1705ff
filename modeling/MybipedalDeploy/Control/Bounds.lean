import MybipedalDeploy.Control.Accesses
import MybipedalDeploy.Control.Offsets

/-!
# Whether a configuration is safe to run

`Initialize` compares no sizes and no names. A run stays within its arrays and calls only
controllers that exist exactly if each controller a step uses is configured with sizes
that fit, each slot of the command is there, and each joint that is looked up stands
within the message.
-/

namespace MybipedalDeploy.Control
open Msg (JointCommand JointState)
open Access (AllValid)
open Runs (Along)

def Config.FixedPolicies {K : Type*} (conf : Config K) : Prop :=
  ∀ e ∈ conf.controllers, ∀ walk, e.2.walk = some walk →
    ∀ x y, (walk.policy x).length = (walk.policy y).length

namespace IndexMap

def lookups (indices : IndexMap) : List String → List ℤ
  | [] => []
  | name :: names =>
    match indices.at? name with
    | none => []
    | some i => i :: lookups indices names

def Known (indices : IndexMap) (names : List String) : Prop :=
  ∀ name ∈ names, (indices.at? name).isSome

def Within (indices : IndexMap) (names : List String) (size : ℕ) : Prop :=
  ∀ i ∈ indices.lookups names, 0 ≤ i ∧ i < size

variable {indices : IndexMap} {size : ℕ}

theorem lookups_append {names : List String} (h : indices.Known names) (more : List String) :
    indices.lookups (names ++ more) = indices.lookups names ++ indices.lookups more := by
  induction names with
  | nil => rfl
  | cons name names ih =>
    obtain ⟨i, hi⟩ := Option.isSome_iff_exists.mp (h name List.mem_cons_self)
    simp only [List.cons_append, lookups, hi]
    exact congrArg _ (ih fun n hn => h n (List.mem_cons_of_mem name hn))

theorem lookups_append_of_unknown {names : List String} (h : ¬ indices.Known names)
    (more : List String) : indices.lookups (names ++ more) = indices.lookups names := by
  induction names with
  | nil => exact absurd (fun _ hn => nomatch hn) h
  | cons name names ih =>
    simp only [List.cons_append, lookups]
    cases hi : indices.at? name with
    | none => rfl
    | some i =>
      refine congrArg _ (ih fun hknown => h fun n hn => ?_)
      rcases List.mem_cons.mp hn with rfl | hn
      · rw [hi]
        rfl
      · exact hknown n hn

theorem within_append {names : List String} (h : indices.Known names) (more : List String) :
    indices.Within (names ++ more) size ↔ indices.Within names size ∧ indices.Within more size := by
  unfold Within
  rw [lookups_append h]
  exact List.forall_mem_append

theorem within_append_of_unknown {names : List String} (h : ¬ indices.Known names)
    (more : List String) :
    indices.Within (names ++ more) size ↔ indices.Within names size := by
  unfold Within
  rw [lookups_append_of_unknown h]

theorem within_cons_of_unknown {name : String} (hi : indices.at? name = none)
    (names : List String) : indices.Within (name :: names) size := by
  intro i hmem
  simp only [lookups, hi] at hmem
  cases hmem

theorem within_cons {name : String} {i : ℤ} (hi : indices.at? name = some i)
    (names : List String) :
    indices.Within (name :: names) size ↔ (0 ≤ i ∧ i < size) ∧ indices.Within names size := by
  unfold Within
  simp only [lookups, hi]
  exact List.forall_mem_cons

end IndexMap

namespace ControllerBase
variable {K : Type*}

def storeAccesses (msg data : JointState K) (indices : IndexMap) :
    List (String × ℕ) → List Access
  | [] => []
  | (name, ii) :: joints =>
    match indices.at? name with
    | none => []
    | some i =>
      [.entry i msg.position.length, .entry ii data.position.length,
        .entry i msg.velocity.length, .entry ii data.velocity.length,
        .entry i msg.effort.length, .entry ii data.effort.length] ++
      storeAccesses msg data indices joints

theorem storeAccesses_valid_iff {msg : JointState K} {size : ℕ}
    (hposition : msg.position.length = size) (hvelocity : msg.velocity.length = size)
    (heffort : msg.effort.length = size) {b : ControllerBase K} {names : List String}
    (hshaped : b.Shaped names) (indices : IndexMap) (joints : List (String × ℕ))
    (hjoints : ∀ joint ∈ joints, joint.2 < names.length) :
    AllValid (storeAccesses msg b.jointStateData indices joints) ↔
      indices.Within (joints.map Prod.fst) size := by
  induction joints with
  | nil => exact iff_of_true Access.allValid_nil fun _ hi => nomatch hi
  | cons joint joints ih =>
    obtain ⟨name, ii⟩ := joint
    have hii : ii < names.length := hjoints (name, ii) List.mem_cons_self
    have htail := ih fun joint hjoint => hjoints joint (List.mem_cons_of_mem _ hjoint)
    simp only [storeAccesses, List.map_cons]
    cases hi : indices.at? name with
    | none => exact iff_of_true Access.allValid_nil (IndexMap.within_cons_of_unknown hi _)
    | some i =>
      rw [IndexMap.within_cons hi, ← htail, Access.allValid_append]
      simp only [Access.allValid_cons, Access.allValid_nil, Access.Valid, hposition, hvelocity,
        heffort, hshaped.position, hshaped.velocity, hshaped.effort]
      apply and_congr_left
      intro _
      constructor
      · rintro ⟨hi, _⟩
        exact hi
      · intro hi
        have hstored : (0 : ℤ) ≤ ii ∧ (ii : ℤ) < names.length := by omega
        exact ⟨hi, hstored, hi, hstored, hi, hstored, trivial⟩

theorem storeJoints_fst [Zero K] (msg : JointState K) (indices : IndexMap)
    (joints : List (String × ℕ)) (b : ControllerBase K) :
    (storeJoints msg indices joints b).1 = true ↔ indices.Known (joints.map Prod.fst) := by
  induction joints generalizing b with
  | nil => exact iff_of_true rfl fun _ hn => nomatch hn
  | cons joint joints ih =>
    unfold IndexMap.Known at ih ⊢
    simp only [storeJoints, List.map_cons, List.forall_mem_cons]
    cases indices.at? joint.1 with
    | none => simp
    | some i => simp only [ih, Option.isSome_some, true_and]

end ControllerBase

namespace ControlModule
variable {K : Type*}

def calls (m : ControlModule K) (names : List String) : List Access :=
  names.map fun name => .controller (m.controllerMap name).isSome

theorem calls_valid_iff {m : ControlModule K} {names : List String} :
    AllValid (m.calls names) ↔ ∀ name ∈ names, (m.controllerMap name).isSome := by
  unfold AllValid calls
  exact List.forall_mem_map

def offsetAccesses (indices : IndexMap) (size : ℕ) : List (String × K) → List Access
  | [] => []
  | e :: es =>
    match indices.at? e.1 with
    | none => []
    | some i => .entry i size :: offsetAccesses indices size es

theorem offsetAccesses_valid_iff {indices : IndexMap} {size : ℕ} {es : List (String × K)} :
    AllValid (offsetAccesses indices size es) ↔ indices.Within (es.map Prod.fst) size := by
  induction es with
  | nil => exact iff_of_true Access.allValid_nil fun _ hi => nomatch hi
  | cons e es ih =>
    simp only [offsetAccesses, List.map_cons]
    cases hi : indices.at? e.1 with
    | none => exact iff_of_true Access.allValid_nil (IndexMap.within_cons_of_unknown hi _)
    | some i =>
      rw [IndexMap.within_cons hi, ← ih]
      exact Access.allValid_cons

def jointsOf (m : ControlModule K) (name : String) : List String :=
  ((m.controllerMap name).map (·.base.jointNames)).getD []

/-- The joints a message is searched for: those of the offsets, then the controllers'. -/
def lookedUp (m : ControlModule K) : List String :=
  m.jointOffsetMap.map Prod.fst ++ m.controllerNames.flatMap m.jointsOf

/-- Every message slot a command goes to; a joint that is not listed goes to the first. -/
def SlotsWithin (m : ControlModule K) (joints : List String) : Prop :=
  ∀ joint ∈ joints, 0 ≤ (m.jointCmdIndexMap.at? joint).getD 0 ∧
    (m.jointCmdIndexMap.at? joint).getD 0 < m.cmdMsg.name.length

def mergeAccesses (m : ControlModule K) (joints : List String) : List Access :=
  joints.flatMap fun joint =>
    let index := (m.jointCmdIndexMap.at? joint).getD 0
    [.entry index m.cmdMsg.name.length, .entry index m.cmdMsg.position.length,
      .entry index m.cmdMsg.velocity.length, .entry index m.cmdMsg.effort.length,
      .entry index m.cmdMsg.damping.length, .entry index m.cmdMsg.stiffness.length]

theorem mergeAccesses_valid_iff {m : ControlModule K} {size : ℕ} (h : Sized size m.cmdMsg)
    (joints : List String) : AllValid (m.mergeAccesses joints) ↔ m.SlotsWithin joints := by
  unfold AllValid mergeAccesses SlotsWithin
  rw [List.forall_mem_flatMap]
  apply forall₂_congr
  intro joint _
  change AllValid _ ↔ _
  simp only [Access.allValid_cons, Access.allValid_nil, Access.Valid, h.name, h.position,
    h.velocity, h.effort, h.damping, h.stiffness]
  constructor
  · rintro ⟨hi, _⟩
    exact hi
  · intro hi
    exact ⟨hi, hi, hi, hi, hi, hi, trivial⟩

structure Sound (size : ℕ) (m : ControlModule K) : Prop where
  built : m.Every fun _ c => c.Built
  present : ∀ name ∈ m.controllerNames, (m.controllerMap name).isSome
  sized : Sized size m.cmdMsg

variable {m n : ControlModule K} {size : ℕ}

theorem Sound.noteIndices (h : m.Sound size) (msg : JointState K) :
    (m.noteIndices msg).Sound size := by
  obtain ⟨hnames, hmap, _⟩ := sameWiring_of_note m msg
  refine ⟨h.built.of_map hmap, ?_, ?_⟩
  · rw [hnames, hmap]
    exact h.present
  · unfold ControlModule.noteIndices
    dsimp only
    split_ifs <;> exact h.sized

structure SameNames (m n : ControlModule K) : Prop where
  controllerNames : n.controllerNames = m.controllerNames
  present : ∀ name, (n.controllerMap name).isSome = (m.controllerMap name).isSome

theorem sameNames_frame : Frame (SameNames (K := K)) where
  refl _ := ⟨rfl, fun _ => rfl⟩
  trans h h' := ⟨h'.controllerNames.trans h.controllerNames,
    fun name => (h'.present name).trans (h.present name)⟩
  set m name c c' hc := ⟨rfl, (sameWiring_frame.set m name c c' hc).present⟩
  note _ _ _ := ⟨rfl, fun _ => rfl⟩

theorem Sound.keep (h : m.Sound size) (hsame : m.SameNames n)
    (hbuilt : n.Every fun _ c => c.Built) (hsized : Sized size n.cmdMsg) : n.Sound size where
  built := hbuilt
  present name hname := by
    rw [hsame.present]
    exact h.present name (hsame.controllerNames ▸ hname)
  sized := hsized

theorem Sound.set (h : m.Sound size) {name : String} {c c' : Controller K}
    (hc : m.controllerMap name = some c) (hbuilt : c'.Built) :
    (m.setController name c').Sound size :=
  h.keep (sameNames_frame.set m name c c' hc)
    (h.built.setController hbuilt fun _ _ _ hother => hother) h.sized

theorem Sound.withOutput (h : m.Sound size) {o : Output K} (hsized : Sized size o.cmdMsg) :
    (m.withOutput o).Sound size :=
  ⟨h.built, h.present, hsized⟩

def takeAccesses (m : ControlModule K) (name : String) : List Access :=
  match m.controllerMap name with
  | none => [.controller false]
  | some c => .controller true :: (c.commandAccesses ++ m.mergeAccesses c.base.jointNames)

def TakeFits (m : ControlModule K) (name : String) : Prop :=
  ∃ c, m.controllerMap name = some c ∧ c.CommandFits ∧ m.SlotsWithin c.base.jointNames

theorem Sound.takeAccesses_valid_iff (h : m.Sound size) (name : String) :
    AllValid (m.takeAccesses name) ↔ m.TakeFits name := by
  unfold takeAccesses TakeFits
  cases hc : m.controllerMap name with
  | none => simp [Access.Valid]
  | some c =>
    have hcommand := Controller.commandAccesses_valid_iff (h.built name c hc)
    have hmerge := mergeAccesses_valid_iff h.sized c.base.jointNames
    simp [Access.Valid, hcommand, hmerge]

variable [Field K]

section JointState

def forwardAccesses (m : ControlModule K) (msg : JointState K) : List String → List Access
  | [] => []
  | name :: names =>
    match m.controllerMap name with
    | none => [.controller false]
    | some c =>
      .controller true ::
        (ControllerBase.storeAccesses msg c.base.jointStateData m.jointStateIndexMap
          c.base.jointNames.zipIdx ++
        if (c.base.setJointStateData msg m.jointStateIndexMap).1 then forwardAccesses m msg names
        else [])

def jointStateAccesses (m : ControlModule K) (msg : JointState K) : List Access :=
  let n := m.noteIndices msg
  .entry 0 m.jointStateIndexMap.length ::
    (offsetAccesses n.jointStateIndexMap msg.position.length n.jointOffsetMap ++
      ((n.subtractOffsets msg).map fun msg => n.forwardAccesses msg n.controllerNames).getD [])

theorem Sound.forwardAccesses_valid_iff (h : m.Sound size) {msg : JointState K} {length : ℕ}
    (hposition : msg.position.length = length) (hvelocity : msg.velocity.length = length)
    (heffort : msg.effort.length = length) {names : List String}
    (hnames : ∀ name ∈ names, (m.controllerMap name).isSome) :
    AllValid (m.forwardAccesses msg names) ↔
      m.jointStateIndexMap.Within (names.flatMap m.jointsOf) length := by
  induction names with
  | nil => exact iff_of_true Access.allValid_nil fun _ hi => nomatch hi
  | cons name names ih =>
    have htail := ih fun n hn => hnames n (List.mem_cons_of_mem name hn)
    obtain ⟨c, hc⟩ := Option.isSome_iff_exists.mp (hnames name List.mem_cons_self)
    have hjoints : m.jointsOf name = c.base.jointNames := by
      unfold jointsOf
      rw [hc]
      rfl
    have hstore := ControllerBase.storeAccesses_valid_iff hposition hvelocity heffort
      (h.built name c hc).shaped m.jointStateIndexMap c.base.jointNames.zipIdx
      fun joint hjoint => List.snd_lt_of_mem_zipIdx hjoint
    have hflag := ControllerBase.storeJoints_fst msg m.jointStateIndexMap
      c.base.jointNames.zipIdx c.base
    rw [List.zipIdx_map_fst] at hstore hflag
    simp only [forwardAccesses, hc, List.flatMap_cons, hjoints]
    by_cases hknown : m.jointStateIndexMap.Known c.base.jointNames
    · have hset : (c.base.setJointStateData msg m.jointStateIndexMap).1 = true :=
        hflag.mpr hknown
      rw [IndexMap.within_append hknown, ← hstore, ← htail, if_pos hset]
      simp [Access.Valid]
    · have hset : ¬ (c.base.setJointStateData msg m.jointStateIndexMap).1 = true :=
        fun hall => hknown (hflag.mp hall)
      rw [IndexMap.within_append_of_unknown hknown, ← hstore, if_neg hset]
      simp [Access.Valid]

theorem subtractOffsets_isSome (m : ControlModule K) (msg : JointState K) :
    (m.subtractOffsets msg).isSome ↔
      m.jointStateIndexMap.Known (m.jointOffsetMap.map Prod.fst) := by
  rw [subtractOffsets_eq]
  generalize m.jointOffsetMap = es
  induction es generalizing msg with
  | nil => exact iff_of_true rfl fun _ hn => nomatch hn
  | cons e es ih =>
    unfold IndexMap.Known at ih ⊢
    simp only [List.foldlM_cons, List.map_cons, List.forall_mem_cons]
    cases hone : subtractOne m.jointStateIndexMap msg e with
    | none =>
      have hat := Option.map_eq_none_iff.mp hone
      simp [hat]
    | some msg₁ =>
      obtain ⟨i, hat, _⟩ := Option.map_eq_some_iff.mp hone
      simp only [hat, Option.isSome_some, true_and]
      exact ih msg₁

theorem lengths_subtractOffsets {msg msg' : JointState K} (h : m.subtractOffsets msg = some msg') :
    msg'.position.length = msg.position.length ∧ msg'.velocity = msg.velocity ∧
      msg'.effort = msg.effort := by
  rw [subtractOffsets_eq] at h
  revert h
  generalize m.jointOffsetMap = es
  intro h
  induction es generalizing msg with
  | nil =>
    cases h
    exact ⟨rfl, rfl, rfl⟩
  | cons e es ih =>
    rw [List.foldlM_cons] at h
    obtain ⟨msg₁, hmsg₁, h⟩ := Option.bind_eq_some_iff.mp h
    obtain ⟨i, _, rfl⟩ := Option.map_eq_some_iff.mp hmsg₁
    obtain ⟨hposition, hvelocity, heffort⟩ := ih h
    exact ⟨hposition.trans (length_writeAt _ _ _), hvelocity, heffort⟩

def StandsWithin (m : ControlModule K) (msg : JointState K) : Prop :=
  m.jointStateIndexMap ≠ [] ∧
    (m.noteIndices msg).jointStateIndexMap.Within m.lookedUp msg.name.length

theorem Sound.jointStateAccesses_valid_iff (h : m.Sound size) {msg : JointState K}
    (hposition : msg.position.length = msg.name.length)
    (hvelocity : msg.velocity.length = msg.name.length)
    (heffort : msg.effort.length = msg.name.length) :
    AllValid (m.jointStateAccesses msg) ↔ m.StandsWithin msg := by
  obtain ⟨hnames, hmap, hoffsets⟩ := sameWiring_of_note m msg
  have hnote := h.noteIndices msg
  have hfirst : (Access.entry 0 m.jointStateIndexMap.length).Valid ↔ m.jointStateIndexMap ≠ [] := by
    rw [← List.length_pos_iff]
    unfold Access.Valid
    omega
  have hlooked : m.lookedUp = (m.noteIndices msg).lookedUp := by
    unfold lookedUp jointsOf
    rw [hnames, hmap, hoffsets]
  have hsome := subtractOffsets_isSome (m.noteIndices msg) msg
  unfold jointStateAccesses StandsWithin
  dsimp only
  rw [Access.allValid_cons, Access.allValid_append, hfirst, offsetAccesses_valid_iff, hposition,
    hlooked]
  apply and_congr_right
  intro _
  unfold lookedUp
  cases hmsg' : (m.noteIndices msg).subtractOffsets msg with
  | none =>
    rw [hmsg'] at hsome
    have hunknown : ¬ (m.noteIndices msg).jointStateIndexMap.Known
        ((m.noteIndices msg).jointOffsetMap.map Prod.fst) := fun hknown => by
      cases hsome.mpr hknown
    rw [IndexMap.within_append_of_unknown hunknown]
    simp
  | some msg' =>
    rw [hmsg'] at hsome
    obtain ⟨hposition', hvelocity', heffort'⟩ := lengths_subtractOffsets hmsg'
    rw [IndexMap.within_append (hsome.mp rfl)]
    apply and_congr_right
    intro _
    exact hnote.forwardAccesses_valid_iff (hposition'.trans hposition)
      (hvelocity' ▸ hvelocity) (heffort' ▸ heffort) hnote.present

end JointState

theorem sameNames_handle {c : Reception.Callback K} (hn : m.handle c = some n) :
    m.SameNames n := by
  refine sameNames_frame.handle (fun msg _ => ?_) hn
  obtain ⟨hnames, hmap, _⟩ := sameWiring_of_note m msg
  exact ⟨hnames, fun name => by rw [hmap]⟩

theorem Sound.handle (h : m.Sound size) {c : Reception.Callback K} (hn : m.handle c = some n) :
    n.Sound size := by
  have hbuilt : n.Every fun _ c => c.Built := by
    apply h.built.handle _ _ _ _ hn
    · intro _ c hc
      exact hc.restartController
    · intro joy _ c hc
      obtain ⟨hnames, hposition, hvelocity, heffort⟩ := hc.shaped
      exact hc.withBase rfl ⟨hnames, hposition, hvelocity, heffort⟩
    · intro imu _ c hc
      obtain ⟨hnames, hposition, hvelocity, heffort⟩ := hc.shaped
      exact hc.withBase rfl ⟨hnames, hposition, hvelocity, heffort⟩
    · intro _ c msg indices hc
      have hshaped := hc.shaped.setJointStateData msg indices
      exact hc.withBase (f := fun _ => (c.base.setJointStateData msg indices).2) hshaped.names
        hshaped
  exact h.keep (sameNames_handle hn) hbuilt ((sameOutput_handle hn).cmdMsg ▸ h.sized)

section Loop

theorem sound_at_start {firstEntry : List String → ℕ} {now : ℤ} {conf : Config K}
    {m : ControlModule K} (hm : initializeModule firstEntry now conf = some m)
    (hfixed : conf.FixedPolicies) : m.Sound conf.jointList.dedup.length where
  built name c hc := by
    obtain ⟨node, hnode, hmake⟩ := made_at_start hm hc
    exact Controller.built_make hmake (hfixed (name, node) hnode)
  present name hname := (present_at_start hm name).1.mp hname
  sized := (Cycling.twin_at_start hm).2.1

theorem exists_withOutput_merge (m : ControlModule K) (cmd : JointCommand K) :
    ∃ o, m.merge cmd = m.withOutput o := by
  refine Runs.foldl_invariant (mergeIndexed cmd) (fun n => ∃ o, n = m.withOutput o) ?_ ?_
    cmd.name.zipIdx
  · exact ⟨⟨m.jointOffsetMap, m.cmdMsg, m.published⟩, rfl⟩
  · rintro _ e ⟨o, rfl⟩
    let n := (m.withOutput o).mergeJoint cmd e.2 e.1
    exact ⟨⟨n.jointOffsetMap, n.cmdMsg, o.published⟩, rfl⟩

theorem Sound.merge (h : m.Sound size) (cmd : JointCommand K) : (m.merge cmd).Sound size := by
  have hsized := (m.extends_merge cmd).sized size h.sized
  obtain ⟨o, ho⟩ := m.exists_withOutput_merge cmd
  rw [ho] at hsized ⊢
  exact h.withOutput hsized

theorem TakeFits.built (h : m.Sound size) {name : String} {c : Controller K}
    (hc : m.controllerMap name = some c) (hfits : m.TakeFits name) : c.getJointCmdData.2.Built := by
  obtain ⟨d, hd, hfits, _⟩ := hfits
  obtain rfl : c = d := Option.some.inj (hc.symm.trans hd)
  exact (h.built name c hc).getJointCmdData hfits

variable [LinearOrder K] (io : Platform K)

def updateAccesses (m : ControlModule K) (traced : Bool) (name : String) : List Access :=
  match m.controllerMap name with
  | none => [.controller false]
  | some c =>
    .controller true :: (c.updateAccesses io ++ if traced then c.traceAccesses else [])

def UpdateFits (m : ControlModule K) (traced : Bool) (name : String) : Prop :=
  ∃ c, m.controllerMap name = some c ∧ c.UpdateFits ∧ (traced = true → c.TraceFits)

variable {io}

theorem Sound.updateAccesses_valid_iff (h : m.Sound size) (traced : Bool) (name : String) :
    AllValid (m.updateAccesses io traced name) ↔ m.UpdateFits traced name := by
  unfold updateAccesses UpdateFits
  cases hc : m.controllerMap name with
  | none => simp [Access.Valid]
  | some c =>
    have hupdate := Controller.updateAccesses_valid_iff io (h.built name c hc)
    have htrace := c.traceAccesses_valid_iff
    cases traced with
    | false => simp [Access.Valid, hupdate]
    | true => simp [Access.Valid, hupdate, htrace]

theorem UpdateFits.built (h : m.Sound size) {traced : Bool} {name : String} {c : Controller K}
    (hc : m.controllerMap name = some c) (hfits : m.UpdateFits traced name) :
    (c.update io).Built := by
  obtain ⟨d, hd, hfits, _⟩ := hfits
  obtain rfl : c = d := Option.some.inj (hc.symm.trans hd)
  exact (h.built name c hc).update io hfits

end Loop
end ControlModule

/-- The module and its loop; `traced` is the number of joints in a row of the trace,
which is written if the environment names a directory for it. -/
structure Running (K : Type*) where
  module : ControlModule K
  loop : Loop
  traced : Option ℕ

namespace Running
variable {K : Type*} [Field K] [LinearOrder K] (io : Platform K)
open Reception (Event)

def boot (conf : Config K) (tracing : Bool) (m : ControlModule K) : Running K :=
  ⟨m, .sleep, if tracing then some conf.jointList.length else none⟩

def step (s : Running K) : Event K → Option (Running K)
  | .callback c => (s.module.handle c).map fun m => { s with module := m }
  | .loop => (ControlModule.loopStep io s.loop s.module).map fun r =>
      { s with loop := r.1, module := r.2 }

def loopAccesses (s : Running K) : List Access :=
  match s.loop with
  | .sleep => []
  | .update [] => Access.entries (s.traced.getD 0) s.module.cmdMsg.position.length
  | .update (name :: _) => s.module.updateAccesses io s.traced.isSome name
  | .take name _ => s.module.takeAccesses name

def accesses (s : Running K) : Event K → List Access
  | .callback (.trigger now topic) => s.module.calls ((s.module.onTrigger now topic).2.getD [])
  | .callback (.cmdVel _) => s.module.calls s.module.currentControllers
  | .callback (.imu _) => s.module.calls s.module.currentControllers
  | .callback (.jointState msg) => s.module.jointStateAccesses msg
  | .loop => s.loopAccesses io

def LoopFits (s : Running K) : Prop :=
  match s.loop with
  | .sleep => True
  | .update [] => s.traced.getD 0 ≤ s.module.cmdMsg.position.length
  | .update (name :: _) => s.module.UpdateFits s.traced.isSome name
  | .take name _ => s.module.TakeFits name

/-- The controllers that are called exist, their sizes fit each other, and the joints of
commands and messages have places within them. -/
def Fits (s : Running K) : Event K → Prop
  | .callback (.trigger now topic) => ∀ name ∈ (s.module.onTrigger now topic).2.getD [],
      (s.module.controllerMap name).isSome
  | .callback (.jointState msg) => s.module.StandsWithin msg
  | .callback _ => ∀ name ∈ s.module.currentControllers, (s.module.controllerMap name).isSome
  | .loop => s.LoopFits

variable {io} {s t : Running K} {size : ℕ}

theorem accesses_valid_iff (h : s.module.Sound size) {conf : Config K} {e : Event K}
    (hcarries : ∀ msg, e = .callback (.jointState msg) → ControlModule.Carries conf msg) :
    AllValid (s.accesses io e) ↔ s.Fits e := by
  cases e with
  | callback c =>
    cases c with
    | trigger now topic => exact ControlModule.calls_valid_iff
    | cmdVel joy => exact ControlModule.calls_valid_iff
    | imu imu => exact ControlModule.calls_valid_iff
    | jointState msg =>
      obtain ⟨_, hposition, hvelocity, heffort⟩ := hcarries msg rfl
      exact h.jointStateAccesses_valid_iff hposition hvelocity heffort
  | loop =>
    unfold accesses loopAccesses Fits LoopFits
    cases s.loop with
    | sleep => simp
    | update names =>
      cases names with
      | nil => exact Access.allValid_entries
      | cons name rest => exact h.updateAccesses_valid_iff _ name
    | take name rest => exact h.takeAccesses_valid_iff name

theorem sound_step (h : s.module.Sound size) {e : Event K} (hfits : s.Fits e)
    (ht : s.step io e = some t) : t.module.Sound size := by
  cases e with
  | callback c =>
    obtain ⟨m, hm, rfl⟩ := Option.map_eq_some_iff.mp ht
    exact h.handle hm
  | loop =>
    obtain ⟨r, hr, rfl⟩ := Option.map_eq_some_iff.mp ht
    unfold Fits LoopFits at hfits
    obtain ⟨_, rfl⟩ | ⟨_, rfl⟩ | ⟨name, rest, c, hloop, hc, rfl⟩ |
      ⟨name, rest, c, hloop, hc, rfl⟩ := ControlModule.loopStep_cases hr
    · exact h
    · exact ⟨h.built, h.present, h.sized⟩
    · rw [hloop] at hfits
      exact h.set hc (hfits.built h hc)
    · rw [hloop] at hfits
      exact (h.set hc (hfits.built h hc)).merge _

end Running
end MybipedalDeploy.Control
