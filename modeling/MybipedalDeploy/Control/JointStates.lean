import MybipedalDeploy.Control.Merging

/-!
# The joint states

What one message does: the indices are taken from the first one and kept, the offsets
are subtracted, and every controller stores the entries of its joints. A message that
carries the joints that matter at their places is stored by name.
-/

namespace MybipedalDeploy.Control
open Msg (JointState)

structure JointEntry (K : Type*) where
  position : K
  velocity : K
  effort : K
  deriving DecidableEq

namespace JointEntry
variable {K : Type*}

def of [Zero K] (msg : JointState K) (i : ℕ) : JointEntry K :=
  ⟨msg.position.getD i 0, msg.velocity.getD i 0, msg.effort.getD i 0⟩

def less [Sub K] (e : JointEntry K) (offset : K) : JointEntry K :=
  { e with position := e.position - offset }

end JointEntry

namespace ControllerBase
variable {K : Type*} [Zero K]

def stored (b : ControllerBase K) (ii : ℕ) : JointEntry K := .of b.jointStateData ii

structure Shaped (joints : List String) (b : ControllerBase K) : Prop where
  names : b.jointNames = joints
  position : b.jointStateData.position.length = joints.length
  velocity : b.jointStateData.velocity.length = joints.length
  effort : b.jointStateData.effort.length = joints.length

variable {joints : List String} {b : ControllerBase K}

theorem Shaped.storeJoint (h : b.Shaped joints) (msg : JointState K) (ii : ℕ) (index : ℤ) :
    (b.storeJoint msg ii index).Shaped joints := by
  refine ⟨h.names, ?_, ?_, ?_⟩ <;>
    simp [ControllerBase.storeJoint, h.position, h.velocity, h.effort]

theorem Shaped.storeJoints (msg : JointState K) (indices : IndexMap)
    (todo : List (String × ℕ)) (h : b.Shaped joints) :
    (ControllerBase.storeJoints msg indices todo b).2.Shaped joints := by
  induction todo generalizing b with
  | nil => exact h
  | cons joint todo ih =>
    simp only [ControllerBase.storeJoints]
    cases indices.at? joint.1 with
    | none => exact h
    | some index => exact ih (h.storeJoint msg joint.2 index)

theorem Shaped.setJointStateData (h : b.Shaped joints) (msg : JointState K) (indices : IndexMap) :
    (b.setJointStateData msg indices).2.Shaped joints :=
  h.storeJoints msg indices _

theorem stored_storeJoint (h : b.Shaped joints) {ii : ℕ} (hii : ii < joints.length)
    (msg : JointState K) (jj i : ℕ) :
    (b.storeJoint msg jj i).stored ii = if jj = ii then .of msg i else b.stored ii := by
  have hread (v : List K) : readAt v (i : ℤ) = v.getD i 0 := by simp [readAt]
  simp only [stored, JointEntry.of, ControllerBase.storeJoint, hread,
    ControlModule.getD_set (h.position.symm ▸ hii), ControlModule.getD_set (h.velocity.symm ▸ hii),
    ControlModule.getD_set (h.effort.symm ▸ hii)]
  split_ifs <;> rfl

theorem storeJoints_eq_foldl {indices : IndexMap} {place : String → ℕ} (msg : JointState K)
    {todo : List (String × ℕ)} (hat : ∀ e ∈ todo, indices.at? e.1 = some (place e.1 : ℤ))
    (b : ControllerBase K) :
    ControllerBase.storeJoints msg indices todo b =
      (true, todo.foldl (fun b e => b.storeJoint msg e.2 (place e.1)) b) := by
  induction todo generalizing b with
  | nil => rfl
  | cons e todo ih =>
    rw [ControllerBase.storeJoints, hat e List.mem_cons_self]
    exact ih (fun e' he' => hat e' (List.mem_cons_of_mem e he')) _

theorem setJointStateData_spec (h : b.Shaped joints) {indices : IndexMap} {place : String → ℕ}
    (hat : ∀ joint ∈ joints, indices.at? joint = some (place joint : ℤ)) (msg : JointState K) :
    (b.setJointStateData msg indices).1 = true ∧ ∀ ii joint, joints[ii]? = some joint →
      (b.setJointStateData msg indices).2.stored ii = .of msg (place joint) := by
  have hfold : b.setJointStateData msg indices =
      (true, joints.zipIdx.foldl (fun b e => b.storeJoint msg e.2 (place e.1)) b) := by
    unfold setJointStateData
    rw [h.names]
    refine storeJoints_eq_foldl msg (fun e he => hat e.1 ?_) b
    exact List.mem_of_getElem? (List.mem_zipIdx_iff_getElem?.mp he)
  rw [hfold]
  refine ⟨rfl, fun ii joint hii => ?_⟩
  have hlt : ii < joints.length := (List.getElem?_eq_some_iff.mp hii).1
  have hmem : (joint, ii) ∈ joints.zipIdx := List.mem_zipIdx_iff_getElem?.mpr hii
  have hview := LastWrite.view_foldl
    (fun e : String × ℕ => if e.2 = ii then some (JointEntry.of msg (place e.1)) else none)
    (fun (b : ControllerBase K) e => b.storeJoint msg e.2 (place e.1)) (fun b => b.stored ii)
    (Shaped joints) (fun b e hb => hb.storeJoint msg e.2 _) ?_ joints.zipIdx h
  · rw [LastWrite.lastHit_of_unique _ hmem (if_pos rfl)] at hview
    · exact hview
    · rintro ⟨joint', jj⟩ hmem' x hx
      split_ifs at hx with hjj
      obtain rfl : jj = ii := hjj
      have hjoint' := List.mem_zipIdx_iff_getElem?.mp hmem'
      rw [show joints[jj]? = some joint' from hjoint'] at hii
      cases hii
      exact (Option.some.inj hx).symm
  · intro b e hb
    refine (stored_storeJoint hb hlt msg e.2 (place e.1)).trans ?_
    split_ifs <;> rfl

end ControllerBase
namespace IndexMap

theorem set_ne_nil (m : IndexMap) (name : String) (i : ℤ) : m.set name i ≠ [] := by
  intro hnil
  have hat := at?_set m name name i
  rw [hnil, if_pos rfl] at hat
  cases hat

theorem mem_set {m : IndexMap} {name : String} {i : ℤ} {e : String × ℤ} (h : e ∈ m.set name i) :
    e = (name, i) ∨ e ∈ m ∧ e.1 ≠ name := by
  by_cases hmem : name ∈ m.map Prod.fst
  · rw [set_of_mem hmem] at h
    obtain ⟨e', he', rfl⟩ := List.mem_map.mp h
    split_ifs with hname
    · exact .inl (by rw [hname])
    · exact .inr ⟨he', hname⟩
  · rw [set_of_not_mem hmem] at h
    rcases List.mem_append.mp h with hold | hnew
    · refine .inr ⟨hold, ?_⟩
      rintro rfl
      exact hmem (List.mem_map_of_mem hold)
    · exact .inl (List.mem_singleton.mp hnew)

theorem mem_foldl_set {m : IndexMap} {es : List (String × ℕ)} {e : String × ℤ}
    (h : e ∈ es.foldl (fun m e => m.set e.1 e.2) m) :
    (∃ i : ℕ, (e.1, i) ∈ es ∧ e.2 = i) ∨ e ∈ m ∧ e.1 ∉ es.map Prod.fst := by
  induction es using List.reverseRecOn with
  | nil => exact .inr ⟨h, by simp⟩
  | append_singleton es last ih =>
    rw [List.foldl_concat] at h
    obtain rfl | ⟨hmem, hne⟩ := mem_set h
    · exact .inl ⟨last.2, by simp, rfl⟩
    · obtain ⟨i, hi, heq⟩ | ⟨hold, hnot⟩ := ih hmem
      · exact .inl ⟨i, List.mem_append_left _ hi, heq⟩
      · exact .inr ⟨hold, by simp [hne, hnot]⟩

end IndexMap

namespace ControlModule
variable {K : Type*}

section Note
variable {conf : Config K} {place : String → ℕ}

def relevant (conf : Config K) : List String :=
  conf.controllers.flatMap (·.2.jointList) ++ conf.jointOffset.map Prod.fst

structure Carries (conf : Config K) (msg : JointState K) : Prop where
  listed : ∀ joint ∈ conf.jointList, joint ∈ msg.name
  position : msg.position.length = msg.name.length
  velocity : msg.velocity.length = msg.name.length
  effort : msg.effort.length = msg.name.length

structure Fits (conf : Config K) (place : String → ℕ) (msg : JointState K) : Prop
    extends Carries conf msg where
  placed : ∀ joint ∈ relevant conf, lastPlace msg.name joint = some (place joint)

def Unnoted (conf : Config K) (indices : IndexMap) : Prop :=
  indices ≠ [] ∧ ∀ e ∈ indices, e.1 ∈ conf.jointList ∧ e.2 = -1

def Noted (conf : Config K) (place : String → ℕ) (indices : IndexMap) : Prop :=
  (∀ e ∈ indices, 0 ≤ e.2) ∧ ∀ joint ∈ relevant conf, indices.at? joint = some (place joint : ℤ)

theorem mem_foldl_unset {joints : List String} {e : String × ℤ}
    (h : e ∈ joints.foldl (fun (m : IndexMap) joint => m.set joint (-1)) []) :
    e.1 ∈ joints ∧ e.2 = -1 := by
  induction joints using List.reverseRecOn with
  | nil => cases h
  | append_singleton joints joint ih =>
    rw [List.foldl_concat] at h
    obtain rfl | ⟨hmem, _⟩ := IndexMap.mem_set h
    · simp
    · exact ⟨List.mem_append_left _ (ih hmem).1, (ih hmem).2⟩

theorem unnoted_at_start (hne : conf.jointList ≠ []) :
    Unnoted conf (conf.jointList.foldl (fun m joint => m.set joint (-1)) []) := by
  refine ⟨?_, fun e he => mem_foldl_unset he⟩
  obtain ⟨joints, joint, hlist⟩ := List.eq_nil_or_concat conf.jointList |>.resolve_left hne
  rw [hlist, List.concat_eq_append, List.foldl_concat]
  exact IndexMap.set_ne_nil _ joint (-1)

theorem noteIndices_of_unnoted {m : ControlModule K} (h : Unnoted conf m.jointStateIndexMap)
    (msg : JointState K) : (m.noteIndices msg).jointStateIndexMap =
      msg.name.zipIdx.foldl (fun indices e => indices.set e.1 e.2) m.jointStateIndexMap := by
  obtain ⟨hne, hall⟩ := h
  have hlt : m.firstEntry (m.jointStateIndexMap.map Prod.fst) % m.jointStateIndexMap.length <
      m.jointStateIndexMap.length := Nat.mod_lt _ (List.length_pos_iff.mpr hne)
  have hfirst := (hall _ (List.getElem_mem hlt)).2
  unfold noteIndices
  dsimp only
  rw [if_pos (by rw [List.getElem?_eq_getElem hlt, Option.map_some, hfirst])]

theorem noteIndices_of_noted {m : ControlModule K} (h : ∀ e ∈ m.jointStateIndexMap, 0 ≤ e.2)
    (msg : JointState K) : m.noteIndices msg = m := by
  unfold noteIndices
  dsimp only
  rw [if_neg]
  intro hfirst
  obtain ⟨e, he, hvalue⟩ := Option.map_eq_some_iff.mp hfirst
  have hle := h e (List.mem_of_getElem? he)
  omega

theorem place_of_unnoted {indices : IndexMap} (h : Unnoted conf indices) {names : List String}
    (hlisted : ∀ joint ∈ conf.jointList, joint ∈ names) {e : String × ℤ}
    (he : e ∈ names.zipIdx.foldl (fun indices e => indices.set e.1 e.2) indices) :
    0 ≤ e.2 ∧ e.2 < names.length := by
  obtain ⟨i, hi, heq⟩ | ⟨hold, hnot⟩ := IndexMap.mem_foldl_set he
  · have hlt : i < names.length := List.snd_lt_of_mem_zipIdx hi
    omega
  · rw [List.zipIdx_map_fst] at hnot
    exact absurd (hlisted e.1 (h.2 e hold).1) hnot

theorem noted_noteIndices {m : ControlModule K} {msg : JointState K} (hfits : Fits conf place msg)
    (h : Unnoted conf m.jointStateIndexMap ∨ Noted conf place m.jointStateIndexMap) :
    Noted conf place (m.noteIndices msg).jointStateIndexMap := by
  rcases h with hunnoted | hnoted
  · rw [noteIndices_of_unnoted hunnoted]
    refine ⟨fun e he => (place_of_unnoted hunnoted hfits.listed he).1, fun joint hjoint => ?_⟩
    rw [IndexMap.at?_foldl_set, hfits.placed joint hjoint]
    rfl
  · rw [noteIndices_of_noted hnoted.1]
    exact hnoted

end Note
section Subtract
variable [Field K]

def subtractAt (place : String → ℕ) (msg : JointState K) (e : String × K) : JointState K :=
  { msg with
    position := writeAt msg.position (place e.1) (readAt msg.position (place e.1) - e.2) }

theorem subtractOffsets_eq_foldl {m : ControlModule K} {place : String → ℕ}
    (hat : ∀ e ∈ m.jointOffsetMap, m.jointStateIndexMap.at? e.1 = some (place e.1 : ℤ))
    (msg : JointState K) :
    m.subtractOffsets msg = some (m.jointOffsetMap.foldl (subtractAt place) msg) := by
  unfold subtractOffsets
  revert hat
  generalize m.jointOffsetMap = es
  intro hat
  induction es generalizing msg with
  | nil => rfl
  | cons e es ih =>
    rw [List.foldlM_cons, hat e List.mem_cons_self, Option.map_some]
    exact ih _ fun e' he' => hat e' (List.mem_cons_of_mem e he')

theorem of_subtractAt {place : String → ℕ} {names : List String} {msg : JointState K}
    (hlen : msg.position.length = names.length) {e : String × K}
    (he : names[place e.1]? = some e.1) {joint : String}
    (hjoint : names[place joint]? = some joint) :
    JointEntry.of (subtractAt place msg e) (place joint) =
      if joint = e.1 then (JointEntry.of msg (place joint)).less e.2
      else JointEntry.of msg (place joint) := by
  have hlt : place joint < msg.position.length := by
    rw [hlen]
    exact (List.getElem?_eq_some_iff.mp hjoint).1
  have hsame : place e.1 = place joint ↔ joint = e.1 := by
    constructor
    · intro hplace
      rw [hplace, hjoint] at he
      exact Option.some.inj he
    · rintro rfl
      rfl
  simp only [JointEntry.of, JointEntry.less, subtractAt, writeAt, readAt, Int.natCast_nonneg,
    if_true, Int.toNat_natCast, getD_set hlt, hsame]
  split_ifs with heq
  · rw [heq]
  · rfl

theorem of_foldl_subtractAt {place : String → ℕ} {names : List String} {es : List (String × K)}
    (hnd : (es.map Prod.fst).Nodup) (hes : ∀ e ∈ es, names[place e.1]? = some e.1)
    {joint : String} (hjoint : names[place joint]? = some joint) {msg : JointState K}
    (hlen : msg.position.length = names.length) :
    JointEntry.of (es.foldl (subtractAt place) msg) (place joint) =
      (JointEntry.of msg (place joint)).less ((es.lookup joint).getD 0) := by
  induction es generalizing msg with
  | nil => simp [JointEntry.less]
  | cons e es ih =>
    obtain ⟨hnot, hnd⟩ := List.nodup_cons.mp hnd
    have hlen' : (subtractAt place msg e).position.length = names.length := by
      simp [subtractAt, writeAt, hlen]
    rw [List.foldl_cons, ih hnd (fun e' he' => hes e' (List.mem_cons_of_mem e he')) hlen',
      of_subtractAt hlen (hes e List.mem_cons_self) hjoint]
    obtain ⟨key, x⟩ := e
    by_cases heq : joint = key
    · subst heq
      have hnone : es.lookup joint = none := by
        rw [← Option.not_isSome_iff_eq_none, AssociationList.lookup_isSome_iff_mem]
        exact hnot
      simp [hnone, JointEntry.less]
    · have hbeq : (joint == key) = false := by simpa using heq
      simp [heq, List.lookup_cons, hbeq]

end Subtract
section Wired

structure SameWiring (m n : ControlModule K) : Prop where
  controllerNames : n.controllerNames = m.controllerNames
  present : ∀ name, (n.controllerMap name).isSome = (m.controllerMap name).isSome
  offsets : n.jointOffsetMap = m.jointOffsetMap
  indices : n.jointStateIndexMap = m.jointStateIndexMap

theorem sameWiring_frame : Frame (SameWiring (K := K)) where
  refl _ := ⟨rfl, fun _ => rfl, rfl, rfl⟩
  trans h h' :=
    ⟨h'.controllerNames.trans h.controllerNames,
      fun name => (h'.present name).trans (h.present name), h'.offsets.trans h.offsets, h'.indices.trans h.indices⟩
  set m name c c' hc := by
    refine ⟨rfl, fun other => ?_, rfl, rfl⟩
    simp only [setController, Function.update_apply]
    split_ifs with hname
    · rw [hname, hc]
      rfl
    · rfl
  note _ _ _ := ⟨rfl, fun _ => rfl, rfl, rfl⟩

def AsConfigured (conf : Config K) (c : Controller K) : Prop :=
  ∃ node ∈ conf.controllers.map Prod.snd, c.base.Shaped node.jointList

theorem asConfigured_withBase (conf : Config K) (f : ControllerBase K → ControllerBase K)
    (hf : ∀ joints b, b.Shaped joints → (f b).Shaped joints) (c : Controller K)
    (hc : AsConfigured conf c) : AsConfigured conf (c.withBase f) := by
  obtain ⟨node, hnode, hshaped⟩ := hc
  exact ⟨node, hnode, by simpa using hf node.jointList c.base hshaped⟩

variable {conf : Config K}

theorem mem_relevant_of_controller {node : ControllerNode K} {joint : String}
    (hnode : node ∈ conf.controllers.map Prod.snd) (hjoint : joint ∈ node.jointList) :
    joint ∈ relevant conf := by
  obtain ⟨e, he, rfl⟩ := List.mem_map.mp hnode
  exact List.mem_append_left _ (List.mem_flatMap.mpr ⟨e, he, hjoint⟩)

theorem sameWiring_of_note (m : ControlModule K) (msg : JointState K) :
    (m.noteIndices msg).controllerNames = m.controllerNames ∧
      (m.noteIndices msg).controllerMap = m.controllerMap ∧
      (m.noteIndices msg).jointOffsetMap = m.jointOffsetMap := by
  unfold noteIndices
  dsimp only
  split_ifs <;> exact ⟨rfl, rfl, rfl⟩

variable [Field K]

/-- What every controller holds after a message: its entries by name, less the offsets. -/
def Matches (conf : Config K) (msg : JointState K) (m : ControlModule K) : Prop :=
  ∀ name node, (name, node) ∈ conf.controllers → ∃ c, m.controllerMap name = some c ∧
    ∀ ii joint, c.base.jointNames[ii]? = some joint →
      ∃ i, lastPlace msg.name joint = some i ∧ c.base.stored ii =
        (JointEntry.of msg i).less ((conf.jointOffset.lookup joint).getD 0)

theorem Matches.entry_eq {conf : Config K} {msg : JointState K} {m : ControlModule K}
    (h : Matches conf msg m) {e : String × ControllerNode K} (he : e ∈ conf.controllers)
    (joints : List String) (hjoints : (m.controllerMap e.1).map (·.base.jointNames) = some joints)
    (ii : ℕ) {joint : String} (hii : joints[ii]? = some joint) :
    (m.controllerMap e.1).map (·.base.stored ii) = (lastPlace msg.name joint).map fun i =>
      (JointEntry.of msg i).less ((conf.jointOffset.lookup joint).getD 0) := by
  obtain ⟨c, hc, hstored⟩ := h e.1 e.2 he
  rw [hc] at hjoints ⊢
  cases hjoints
  obtain ⟨i, hi, heq⟩ := hstored ii joint hii
  rw [hi, Option.map_some, Option.map_some, heq]

/-- The controllers as configured, offsets of known joints, and indices that are noted
all at once. -/
structure Wired (conf : Config K) (place : String → ℕ) (m : ControlModule K) : Prop where
  shaped : m.Every fun _ c => AsConfigured conf c
  present : ∀ name, name ∈ m.controllerNames ↔ (m.controllerMap name).isSome
  configured : ∀ e ∈ conf.controllers, (m.controllerMap e.1).isSome
  keys : (m.jointOffsetMap.map Prod.fst).Nodup
  known : ∀ e ∈ m.jointOffsetMap, e.1 ∈ relevant conf
  offsets : ∀ name, m.offsetOf name = (conf.jointOffset.lookup name).getD 0
  indices : Unnoted conf m.jointStateIndexMap ∨ Noted conf place m.jointStateIndexMap

variable {place : String → ℕ} {m n : ControlModule K}

theorem Wired.keep (h : m.Wired conf place) (hsame : m.SameWiring n)
    (hshaped : n.Every fun _ c => AsConfigured conf c) : n.Wired conf place where
  shaped := hshaped
  present name := by rw [hsame.controllerNames, hsame.present, h.present]
  configured e he := by rw [hsame.present]; exact h.configured e he
  keys := hsame.offsets.symm ▸ h.keys
  known := hsame.offsets.symm ▸ h.known
  offsets name := by
    unfold offsetOf
    rw [hsame.offsets]
    exact h.offsets name
  indices := hsame.indices.symm ▸ h.indices

theorem forwardJointState_other (msg : JointState K) {names : List String} {name : String}
    (h : name ∉ names) (m : ControlModule K) :
    (forwardJointState msg names m).controllerMap name = m.controllerMap name := by
  induction names generalizing m with
  | nil => rfl
  | cons first names ih =>
    obtain ⟨hfirst, hnames⟩ := List.ne_and_not_mem_of_not_mem_cons h
    have hset (c : Controller K) : (m.setController first c).controllerMap name =
        m.controllerMap name := by
      simp [setController, hfirst]
    simp only [forwardJointState]
    split
    · rfl
    · split_ifs
      · rw [ih hnames, hset]
      · exact hset _

def Ready (place : String → ℕ) (indices : IndexMap) (c : Controller K) : Prop :=
  ∃ joints, c.base.Shaped joints ∧ ∀ joint ∈ joints, indices.at? joint = some (place joint : ℤ)

def Stored (place : String → ℕ) (msg : JointState K) (c : Controller K) : Prop :=
  ∀ ii joint, c.base.jointNames[ii]? = some joint →
    c.base.stored ii = JointEntry.of msg (place joint)

theorem stored_of_ready {indices : IndexMap} {c : Controller K} (h : Ready place indices c)
    (msg : JointState K) :
    (c.base.setJointStateData msg indices).1 = true ∧
      Ready place indices (c.withBase fun _ => (c.base.setJointStateData msg indices).2) ∧
      Stored place msg (c.withBase fun _ => (c.base.setJointStateData msg indices).2) := by
  obtain ⟨joints, hshaped, hat⟩ := h
  obtain ⟨hall, hstored⟩ := ControllerBase.setJointStateData_spec hshaped hat msg
  have hafter := hshaped.setJointStateData msg indices
  refine ⟨hall, ⟨joints, by simpa using hafter, hat⟩, fun ii joint hii => ?_⟩
  rw [Controller.base_withBase] at hii ⊢
  rw [hafter.names] at hii
  exact hstored ii joint hii

theorem forwardJointState_stored (msg : JointState K) {names : List String}
    {m : ControlModule K} (hpresent : ∀ name ∈ names, (m.controllerMap name).isSome)
    (hready : m.Every fun _ c => Ready place m.jointStateIndexMap c) {name : String}
    (hname : name ∈ names) :
    ∃ c, (forwardJointState msg names m).controllerMap name = some c ∧ Stored place msg c := by
  induction names generalizing m with
  | nil => cases hname
  | cons first names ih =>
    obtain ⟨c, hc⟩ := Option.isSome_iff_exists.mp (hpresent first List.mem_cons_self)
    obtain ⟨hall, hready', hstored⟩ := stored_of_ready (hready first c hc) msg
    simp only [forwardJointState, hc, hall, if_true]
    by_cases hmem : name ∈ names
    · refine ih (fun other hother => ?_) (hready.setController hready' fun _ _ _ h => h) hmem
      rw [(sameWiring_frame.set m first c _ hc).present]
      exact hpresent other (List.mem_cons_of_mem first hother)
    · obtain rfl : name = first := (List.mem_cons.mp hname).resolve_right hmem
      rw [forwardJointState_other msg hmem]
      exact ⟨_, by simp [setController], hstored⟩

theorem Wired.noteIndices (h : m.Wired conf place) {msg : JointState K}
    (hfits : Fits conf place msg) : (m.noteIndices msg).Wired conf place := by
  obtain ⟨hnames, hmap, hoffsets⟩ := sameWiring_of_note m msg
  refine ⟨h.shaped.of_map hmap, ?_, ?_, ?_, ?_, ?_, .inr (noted_noteIndices hfits h.indices)⟩
  · rw [hnames, hmap]
    exact h.present
  · rw [hmap]
    exact h.configured
  · rw [hoffsets]
    exact h.keys
  · rw [hoffsets]
    exact h.known
  · unfold offsetOf
    rw [hoffsets]
    exact h.offsets

theorem every_shaped_onJointState (h : m.Every fun _ c => AsConfigured conf c)
    (msg : JointState K) : (m.onJointState msg).Every fun _ c => AsConfigured conf c := by
  refine h.onJointState (fun _ c msg indices hc => ?_) msg
  obtain ⟨node, hnode, hshaped⟩ := hc
  exact ⟨node, hnode, by simpa using hshaped.setJointStateData msg indices⟩

/-- A message that fits leaves the wiring, and every controller holds its entries. -/
theorem onJointState_spec (h : m.Wired conf place) {msg : JointState K}
    (hfits : Fits conf place msg) :
    (m.onJointState msg).Wired conf place ∧ Matches conf msg (m.onJointState msg) := by
  have hnote := h.noteIndices hfits
  have hnoted := noted_noteIndices hfits h.indices
  obtain ⟨msg', hmsg', hentry⟩ : ∃ msg', (m.noteIndices msg).subtractOffsets msg = some msg' ∧
      ∀ joint ∈ relevant conf, JointEntry.of msg' (place joint) =
        (JointEntry.of msg (place joint)).less ((conf.jointOffset.lookup joint).getD 0) := by
    refine ⟨_, subtractOffsets_eq_foldl (fun e he => hnoted.2 e.1 (hnote.known e he)) msg,
      fun joint hjoint => ?_⟩
    rw [of_foldl_subtractAt hnote.keys
      (fun e he => getElem?_of_lastPlace (hfits.placed e.1 (hnote.known e he)))
      (getElem?_of_lastPlace (hfits.placed joint hjoint)) hfits.position]
    exact congrArg _ (hnote.offsets joint)
  have hon : m.onJointState msg =
      forwardJointState msg' (m.noteIndices msg).controllerNames (m.noteIndices msg) := by
    unfold onJointState
    simp only [hmsg']
  refine ⟨?_, fun name node hnode => ?_⟩
  · have hshaped := every_shaped_onJointState h.shaped msg
    rw [hon] at hshaped ⊢
    exact hnote.keep (sameWiring_frame.forwardJointState _ _ _) hshaped
  · have hready : (m.noteIndices msg).Every fun _ c =>
        Ready place (m.noteIndices msg).jointStateIndexMap c := by
      intro other c hc
      obtain ⟨node, hnode, hshaped⟩ := hnote.shaped other c hc
      exact ⟨node.jointList, hshaped, fun joint hjoint =>
        hnoted.2 joint (mem_relevant_of_controller hnode hjoint)⟩
    obtain ⟨c, hc, hstored⟩ := forwardJointState_stored msg'
      (fun other hother => (hnote.present other).mp hother) hready
      ((hnote.present name).mpr (hnote.configured (name, node) hnode))
    rw [← hon] at hc
    refine ⟨c, hc, fun ii joint hii => ?_⟩
    obtain ⟨node', hnode', hshaped⟩ := every_shaped_onJointState h.shaped msg name c hc
    have hjoint : joint ∈ relevant conf := by
      rw [hshaped.names] at hii
      exact mem_relevant_of_controller hnode' (List.mem_of_getElem? hii)
    exact ⟨place joint, hfits.placed joint hjoint, (hstored ii joint hii).trans (hentry joint hjoint)⟩

end Wired
end ControlModule
end MybipedalDeploy.Control
