import Mathlib.Algebra.Field.Rat
import Mathlib.Algebra.Order.Ring.Rat
import MybipedalDeploy.Control.Callbacks
import MybipedalDeploy.Control.JointIndex

/-!
# The merged command

`MainLoop` copies the entries of the active controllers into one message that it
keeps from cycle to cycle. A name that is not in `joint_list` gets the index 0, so
its entry falls into the slot of the first joint. The message is right in every
cycle exactly if each such entry is followed by one for the first joint.
-/

namespace MybipedalDeploy.Control
open LastWrite (lastHit)
open Msg (JointCommand)
open Runs (Run Along)

structure Slot (K : Type*) where
  name : String
  position : K
  velocity : K
  effort : K
  stiffness : K
  damping : K
  deriving DecidableEq

namespace Slot
variable {K : Type*}

def of [Zero K] (msg : JointCommand K) (i : ℕ) : Slot K :=
  ⟨msg.name.getD i "", msg.position.getD i 0, msg.velocity.getD i 0, msg.effort.getD i 0,
    msg.stiffness.getD i 0, msg.damping.getD i 0⟩

def shift [Add K] (offset : K) (e : Slot K) : Slot K := { e with position := e.position + offset }

def entries [Zero K] (cmd : JointCommand K) : List (Slot K) :=
  cmd.name.zipIdx.map fun e => { Slot.of cmd e.2 with name := e.1 }

def naming (joint : String) (e : Slot K) : Option (Slot K) := if e.name = joint then some e else none

end Slot

namespace ControlModule
variable {K : Type*}

def slotOf (m : ControlModule K) (name : String) : ℕ :=
  ((m.jointCmdIndexMap.at? name).getD 0).toNat

def landing (m : ControlModule K) (i : ℕ) (e : Slot K) : Option (Slot K) :=
  if m.slotOf e.name = i then some e else none

theorem landing_eq_some {m : ControlModule K} {i : ℕ} {e e' : Slot K} (h : m.landing i e = some e') :
    e' = e ∧ m.slotOf e.name = i := by
  unfold landing at h
  split_ifs at h with hslot
  cases h
  exact ⟨rfl, hslot⟩

theorem landing_of_slotOf {m : ControlModule K} {i : ℕ} {e : Slot K} (h : m.slotOf e.name = i) :
    m.landing i e = some e := by
  unfold landing
  rw [if_pos h]

structure SameOutput (m n : ControlModule K) : Prop where
  cmdMsg : n.cmdMsg = m.cmdMsg
  indices : n.jointCmdIndexMap = m.jointCmdIndexMap
  offsets : n.jointOffsetMap = m.jointOffsetMap

theorem sameOutput_frame : Frame (SameOutput (K := K)) where
  refl _ := ⟨rfl, rfl, rfl⟩
  trans h h' :=
    ⟨h'.cmdMsg.trans h.cmdMsg, h'.indices.trans h.indices, h'.offsets.trans h.offsets⟩
  set _ _ _ _ _ := ⟨rfl, rfl, rfl⟩
  note _ _ _ := ⟨rfl, rfl, rfl⟩

theorem sameOutput_handle [Field K] {m n : ControlModule K} {c : Reception.Callback K}
    (h : m.handle c = some n) : m.SameOutput n := by
  refine sameOutput_frame.handle (fun msg _ => ?_) h
  unfold noteIndices
  dsimp only
  split_ifs
  · exact ⟨rfl, rfl, rfl⟩
  · exact sameOutput_frame.refl m

section Merge
variable [Field K]

structure Sized (n : ℕ) (msg : JointCommand K) : Prop where
  name : msg.name.length = n
  position : msg.position.length = n
  velocity : msg.velocity.length = n
  effort : msg.effort.length = n
  stiffness : msg.stiffness.length = n
  damping : msg.damping.length = n

def offsetOf (m : ControlModule K) (name : String) : K := (m.jointOffsetMap.lookup name).getD 0

structure Extends (m n : ControlModule K) : Prop where
  indices : n.jointCmdIndexMap = m.jointCmdIndexMap
  offsets : ∀ name, n.offsetOf name = m.offsetOf name
  sized : ∀ size, Sized size m.cmdMsg → Sized size n.cmdMsg

theorem SameOutput.extends {m n : ControlModule K} (h : m.SameOutput n) : m.Extends n where
  indices := h.indices
  offsets name := by rw [offsetOf, h.offsets, offsetOf]
  sized _ hsize := h.cmdMsg ▸ hsize

theorem Extends.trans {m n o : ControlModule K} (h : m.Extends n) (h' : n.Extends o) :
    m.Extends o :=
  ⟨h'.indices.trans h.indices, fun name => (h'.offsets name).trans (h.offsets name),
    fun size hsize => h'.sized size (h.sized size hsize)⟩

theorem Extends.slotOf {m n : ControlModule K} (h : m.Extends n) (name : String) :
    n.slotOf name = m.slotOf name := by
  unfold ControlModule.slotOf
  rw [h.indices]

theorem Extends.landing {m n : ControlModule K} (h : m.Extends n) (i : ℕ) :
    n.landing (K := K) i = m.landing i := by
  funext e
  unfold ControlModule.landing
  rw [h.slotOf]

theorem extends_mergeJoint (m : ControlModule K) (cmd : JointCommand K) (ii : ℕ) (name : String) :
    m.Extends (m.mergeJoint cmd ii name) := by
  refine ⟨rfl, fun other => ?_, fun size hsize => ?_⟩
  · unfold offsetOf mergeJoint
    dsimp only
    split_ifs with hsome
    · rfl
    · rw [List.lookup_append]
      by_cases hname : other = name
      · subst hname
        have hnone : m.jointOffsetMap.lookup other = none :=
          Option.not_isSome_iff_eq_none.mp hsome
        simp [hnone]
      · have hbeq : (other == name) = false := by simpa using hname
        simp [List.lookup_cons, hbeq]
  · constructor <;> simp [mergeJoint, hsize.name, hsize.position, hsize.velocity, hsize.effort,
      hsize.stiffness, hsize.damping]

theorem getD_set {α : Type*} {l : List α} {i : ℕ} (h : i < l.length) (j : ℕ) (x d : α) :
    (l.set j x).getD i d = if j = i then x else l.getD i d := by
  rw [List.getD_eq_getElem?_getD, List.getElem?_set, List.getD_eq_getElem?_getD]
  split_ifs with hj hlt
  · rfl
  · omega
  · rfl

theorem of_mergeJoint {m : ControlModule K} {size : ℕ} (hsize : Sized size m.cmdMsg) {i : ℕ}
    (hi : i < size) (cmd : JointCommand K) (ii : ℕ) (name : String) :
    Slot.of (m.mergeJoint cmd ii name).cmdMsg i =
      if m.slotOf name = i then
        Slot.shift (m.offsetOf name) { Slot.of cmd ii with name := name }
      else Slot.of m.cmdMsg i := by
  simp only [Slot.of, mergeJoint, getD_set (hsize.name.symm ▸ hi), getD_set (hsize.position.symm ▸ hi),
    getD_set (hsize.velocity.symm ▸ hi), getD_set (hsize.effort.symm ▸ hi),
    getD_set (hsize.stiffness.symm ▸ hi), getD_set (hsize.damping.symm ▸ hi)]
  unfold ControlModule.slotOf
  split_ifs <;> rfl

def mergeIndexed (cmd : JointCommand K) (m : ControlModule K) (e : String × ℕ) : ControlModule K :=
  m.mergeJoint cmd e.2 e.1

theorem extends_merge (m : ControlModule K) (cmd : JointCommand K) : m.Extends (m.merge cmd) :=
  Runs.foldl_invariant (mergeIndexed cmd) m.Extends (sameOutput_frame.refl m).extends
    (fun n e h => h.trans (extends_mergeJoint n cmd e.2 e.1)) cmd.name.zipIdx

theorem of_merge {m : ControlModule K} {size : ℕ} (hsize : Sized size m.cmdMsg) {i : ℕ}
    (hi : i < size) (cmd : JointCommand K) :
    Slot.of (m.merge cmd).cmdMsg i =
      ((lastHit (m.landing i) (Slot.entries cmd)).map fun e =>
        e.shift (m.offsetOf e.name)).getD (Slot.of m.cmdMsg i) := by
  unfold Slot.entries
  rw [LastWrite.lastHit_map, ← LastWrite.lastHit_map_hit]
  refine LastWrite.view_foldl _ (mergeIndexed cmd) (fun m => Slot.of m.cmdMsg i)
    m.Extends (fun n e h => h.trans (extends_mergeJoint n cmd e.2 e.1)) ?_ cmd.name.zipIdx
    (sameOutput_frame.refl m).extends
  intro n e h
  refine (of_mergeJoint (h.sized size hsize) hi cmd e.2 e.1).trans ?_
  rw [h.slotOf, h.offsets]
  unfold ControlModule.landing
  split_ifs <;> rfl

end Merge
end ControlModule
/-- A cycle of `MainLoop`: the controllers that were active, what was taken of them in
turn, the message before the cycle and the one that was published. -/
structure Cycle (K : Type*) where
  active : List String
  taken : List (String × JointCommand K)
  base : JointCommand K
  published : JointCommand K

namespace Cycle
variable {K : Type*} [Field K]

def allEntries (taken : List (String × JointCommand K)) : List (Slot K) :=
  taken.flatMap fun t => Slot.entries t.2

def saying (joint : String) (t : String × JointCommand K) : Option (Slot K) :=
  lastHit (Slot.naming joint) (Slot.entries t.2)

/-- Slot `i` is written for its joint only, and holds what the last active controller
says of it, else what it held. -/
structure RightAt (m : ControlModule K) (c : Cycle K) (i : ℕ) (joint : String) : Prop where
  carries : ∀ e, lastHit (m.landing i) (allEntries c.taken) = some e → e.name = joint
  holds : Slot.of c.published i =
    ((lastHit (saying joint) c.taken).map (Slot.shift (m.offsetOf joint))).getD (Slot.of c.base i)

structure Right (m : ControlModule K) (joints : List String) (c : Cycle K) : Prop where
  listed : c.taken.map Prod.fst = c.active
  slots : ∀ i joint, joints[i]? = some joint → c.RightAt m i joint

end Cycle

/-- Every entry for a joint that is not listed is followed by one for the first joint. -/
def Covered {K : Type*} (joints : List String) (es : List (Slot K)) : Prop :=
  ∀ p e q, es = p ++ e :: q → e.name ∉ joints →
    ∀ first ∈ joints.head?, ∃ e' ∈ q, e'.name = first

theorem covered_iff_tails {K : Type*} (joints : List String) (es : List (Slot K)) :
    (∀ t ∈ es.tails, ∀ e ∈ t.head?, e.name ∉ joints →
      ∀ first ∈ joints.head?, ∃ e' ∈ t.tail, e'.name = first) ↔ Covered joints es := by
  constructor
  · rintro h p e q rfl
    exact h (e :: q) ((List.mem_tails _ _).mpr ⟨p, rfl⟩) e rfl
  · intro h t ht e he
    obtain ⟨p, rfl⟩ := (List.mem_tails _ _).mp ht
    cases t with
    | nil => cases he
    | cons e' q =>
      cases he
      exact h p e q rfl

instance {K : Type*} (joints : List String) (es : List (Slot K)) : Decidable (Covered joints es) :=
  decidable_of_iff _ (covered_iff_tails joints es)

/-- The module with the cycle under way: the controllers that are active in it and what
was taken of them. -/
structure Cycling (K : Type*) where
  module : ControlModule K
  loop : Loop
  active : List String
  taken : List (String × JointCommand K)
  base : JointCommand K
  cycles : List (Cycle K)

namespace Cycling
variable {K : Type*}

/-- A cycle wakes with the list the state machine holds then, whatever it is. -/
inductive Action (K : Type*)
  | wake (active : List String)
  | loop
  | callback (c : Reception.Callback K)

def boot (m : ControlModule K) : Cycling K := ⟨m, .sleep, [], [], m.cmdMsg, []⟩

section Step
variable [Field K] [LinearOrder K] (io : Platform K) (s : Cycling K)

def record : Cycling K :=
  match s.loop with
  | .take name _ =>
    { s with taken := s.taken ++
        (s.module.controllerMap name).toList.map fun c => (name, c.getJointCmdData.1) }
  | .update [] =>
    { s with
      taken := []
      base := s.module.cmdMsg
      cycles := s.cycles ++ [⟨s.active, s.taken, s.base, s.module.cmdMsg⟩] }
  | _ => s

def step : Action K → Option (Cycling K)
  | .wake active =>
    match s.loop with
    | .sleep => some { s with loop := .update active, active := active }
    | _ => none
  | .loop =>
    match s.loop with
    | .sleep => none
    | _ => (ControlModule.loopStep io s.loop s.module).map fun r =>
        { s.record with loop := r.1, module := r.2 }
  | .callback c => (s.module.handle c).map fun m => { s with module := m }

def PublishedRight (m : ControlModule K) (joints : List String) : Prop :=
  ∀ c ∈ s.cycles, c.Right m joints

def Covers (joints : List String) : Action K → Prop
  | .loop =>
    match s.loop with
    | .update [] => Covered joints (Cycle.allEntries s.taken)
    | _ => True
  | _ => True

instance (joints : List String) (a : Action K) : Decidable (s.Covers joints a) := by
  unfold Covers
  split
  · split <;> infer_instance
  · infer_instance

end Step

section Cases
variable [Field K] [LinearOrder K] {io : Platform K} {s t : Cycling K}

theorem wake_cases {active : List String} (h : s.step io (.wake active) = some t) :
    s.loop = .sleep ∧ t = { s with loop := .update active, active := active } := by
  cases hloop : s.loop with
  | sleep =>
    simp only [step, hloop, Option.some.injEq] at h
    exact ⟨rfl, h.symm⟩
  | _ => simp [step, hloop] at h

theorem loop_cases (h : s.step io .loop = some t) :
    (∃ name rest c, s.loop = .update (name :: rest) ∧ s.module.controllerMap name = some c ∧
      t = { s with loop := .take name rest, module := s.module.setController name (c.update io) }) ∨
    (∃ name rest c, s.loop = .take name rest ∧ s.module.controllerMap name = some c ∧
      t = { s with
        loop := .update rest
        module := (s.module.setController name c.getJointCmdData.2).merge c.getJointCmdData.1
        taken := s.taken ++ [(name, c.getJointCmdData.1)] }) ∨
    (s.loop = .update [] ∧
      t = { s with
        loop := .sleep
        module := s.module.publish
        taken := []
        base := s.module.cmdMsg
        cycles := s.cycles ++ [⟨s.active, s.taken, s.base, s.module.cmdMsg⟩] }) := by
  have hawake : s.loop ≠ .sleep := by
    rintro hsleep
    simp [step, hsleep] at h
  have hstep : ((ControlModule.loopStep io s.loop s.module).map fun r =>
      { s.record with loop := r.1, module := r.2 }) = some t := by
    simpa only [step] using h
  obtain ⟨r, hr, rfl⟩ := Option.map_eq_some_iff.mp hstep
  obtain ⟨hloop, _⟩ | ⟨hloop, rfl⟩ | ⟨name, rest, c, hloop, hc, rfl⟩ | ⟨name, rest, c, hloop, hc, rfl⟩ :=
    ControlModule.loopStep_cases hr
  · exact absurd hloop hawake
  · exact .inr (.inr ⟨hloop, by simp [record, hloop]⟩)
  · exact .inl ⟨name, rest, c, hloop, hc, by simp [record, hloop]⟩
  · exact .inr (.inl ⟨name, rest, c, hloop, hc, by simp [record, hloop, hc]⟩)

end Cases

section Right
variable {m : ControlModule K} {joints : List String}

structure Indexed (m : ControlModule K) (joints : List String) : Prop where
  listed : ∀ i joint, joints[i]? = some joint → m.slotOf joint = i
  foreign : ∀ name ∉ joints, m.slotOf name = 0
  sized : ControlModule.Sized joints.length m.cmdMsg

/-- The slot of the first joint is the only one that other entries fall into. -/
theorem carries_iff_covered (h : Indexed m joints) (es : List (Slot K)) :
    (∀ i joint, joints[i]? = some joint → ∀ e, lastHit (m.landing i) es = some e →
      e.name = joint) ↔ Covered joints es := by
  constructor
  · intro hcarries p e q hsplit hforeign first hfirst
    have hzero : joints[0]? = some first := by rwa [← List.head?_eq_getElem?]
    have hcarries := hcarries 0 first hzero
    have hland := ControlModule.landing_of_slotOf (h.foreign e.name hforeign)
    rw [hsplit, List.append_cons, LastWrite.lastHit_append, LastWrite.lastHit_concat, hland]
      at hcarries
    cases hq : lastHit (m.landing 0) q with
    | none =>
      have hname := hcarries e (by rw [hq]; rfl)
      exact absurd (hname ▸ List.mem_of_getElem? hzero) hforeign
    | some e' =>
      obtain ⟨p', e'', q', rfl, hhit, _⟩ := LastWrite.lastHit_eq_some _ hq
      obtain rfl := (ControlModule.landing_eq_some hhit).1
      exact ⟨e', by simp, hcarries e' (by rw [hq]; rfl)⟩
  · intro hcovered i joint hi e hlast
    obtain ⟨p, e', q, hsplit, hhit, hrest⟩ := LastWrite.lastHit_eq_some _ hlast
    obtain ⟨rfl, hslot⟩ := ControlModule.landing_eq_some hhit
    by_cases hlisted : e.name ∈ joints
    · obtain ⟨j, hj⟩ := List.mem_iff_getElem?.mp hlisted
      rw [h.listed j e.name hj] at hslot
      rw [hslot, hi] at hj
      exact (Option.some.inj hj).symm
    · rw [h.foreign e.name hlisted] at hslot
      subst hslot
      obtain ⟨e', he', hname⟩ := hcovered p e q hsplit hlisted joint
        (by rw [List.head?_eq_getElem?]; exact hi)
      have hland := ControlModule.landing_of_slotOf (hname.symm ▸ h.listed 0 joint hi)
      rw [hrest e' he'] at hland
      cases hland

theorem naming_eq_filter (h : Indexed m joints) {i : ℕ} {joint : String}
    (hi : joints[i]? = some joint) :
    Slot.naming (K := K) joint = fun e => (m.landing i e).filter fun e => e.name = joint := by
  funext e
  unfold Slot.naming ControlModule.landing
  by_cases hname : e.name = joint
  · have hslot : m.slotOf e.name = i := by
      rw [hname]
      exact h.listed i joint hi
    rw [if_pos hname, if_pos hslot, Option.filter, if_pos (decide_eq_true hname)]
  · rw [if_neg hname]
    split_ifs
    · rw [Option.filter, if_neg (by simpa using hname)]
    · rfl

variable [Field K]

theorem indexed_at_start {firstEntry : List String → ℕ} {now : ℤ} {conf : Config K}
    (hm : ControlModule.initializeModule firstEntry now conf = some m)
    (hnd : conf.jointList.Nodup) : Indexed m conf.jointList := by
  obtain ⟨machine, _, hm⟩ := Option.bind_eq_some_iff.mp hm
  obtain ⟨controllers, _, rfl⟩ := Option.map_eq_some_iff.mp hm
  have hat (name : String) : IndexMap.at? (conf.jointList.zipIdx.foldl
      (fun m e => m.set e.1 e.2) []) name = (lastPlace conf.jointList name).map Nat.cast := by
    rw [IndexMap.at?_foldl_set]
    simp [IndexMap.at?]
  refine ⟨fun i joint hi => ?_, fun name hname => ?_, ?_⟩
  · unfold ControlModule.slotOf
    rw [hat, lastPlace_of_nodup hnd hi]
    simp
  · unfold ControlModule.slotOf
    rw [hat, lastPlace_eq_none_iff.mpr hname]
    simp
  · constructor <;> simp [zeros, hnd.dedup]

theorem lastHit_saying (h : Indexed m joints) {i : ℕ} {joint : String}
    (hi : joints[i]? = some joint) (taken : List (String × JointCommand K))
    (hcarries : ∀ e, lastHit (m.landing i) (Cycle.allEntries taken) = some e → e.name = joint) :
    lastHit (Cycle.saying joint) taken = lastHit (m.landing i) (Cycle.allEntries taken) := by
  calc lastHit (Cycle.saying joint) taken
      = lastHit (Slot.naming joint) (Cycle.allEntries taken) := by
        unfold Cycle.allEntries
        rw [LastWrite.lastHit_flatMap]
        rfl
    _ = lastHit (m.landing i) (Cycle.allEntries taken) := by
        rw [naming_eq_filter h hi]
        exact LastWrite.lastHit_filter _ fun e he => by simpa using hcarries e he

structure Inv (m : ControlModule K) (size : ℕ) (s : Cycling K) : Prop where
  keeps : m.Extends s.module
  sized : ControlModule.Sized size m.cmdMsg
  slots : ∀ i < size, Slot.of s.module.cmdMsg i =
    ((lastHit (m.landing i) (Cycle.allEntries s.taken)).map fun e =>
      e.shift (m.offsetOf e.name)).getD (Slot.of s.base i)
  progress : match s.loop with
    | .sleep => s.taken = []
    | .update rest => s.taken.map Prod.fst ++ rest = s.active
    | .take name rest => s.taken.map Prod.fst ++ name :: rest = s.active

theorem inv_boot {size : ℕ} (h : ControlModule.Sized size m.cmdMsg) : (boot m).Inv m size where
  keeps := (ControlModule.sameOutput_frame.refl m).extends
  sized := h
  slots _ _ := rfl
  progress := rfl

variable {size : ℕ} {s : Cycling K}

theorem Inv.sameOutput (h : s.Inv m size) {n : ControlModule K} (hn : s.module.SameOutput n) :
    ({ s with module := n } : Cycling K).Inv m size where
  keeps := h.keeps.trans hn.extends
  sized := h.sized
  slots i hi := by
    dsimp only
    rw [hn.cmdMsg]
    exact h.slots i hi
  progress := h.progress

theorem Inv.take (h : s.Inv m size) {name : String} {rest : List String}
    (hloop : s.loop = .take name rest) (n : ControlModule K) (hn : s.module.SameOutput n)
    (cmd : JointCommand K) :
    ({ s with
      loop := .update rest
      module := n.merge cmd
      taken := s.taken ++ [(name, cmd)] } : Cycling K).Inv m size := by
  have hkeeps := h.keeps.trans hn.extends
  refine ⟨hkeeps.trans (ControlModule.extends_merge n cmd), h.sized, fun i hi => ?_, ?_⟩
  · dsimp only
    rw [ControlModule.of_merge (hkeeps.sized size h.sized) hi, hn.cmdMsg, h.slots i hi,
      hkeeps.landing]
    simp only [hkeeps.offsets]
    unfold Cycle.allEntries
    rw [List.flatMap_append, List.flatMap_singleton, LastWrite.lastHit_append]
    cases lastHit (m.landing i) (Slot.entries cmd) <;> rfl
  · have hprogress := h.progress
    rw [hloop] at hprogress
    simpa using hprogress

theorem right_iff_covered (h : s.Inv m size) {joints : List String} (hsize : joints.length = size)
    (hx : Indexed m joints) (hloop : s.loop = .update []) :
    Cycle.Right m joints ⟨s.active, s.taken, s.base, s.module.cmdMsg⟩ ↔
      Covered joints (Cycle.allEntries s.taken) := by
  rw [← carries_iff_covered hx]
  constructor
  · intro hright i joint hi
    exact (hright.slots i joint hi).carries
  · intro hcarries
    have hlisted := h.progress
    rw [hloop] at hlisted
    refine ⟨by simpa using hlisted, fun i joint hi => ⟨hcarries i joint hi, ?_⟩⟩
    have hlt : i < size := hsize ▸ (List.getElem?_eq_some_iff.mp hi).1
    dsimp only
    rw [h.slots i hlt, lastHit_saying hx hi s.taken (hcarries i joint hi)]
    cases hlast : lastHit (m.landing i) (Cycle.allEntries s.taken) with
    | none => rfl
    | some e =>
      have hname := hcarries i joint hi e hlast
      simp [hname]

theorem Inv.wake (h : s.Inv m size) (hloop : s.loop = .sleep) (active : List String) :
    ({ s with loop := .update active, active := active } : Cycling K).Inv m size where
  keeps := h.keeps
  sized := h.sized
  slots := h.slots
  progress := by
    have hempty := h.progress
    rw [hloop] at hempty
    simpa using hempty

theorem Inv.publish (h : s.Inv m size) :
    ({ s with
      loop := .sleep
      module := s.module.publish
      taken := []
      base := s.module.cmdMsg
      cycles := s.cycles ++ [⟨s.active, s.taken, s.base, s.module.cmdMsg⟩] } :
        Cycling K).Inv m size where
  keeps := ⟨h.keeps.indices, h.keeps.offsets, h.keeps.sized⟩
  sized := h.sized
  slots _ _ := rfl
  progress := rfl

section Step
variable [LinearOrder K] {io : Platform K} {t : Cycling K}

theorem inv_step (h : s.Inv m size) {a : Action K} (hstep : s.step io a = some t) :
    t.Inv m size := by
  cases a with
  | wake active =>
    obtain ⟨hloop, rfl⟩ := wake_cases hstep
    exact h.wake hloop active
  | loop =>
    obtain ⟨name, rest, c, hloop, hc, rfl⟩ | ⟨name, rest, c, hloop, hc, rfl⟩ | ⟨_, rfl⟩ :=
      loop_cases hstep
    · have hsame := h.sameOutput (ControlModule.sameOutput_frame.set s.module name c (c.update io) hc)
      refine ⟨hsame.keeps, hsame.sized, hsame.slots, ?_⟩
      have hprogress := h.progress
      rw [hloop] at hprogress
      exact hprogress
    · exact h.take hloop _ (ControlModule.sameOutput_frame.set s.module name c _ hc) _
    · exact h.publish
  | callback c =>
    obtain ⟨n, hn, rfl⟩ := Option.map_eq_some_iff.mp hstep
    exact h.sameOutput (ControlModule.sameOutput_handle hn)

theorem right_step (h : s.Inv m joints.length) (hx : Indexed m joints) {a : Action K}
    (hstep : s.step io a = some t) :
    t.PublishedRight m joints ↔ s.PublishedRight m joints ∧ s.Covers joints a := by
  unfold PublishedRight
  cases a with
  | wake active =>
    obtain ⟨_, rfl⟩ := wake_cases hstep
    simp [Covers]
  | loop =>
    obtain ⟨name, rest, c, hloop, _, rfl⟩ | ⟨name, rest, c, hloop, _, rfl⟩ | ⟨hloop, rfl⟩ :=
      loop_cases hstep
    · simp [Covers, hloop]
    · simp [Covers, hloop]
    · have hright := right_iff_covered h rfl hx hloop
      simp only [Covers, hloop, List.mem_append, List.mem_singleton, or_imp, forall_and,
        forall_eq, hright]
  | callback c =>
    obtain ⟨n, hn, rfl⟩ := Option.map_eq_some_iff.mp hstep
    simp [Covers]

end Step

/-- Every published message of a run is right exactly if in every cycle each entry for a
joint that is not listed was followed by one for the first joint. -/
theorem published_right_iff [LinearOrder K] (io : Platform K) {firstEntry : List String → ℕ}
    {now : ℤ} {conf : Config K} (hm : ControlModule.initializeModule firstEntry now conf = some m)
    (hnd : conf.jointList.Nodup) {as : List (Action K)} (h : Run (step io) (boot m) as s) :
    s.PublishedRight m conf.jointList ↔
      Along (step io) (fun s a => s.Covers conf.jointList a) (boot m) as := by
  have hx := indexed_at_start hm hnd
  refine h.iff_along (fun s a => s.Covers conf.jointList a)
    (fun s => s.PublishedRight m conf.jointList) (by simp [boot, PublishedRight]) ?_
  intro p s a t hr ht
  have hinv : s.Inv m conf.jointList.length :=
    hr.invariant (fun s => s.Inv m conf.jointList.length) (inv_boot hx.sized)
      fun _ _ _ h ht => inv_step h ht
  exact right_step hinv hx ht

end Right
section Waist

def waistConfig : Config ℚ :=
  let pd (joints : List String) : ControllerNode ℚ := ⟨joints, [1, 2], [80, 60], [2, 1], none, none⟩
  { robotStates := [⟨"idle", "/idle_mode", ["idle"], ["pd_legs"]⟩]
    controllers := [("pd_legs", pd ["waist", "hip"]), ("pd_body", pd ["knee", "waist"])]
    jointList := ["hip", "knee"]
    jointOffset := [("hip", 3)] }

theorem waist_initializes :
    (ControlModule.initializeModule (fun _ => 0) 0 waistConfig).isSome = true := by
  decide +kernel

def waist : ControlModule ℚ :=
  (ControlModule.initializeModule (fun _ => 0) 0 waistConfig).get waist_initializes

def bodyFirst : List (Action ℚ) :=
  [.wake ["pd_body", "pd_legs"], .loop, .loop, .loop, .loop, .loop]

def bodyLast : List (Action ℚ) :=
  [.wake ["pd_legs", "pd_body"], .loop, .loop, .loop, .loop, .loop]

theorem bodyFirst_runs :
    (Runs.exec (step Reception.upright) (boot waist) bodyFirst).isSome = true := by
  decide +kernel

theorem bodyLast_runs :
    (Runs.exec (step Reception.upright) (boot waist) bodyLast).isSome = true := by
  decide +kernel

theorem published_right_bodyFirst :
    ((Runs.exec (step Reception.upright) (boot waist) bodyFirst).get
      bodyFirst_runs).PublishedRight waist waistConfig.jointList :=
  (published_right_iff Reception.upright (Option.some_get waist_initializes).symm (by decide)
    (Runs.run_of_exec bodyFirst (Option.some_get _).symm)).mpr
    (Runs.along_of_guardsHold (by decide +kernel))

theorem waist_in_slot_of_hip :
    ¬ ∀ as s, Run (step Reception.upright) (boot waist) as s →
      s.PublishedRight waist waistConfig.jointList := by
  intro h
  have hright := h bodyLast _ (Runs.run_of_exec bodyLast (Option.some_get bodyLast_runs).symm)
  have hholds : ∀ c ∈ ((Runs.exec (step Reception.upright) (boot waist) bodyLast).get
      bodyLast_runs).cycles, Slot.of c.published 0 =
        ((lastHit (Cycle.saying "hip") c.taken).map (Slot.shift (waist.offsetOf "hip"))).getD
          (Slot.of c.base 0) :=
    fun c hc => ((hright c hc).slots 0 "hip" rfl).holds
  revert hholds
  decide +kernel

end Waist

end Cycling
end MybipedalDeploy.Control
