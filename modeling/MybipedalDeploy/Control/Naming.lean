import MybipedalDeploy.Control.MatchedByName

/-!
# The names of the published messages

The message starts without names; a slot gets the name of its joint with the first command
for it and keeps it. A message names exactly the joints that were commanded so far.
-/

namespace MybipedalDeploy.Control
open LastWrite (lastHit)
open Msg (JointCommand)

/-- No controller has a joint that `joint_list` lacks. -/
def Config.Listed {K : Type*} (conf : Config K) : Prop :=
  ∀ e ∈ conf.controllers, ∀ joint ∈ e.2.jointList, joint ∈ conf.jointList

namespace Cycle
variable {K : Type*} [Field K]

def commanded (cycles : List (Cycle K)) : List String :=
  cycles.flatMap fun c => (allEntries c.taken).map Slot.name

theorem commanded_concat (cycles : List (Cycle K)) (c : Cycle K) :
    commanded (cycles ++ [c]) = commanded cycles ++ (allEntries c.taken).map Slot.name := by
  unfold commanded
  rw [List.flatMap_append, List.flatMap_singleton]

theorem names_allEntries_concat (taken : List (String × JointCommand K))
    (t : String × JointCommand K) :
    (allEntries (taken ++ [t])).map Slot.name = (allEntries taken).map Slot.name ++ t.2.name := by
  unfold allEntries Slot.entries
  rw [List.flatMap_append, List.flatMap_singleton, List.map_append, List.map_map]
  exact congrArg _ (List.zipIdx_map_fst 0 t.2.name)

end Cycle

def NamesKnown {K : Type*} (joints known : List String) (msg : JointCommand K) : Prop :=
  ∀ i joint, joints[i]? = some joint → msg.name.getD i "" = if joint ∈ known then joint else ""

theorem NamesKnown.mem_iff {K : Type*} [Field K] {joints known : List String} {msg : JointCommand K}
    (h : NamesKnown joints known msg) (hsized : ControlModule.Sized joints.length msg)
    (hknown : ∀ joint ∈ known, joint ∈ joints) {joint : String} (hne : joint ≠ "") :
    joint ∈ msg.name ↔ joint ∈ known := by
  constructor
  · intro hmem
    obtain ⟨i, hi⟩ := List.mem_iff_getElem?.mp hmem
    have hlt : i < joints.length := hsized.name ▸ (List.getElem?_eq_some_iff.mp hi).1
    have hslot := h i joints[i] (List.getElem?_eq_getElem hlt)
    rw [List.getD_eq_getElem?_getD, hi, Option.getD_some] at hslot
    split_ifs at hslot with hold
    · exact hslot.symm ▸ hold
    · exact absurd hslot hne
  · intro hmem
    obtain ⟨i, hi⟩ := List.mem_iff_getElem?.mp (hknown joint hmem)
    have hlt : i < msg.name.length := hsized.name.symm ▸ (List.getElem?_eq_some_iff.mp hi).1
    have hslot := h i joint hi
    rw [if_pos hmem, List.getD_eq_getElem?_getD, List.getElem?_eq_getElem hlt,
      Option.getD_some] at hslot
    exact hslot ▸ List.getElem_mem hlt

namespace Cycling
variable {K : Type*} [Field K] {m : ControlModule K} {joints : List String}
open ControlModule (Sized Wired Fits)

structure Named (m : ControlModule K) (joints : List String) (s : Cycling K) : Prop where
  slots : s.Inv m joints.length
  taken : ∀ joint ∈ (Cycle.allEntries s.taken).map Slot.name, joint ∈ joints
  commanded : ∀ joint ∈ Cycle.commanded s.cycles, joint ∈ joints
  base : NamesKnown joints (Cycle.commanded s.cycles) s.base
  published : ∀ k c, s.cycles[k]? = some c → Sized joints.length c.published ∧
    NamesKnown joints (Cycle.commanded (s.cycles.take (k + 1))) c.published

variable {s t : Cycling K}

theorem named_boot (hx : Indexed m joints) (hnames : ∀ i, m.cmdMsg.name.getD i "" = "") :
    (boot m).Named m joints where
  slots := inv_boot hx.sized
  taken := by simp [boot, Cycle.allEntries]
  commanded := by simp [boot, Cycle.commanded]
  base i joint _ := by simpa [boot, Cycle.commanded] using hnames i
  published k c hc := by simp [boot] at hc

theorem Named.current (h : s.Named m joints) (hx : Indexed m joints) :
    NamesKnown joints (Cycle.commanded s.cycles ++ (Cycle.allEntries s.taken).map Slot.name)
      s.module.cmdMsg := by
  intro i joint hi
  have hlt : i < joints.length := (List.getElem?_eq_some_iff.mp hi).1
  have hslot := congrArg Slot.name (h.slots.slots i hlt)
  change s.module.cmdMsg.name.getD i "" = _ at hslot
  have hlands : ∀ e ∈ Cycle.allEntries s.taken, m.slotOf e.name = i ↔ e.name = joint := by
    intro e he
    constructor
    · intro hland
      obtain ⟨j, hj⟩ := List.mem_iff_getElem?.mp (h.taken e.name (List.mem_map_of_mem he))
      rw [hx.listed j e.name hj] at hland
      rw [hland, hi] at hj
      exact (Option.some.inj hj).symm
    · intro hname
      rw [hname]
      exact hx.listed i joint hi
  cases hlast : lastHit (m.landing i) (Cycle.allEntries s.taken) with
  | some e =>
    obtain ⟨p, e', q, hsplit, hhit, _⟩ := LastWrite.lastHit_eq_some _ hlast
    obtain ⟨rfl, hland⟩ := ControlModule.landing_eq_some hhit
    have hmem : e ∈ Cycle.allEntries s.taken := by simp [hsplit]
    have hname := (hlands e hmem).mp hland
    have hknown : joint ∈ (Cycle.allEntries s.taken).map Slot.name :=
      hname ▸ List.mem_map_of_mem hmem
    rw [hlast] at hslot
    rw [if_pos (List.mem_append_right _ hknown), hslot]
    exact hname
  | none =>
    have hnew : joint ∉ (Cycle.allEntries s.taken).map Slot.name := by
      intro hmem
      obtain ⟨e, he, hname⟩ := List.mem_map.mp hmem
      have hnone := (LastWrite.lastHit_eq_none_iff _).mp hlast e he
      rw [ControlModule.landing_of_slotOf ((hlands e he).mpr hname)] at hnone
      cases hnone
    rw [hlast] at hslot
    simp only [List.mem_append, hnew, or_false]
    exact hslot.trans (h.base i joint hi)

theorem named_step [LinearOrder K] {io : Platform K} {conf : Config K} {place : String → ℕ}
    (h : s.Named m conf.jointList) (hx : Indexed m conf.jointList) (hlisted : conf.Listed)
    (hwired : s.module.Wired conf place) {a : Action K} (hstep : s.step io a = some t) :
    t.Named m conf.jointList := by
  have hslots := inv_step h.slots hstep
  cases a with
  | wake active =>
    obtain ⟨_, rfl⟩ := wake_cases hstep
    exact ⟨hslots, h.taken, h.commanded, h.base, h.published⟩
  | callback c =>
    obtain ⟨n, _, rfl⟩ := Option.map_eq_some_iff.mp hstep
    exact ⟨hslots, h.taken, h.commanded, h.base, h.published⟩
  | loop =>
    obtain ⟨name, rest, c, _, _, rfl⟩ | ⟨name, rest, c, _, hc, rfl⟩ | ⟨_, rfl⟩ := loop_cases hstep
    · exact ⟨hslots, h.taken, h.commanded, h.base, h.published⟩
    · refine ⟨hslots, fun joint hjoint => ?_, h.commanded, h.base, h.published⟩
      rw [Cycle.names_allEntries_concat] at hjoint
      rcases List.mem_append.mp hjoint with hjoint | hjoint
      · exact h.taken joint hjoint
      · obtain ⟨node, hnode, hshaped⟩ := hwired.shaped name c hc
        obtain ⟨e, he, rfl⟩ := List.mem_map.mp hnode
        rw [ControlModule.name_getJointCmdData, hshaped.names] at hjoint
        exact hlisted e he joint hjoint
    · have hcurrent := h.current hx
      rw [← Cycle.commanded_concat s.cycles ⟨s.active, s.taken, s.base, s.module.cmdMsg⟩] at hcurrent
      refine ⟨hslots, by simp [Cycle.allEntries], fun joint hjoint => ?_, hcurrent, fun k c hc => ?_⟩
      · rw [Cycle.commanded_concat] at hjoint
        rcases List.mem_append.mp hjoint with hjoint | hjoint
        · exact h.commanded joint hjoint
        · exact h.taken joint hjoint
      · rcases Nat.lt_or_ge k s.cycles.length with hk | hk
        · rw [List.getElem?_append_left hk] at hc
          rw [List.take_append_of_le_length hk]
          exact h.published k c hc
        · have hlt := (List.getElem?_eq_some_iff.mp hc).1
          rw [List.length_append, List.length_singleton] at hlt
          obtain rfl : k = s.cycles.length := by omega
          rw [List.getElem?_concat_length] at hc
          cases hc
          rw [List.take_of_length_le (by simp)]
          exact ⟨h.slots.keeps.sized _ h.slots.sized, hcurrent⟩

theorem named_at_start {firstEntry : List String → ℕ} {now : ℤ} {conf : Config K}
    (hm : ControlModule.initializeModule firstEntry now conf = some m)
    (hnd : conf.jointList.Nodup) : (boot m).Named m conf.jointList := by
  refine named_boot (indexed_at_start hm hnd) fun i => ?_
  obtain ⟨machine, _, hm⟩ := Option.bind_eq_some_iff.mp hm
  obtain ⟨controllers, _, rfl⟩ := Option.map_eq_some_iff.mp hm
  rw [List.getD_eq_getElem?_getD]
  cases hname : (List.replicate conf.jointList.dedup.length "")[i]? with
  | none => rfl
  | some name => exact List.eq_of_mem_replicate (List.mem_of_getElem? hname)

end Cycling
end MybipedalDeploy.Control
