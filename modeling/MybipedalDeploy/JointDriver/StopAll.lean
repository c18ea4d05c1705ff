import Mathlib.Data.Rat.Floor
import MybipedalDeploy.JointDriver.Requests

/-!
# Stopping every actuator

The three nested loops are one loop over the attached actuators, left at the
first actuator that does not acknowledge. The stop frames it queues are read off
the history of each bus.
-/

namespace MybipedalDeploy.JointDriver.XyberController
open Threads (Thread Outcome)
open RobstrideMotor (commStop)
variable {K : Type*} [Field K]

def targets (w : XyberController K) : List Target :=
  w.deviceOrder.flatMap fun d => (w.device d).active.flatMap fun i =>
    (w.port ⟨d, i⟩).bus.registry.actuatorByName.map fun e => ⟨⟨d, i⟩, e.1, e.2⟩

def disableAt : Target → Thread (XyberController K) Bool := requestAt .stateDisable .stateEnable

def stopFrame : CanId → CanFrame := CanBus.requestFrame .stateDisable

theorem disableAllActuator_eq :
    (disableAllActuator : Thread (XyberController K) Bool) =
      .look fun w => Thread.forAll disableAt w.targets := by
  refine congrArg Thread.look (funext fun w => ?_)
  simp only [targets, Thread.forAll_flatMap, Thread.forAll_map]
  refine congrArg (Thread.forAll · w.deviceOrder) (funext fun d => ?_)
  simp only [disableDevice, Port.disableAll, Thread.lift_forAll, Thread.forAll_map, disableAt, requestAt,
    Port.disableActuator]

theorem stopFrame_injective : Function.Injective stopFrame := CanBus.requestFrame_injective _

theorem mem_targets {w : XyberController K} {t : Target} :
    t ∈ w.targets ↔ t.ref.device ∈ w.deviceOrder ∧ w.registration.Has t := by
  simp only [targets, List.mem_flatMap, List.mem_map, CanDevice.mem_active]
  constructor
  · rintro ⟨d, hd, i, hi, e, he, rfl⟩
    obtain ⟨b, hb⟩ := Option.isSome_iff_exists.mp hi
    refine ⟨hd, Option.bind_eq_some_iff.mpr ⟨b.registry, ?_, ?_⟩⟩
    · simp [registration, busAt, hb]
    · rw [Registry.getActuator_eq_some]
      simpa [port, busAt, hb] using he
  · rintro ⟨hd, ht⟩
    have hport := Registration.Has.port ht
    exact ⟨t.ref.device, hd, t.ref.bus, hport.1, (t.name, t.id),
      Registry.getActuator_eq_some.mp hport.2, rfl⟩

theorem nodup_targets (w : XyberController K) : w.targets.Nodup := by
  have hnames : ∀ ref : BusRef, ((w.port ref).bus.registry.actuatorByName.map fun e =>
      (⟨ref, e.1, e.2⟩ : Target)).Nodup := by
    intro ref
    refine List.Nodup.map ?_ (List.Nodup.of_map _ (w.port ref).bus.registry.nodup_names)
    rintro ⟨a, x⟩ ⟨b, y⟩ h
    simpa using h
  refine List.nodup_flatMap.mpr ⟨fun d _ => List.nodup_flatMap.mpr ⟨fun i _ => hnames _, ?_⟩, ?_⟩
  · refine ((List.nodup_finRange 4).filter _).imp ?_
    intro i j hij t hi hj
    obtain ⟨_, _, rfl⟩ := List.mem_map.mp hi
    obtain ⟨_, _, hj⟩ := List.mem_map.mp hj
    exact hij (congrArg (fun t : Target => t.ref.bus) hj).symm
  · refine w.nodup.imp ?_
    intro d d' hd t hi hj
    obtain ⟨i, _, hi⟩ := List.mem_flatMap.mp hi
    obtain ⟨_, _, rfl⟩ := List.mem_map.mp hi
    obtain ⟨j, _, hj⟩ := List.mem_flatMap.mp hj
    obtain ⟨_, _, hj⟩ := List.mem_map.mp hj
    exact hd (congrArg (fun t : Target => t.ref.device) hj).symm

section Stop
variable [LinearOrder K] [FloorSemiring K] (events : ℕ → List (Event K))

/-- Every stop request finds room, and every actuator but the last acknowledges its own. -/
def StopsReach : List Target → ℕ → XyberController K → Prop
  | [], _, _ => True
  | t :: ts, n, w =>
    let r := (disableAt t).run (others events) n w
    Room events .stateDisable t n w ∧ (ts = [] ∨ Acknowledges events .stateDisable t n w ∧ StopsReach ts r.tick r.state)

open Classical in
theorem run_disableAt {w : XyberController K} {t : Target} (ht : w.registration.Has t) (n : ℕ) :
    let r := (disableAt t).run (others events) n w
    r.state.registration = w.registration ∧
      (∀ ref, r.state.sentOnce ref = w.sentOnce ref ++
        if ref = t.ref ∧ Room events .stateDisable t n w then [stopFrame t.id] else []) ∧
      (r.value = true ↔ Acknowledges events .stateDisable t n w) :=
  run_requestAt events (by decide) ht n

open Classical in
theorem mem_stop_iff {r : Registration} {t t' : Target} (ht : r.Has t) (ht' : r.Has t')
    (room : Prop) :
    stopFrame t'.id ∈ (if t'.ref = t.ref ∧ room then [stopFrame t.id] else []) ↔
      t' = t ∧ room := by
  split_ifs with h
  · simp only [List.mem_singleton, stopFrame_injective.eq_iff, h.2, and_true]
    exact ⟨fun hid => ht'.unique ht h.1 hid, fun he => congrArg Target.id he⟩
  · simp only [List.not_mem_nil, false_iff]
    rintro ⟨rfl, hroom⟩
    exact h ⟨rfl, hroom⟩

def StopsOf (ts : List Target) (ext : BusRef → List CanFrame) : Prop :=
  ∀ ref f, f ∈ ext ref → ∃ t ∈ ts, t.ref = ref ∧ f = stopFrame t.id

section Cons
open Classical
variable {t : Target} {ts : List Target} {ext : BusRef → List CanFrame}

theorem StopsOf.cons (hown : StopsOf ts ext) (room : Prop) :
    StopsOf (t :: ts) fun ref => (if ref = t.ref ∧ room then [stopFrame t.id] else []) ++ ext ref := by
  intro ref f hf
  rcases List.mem_append.mp hf with hf | hf
  · split_ifs at hf with h
    · exact ⟨t, List.mem_cons_self, h.1.symm, List.mem_singleton.mp hf⟩
    · simp at hf
  · obtain ⟨t', ht', hrest⟩ := hown ref f hf
    exact ⟨t', List.mem_cons_of_mem t ht', hrest⟩

theorem StopsOf.forall_cons_iff {r : Registration} (hown : StopsOf ts ext) (hfresh : t ∉ ts)
    (hts : ∀ t' ∈ t :: ts, r.Has t') (room : Prop) :
    (∀ t' ∈ t :: ts, stopFrame t'.id ∈
        (if t'.ref = t.ref ∧ room then [stopFrame t.id] else []) ++ ext t'.ref) ↔
      room ∧ ∀ t' ∈ ts, stopFrame t'.id ∈ ext t'.ref := by
  have ht := hts t List.mem_cons_self
  have hhead : stopFrame t.id ∉ ext t.ref := by
    intro h
    obtain ⟨t', ht', href, hid⟩ := hown _ _ h
    have heq := ht.unique (hts t' (List.mem_cons_of_mem t ht')) href.symm (stopFrame_injective hid)
    exact hfresh (heq ▸ ht')
  have htail : ∀ t' ∈ ts, (stopFrame t'.id ∈
      (if t'.ref = t.ref ∧ room then [stopFrame t.id] else []) ++ ext t'.ref ↔
        stopFrame t'.id ∈ ext t'.ref) := by
    intro t' ht'
    rw [List.mem_append, mem_stop_iff ht (hts t' (List.mem_cons_of_mem t ht'))]
    exact or_iff_right fun h => hfresh (h.1 ▸ ht')
  rw [List.forall_mem_cons, forall₂_congr htail, List.mem_append, mem_stop_iff ht ht,
    or_iff_left hhead, and_iff_right rfl]

end Cons

theorem run_forAll_disableAt {ts : List Target} (hnd : ts.Nodup) (n : ℕ) (w : XyberController K)
    (hts : ∀ t ∈ ts, w.registration.Has t) :
    let r := (Thread.forAll disableAt ts).run (others events) n w
    r.state.registration = w.registration ∧
      ∃ ext : BusRef → List CanFrame,
        (∀ ref, r.state.sentOnce ref = w.sentOnce ref ++ ext ref) ∧ StopsOf ts ext ∧
        ((∀ t ∈ ts, stopFrame t.id ∈ ext t.ref) ↔ StopsReach events ts n w) := by
  classical
  induction ts generalizing n w with
  | nil =>
    exact ⟨rfl, fun _ => [], by simp [Thread.forAll, Thread.run], by simp [StopsOf], by simp [StopsReach]⟩
  | cons t ts ih =>
    obtain ⟨hfresh, hnd⟩ := List.nodup_cons.mp hnd
    obtain ⟨hreg, hsent, hvalue⟩ := run_disableAt events (hts t List.mem_cons_self) n
    simp only [Thread.run_forAll_cons, StopsReach]
    by_cases hack : Acknowledges events .stateDisable t n w
    · obtain ⟨hreg', ext, hext, hown, hiff⟩ := ih hnd _ _ fun t' ht' => by
        rw [hreg]
        exact hts t' (List.mem_cons_of_mem t ht')
      simp only [hvalue.mpr hack, if_true]
      refine ⟨hreg'.trans hreg, _, fun ref => by rw [hext, hsent, List.append_assoc], hown.cons _, ?_⟩
      rw [hown.forall_cons_iff hfresh hts, hiff]
      refine and_congr Iff.rfl ⟨fun h => .inr ⟨hack, h⟩, ?_⟩
      rintro (rfl | ⟨-, h⟩)
      · trivial
      · exact h
    · -- The loop is left here, and the targets behind `t` get no frame at all.
      have hfail : ((disableAt t).run (others events) n w).value = false := by
        simpa using mt hvalue.mp hack
      have hown : StopsOf ts fun _ => [] := by simp [StopsOf]
      simp only [hfail, Bool.false_eq_true, if_false]
      refine ⟨hreg, _, fun ref => (hsent ref).trans (by rw [List.append_nil]), hown.cons _, ?_⟩
      rw [hown.forall_cons_iff hfresh hts]
      simp [List.eq_nil_iff_forall_not_mem, hack]

def StopQueued (w w' : XyberController K) (t : Target) : Prop :=
  ∃ f ∈ (w'.sentOnce t.ref).drop (w.sentOnce t.ref).length,
    f.commType = commStop ∧ f.motorId = t.id.val

omit [LinearOrder K] [FloorSemiring K] in
theorem StopQueued.id_eq {w w' : XyberController K} {t : Target} (h : StopQueued w w' t) {id : CanId}
    (hsent : w'.sentOnce t.ref = [stopFrame id]) : id = t.id := by
  obtain ⟨f, hf, -, hid⟩ := h
  have hqueued := List.mem_of_mem_drop hf
  rw [hsent, List.mem_singleton] at hqueued
  rw [hqueued, stopFrame, CanBus.requestFrame_motorId] at hid
  exact CanId.ext hid

/-- One call stops every attached actuator exactly if every one but the last, in
the order of the maps, acknowledges, and the queues have room. -/
theorem disableAllActuator_stops_iff (n : ℕ) (w : XyberController K) :
    (∀ t, t.ref.device ∈ w.deviceOrder → w.registration.Has t →
      StopQueued w (disableAllActuator.run (others events) n w).state t) ↔
        StopsReach events w.targets n w := by
  obtain ⟨-, ext, hext, hown, hiff⟩ := run_forAll_disableAt events w.nodup_targets n w
    fun t ht => (mem_targets.mp ht).2
  have hrun : disableAllActuator.run (others events) n w =
      (Thread.forAll disableAt w.targets).run (others events) n w := by
    rw [disableAllActuator_eq]
    rfl
  rw [hrun, ← hiff]
  simp only [StopQueued, hext, List.drop_left]
  constructor
  · intro h t ht
    obtain ⟨f, hf, -, hid⟩ := h t (mem_targets.mp ht).1 (mem_targets.mp ht).2
    obtain ⟨t', -, -, rfl⟩ := hown _ f hf
    rw [stopFrame, CanBus.requestFrame_motorId] at hid
    rwa [CanId.ext hid] at hf
  · intro h t hdev ht
    exact ⟨_, h t (mem_targets.mpr ⟨hdev, ht⟩), CanBus.requestFrame_commType _ _,
      CanBus.requestFrame_motorId _ _⟩

/-- Two running knees on one bus, as its maps list them; both reported that they run
and then fell silent. -/
def silentKnees (listed : List (String × Byte)) : XyberController ℚ :=
  let w := (empty.createDevice (fun _ => true) "dcu" ![("can0"), "", "", ""]).2
  let w := listed.foldl (fun w e => (w.attachActuator "dcu" 0 .robstride02 e.1 e.2).2) w
  let w := w.start.2.apply (.receive "can0" ⟨0x828001FD#32, RobstrideMotor.runningFeedback.data⟩)
  w.apply (.receive "can0" ⟨0x828002FD#32, RobstrideMotor.runningFeedback.data⟩)

def leftListedFirst : List (String × Byte) := [("knee_left", 1), ("knee_right", 2)]

def rightListedFirst : List (String × Byte) := [("knee_right", 2), ("knee_left", 1)]

theorem silentKnees_sentOnce :
    (disableAllActuator.run (others fun _ => []) 0 (silentKnees leftListedFirst)).state.sentOnce
        (.first "dcu") = [stopFrame ⟨1, by decide⟩] ∧
      (disableAllActuator.run (others fun _ => []) 0 (silentKnees rightListedFirst)).state.sentOnce
        (.first "dcu") = [stopFrame ⟨2, by decide⟩] := by
  constructor <;> decide +kernel

/-- Whichever knee the maps list first, the other one is never asked to stop. -/
theorem disableAllActuator_not_stops :
    (¬ ∀ t, t.ref.device ∈ (silentKnees leftListedFirst).deviceOrder →
      (silentKnees leftListedFirst).registration.Has t →
        StopQueued (silentKnees leftListedFirst)
          (disableAllActuator.run (others fun _ => []) 0 (silentKnees leftListedFirst)).state t) ∧
    ¬ ∀ t, t.ref.device ∈ (silentKnees rightListedFirst).deviceOrder →
      (silentKnees rightListedFirst).registration.Has t →
        StopQueued (silentKnees rightListedFirst)
          (disableAllActuator.run (others fun _ => []) 0 (silentKnees rightListedFirst)).state t := by
  obtain ⟨hleft, hright⟩ := silentKnees_sentOnce
  constructor
  · intro h
    have hstopped := h ⟨.first "dcu", "knee_right", ⟨2, by decide⟩⟩ (by decide) (by decide)
    exact absurd (hstopped.id_eq hleft) (by decide)
  · intro h
    have hstopped := h ⟨.first "dcu", "knee_left", ⟨1, by decide⟩⟩ (by decide) (by decide)
    exact absurd (hstopped.id_eq hright) (by decide)

end Stop
end MybipedalDeploy.JointDriver.XyberController
