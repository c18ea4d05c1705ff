import MybipedalDeploy.JointDriver.Registration
import MybipedalDeploy.JointDriver.Routing

/-!
# The frames a device hands to its sockets

A slot is zero or holds a frame for its own motor. The one-shot commands transmit
what they have written there; `SaveConfig` writes zeros, and a mode that is not
defined writes nothing.
-/

namespace MybipedalDeploy.JointDriver

namespace RobstrideMotor

def commSetCanId : Byte := 0x07
def commGetParam : Byte := 0x11

def commTypes : List Byte :=
  [commMitControl, commFeedback, commEnable, commStop, commSetZero, commSetCanId, commGetParam,
    commSetParam]

end RobstrideMotor

namespace CanBus
open RobstrideMotor (commTypes)
variable {K : Type*}

structure WellFormed (id : CanId) (f : CanFrame) : Prop where
  eff : f.isEff = true
  comm : f.commType ∈ commTypes
  addressed : f.motorId = id.val

def Slots (b : CanBus K) : Prop := ∀ id, b.sendSlot id = .zero ∨ WellFormed id (b.sendSlot id)

theorem wellFormed_writeFrame {id : CanId} (m : RobstrideMotor.At K id) {comm : Byte}
    (hcomm : comm ∈ commTypes) (extra : BitVec 16) (data : Payload) :
    WellFormed id (m.val.writeFrame comm extra data) := by
  have hlt : ∀ comm ∈ commTypes, comm < 0x20#8 := by decide
  refine ⟨CanFrame.composeId_isEff _ _ _ _, ?_, ?_⟩
  · rw [RobstrideMotor.writeFrame, CanFrame.composeId_commType _ _ _ _ (hlt comm hcomm)]
    exact hcomm
  · rw [RobstrideMotor.writeFrame, CanFrame.composeId_motorId, m.prop]

theorem wellFormed_oneShot {id : CanId} (m : RobstrideMotor.At K id) (slot : CanFrame) {c : OneShot}
    (hsave : c ≠ .saveConfig) (hmode : ∀ mode, c = .setMode mode → mode.Defined) :
    WellFormed id (m.val.oneShot c slot).2 := by
  cases c with
  | requestState state => cases state <;> exact wellFormed_writeFrame m (by decide) _ _
  | clearError => exact wellFormed_writeFrame m (by decide) _ _
  | setHomingPosition => exact wellFormed_writeFrame m (by decide) _ _
  | saveConfig => exact absurd rfl hsave
  | setMode mode =>
    simp only [RobstrideMotor.oneShot, RobstrideMotor.setMode, kModeMap_defined (hmode mode rfl)]
    exact wellFormed_writeFrame m (by decide) _ _

theorem Slots.writeSend {b : CanBus K} (h : b.Slots) {id : CanId} {f : CanFrame}
    (hf : f = .zero ∨ WellFormed id f) : (b.writeSend id f).Slots := by
  intro id'
  rw [sendSlot_writeSend]
  split_ifs with heq
  · exact heq ▸ hf
  · exact h id'

theorem Slots.sendOnce {b : CanBus K} (h : b.Slots) (id : CanId) (c : OneShot) :
    (b.sendOnce id c).1.Slots := by
  intro id'
  rw [sendSlot_sendOnce]
  split_ifs
  · exact .inl rfl
  · exact h id'

section Numeric
variable [Field K]

theorem slots_new (interface : String) : (new interface : CanBus K).Slots := fun id =>
  .inl ((fresh_new interface).send id)

theorem Slots.attach {b : CanBus K} (h : b.Slots) (type : ActuatorType) (name : String) (id : CanId)
    (hid : id ∉ b.registry.actuatorById) (hname : name ∉ b.registry.actuatorByName.map Prod.fst) :
    (b.attach type name id hid hname).Slots := by
  intro id'
  rw [CanBus.attach, sendSlot_writeRecv, sendSlot_writeSend]
  split_ifs
  · exact .inl rfl
  · exact h id'

variable [LinearOrder K] [FloorSemiring K]

theorem wellFormed_periodic {id : CanId} (m : RobstrideMotor.At K id) (c : Periodic K) :
    WellFormed id (m.val.periodic c) := by
  cases c <;> exact wellFormed_writeFrame m (by decide) _ _

theorem Slots.step {b : CanBus K} (h : b.Slots) (op : Op K) : (b.step op).1.Slots := by
  cases op with
  | sendOnce name c =>
    simp only [CanBus.step]
    split
    · exact h.sendOnce _ c
    · exact h
  | setPeriodic name c =>
    simp only [CanBus.step]
    split
    · exact h.writeSend (.inr (wellFormed_periodic _ c))
    · exact h
  | transmitAll => exact h
  | receive f =>
    intro id
    simp only [CanBus.step, sendSlot_receive]
    exact h id
  | get name =>
    simp only [CanBus.step]
    split <;> exact h

end Numeric
end CanBus

namespace XyberController
open CanBus (Slots)
variable {K : Type*} [Field K] [LinearOrder K] [FloorSemiring K]

theorem stable_slots : Stable (Slots (K := K)) where
  storeFeedback _ _ _ h := h
  transmitAll p h := by
    unfold Port.transmitAll
    generalize p.bus.transmitAll = fs
    induction fs generalizing p with
    | nil => exact h
    | cons f fs ih =>
      have hone : (p.transmit .cyclic f).bus.Slots := by
        unfold Port.transmit
        split_ifs <;> exact h
      exact ih _ hone
  get _ name h := h.step (.get name)
  setPeriodic _ name c h := h.step (.setPeriodic name c)

end XyberController

/-- A frame given to a socket, for which actuator, and by which call; the control loop
makes none. -/
structure Handed where
  id : CanId
  command : Option OneShot
  frame : CanFrame
  deriving DecidableEq

namespace CanDevice
open CanBus (Slots WellFormed oneShotFields)
variable {K : Type*}

inductive Op (K : Type*)
  | oneShot (name : String) (c : OneShot)
  | setPeriodic (name : String) (c : Periodic K)
  | controlLoop
  | receive (bus : Fin 4) (f : CanFrame)
  | get (name : String)

def setBus (d : CanDevice K) (i : Fin 4) (b : CanBus K) : CanDevice K :=
  { d with buses := Function.update d.buses i (some b) }

def findBus (d : CanDevice K) (name : String) : Option (Fin 4 × CanBus K) :=
  (d.actuatorBusMap name).bind fun i => (d.buses i).map fun b => (i, b)

def transmitAll (b : CanBus K) : List Handed :=
  b.registry.actuatorById.filterMap fun id =>
    if (b.sendSlot id).canId = 0 then none else some ⟨id, none, b.sendSlot id⟩

theorem transmitAll_frames (b : CanBus K) : (transmitAll b).map Handed.frame = b.transmitAll := by
  simp only [transmitAll, CanBus.transmitAll, List.map_filterMap]
  refine List.filterMap_congr fun id _ => ?_
  split_ifs <;> rfl

section Step
variable [Field K] [LinearOrder K] [FloorSemiring K]

/-- A name without a bus is refused, and so is one that its bus does not have. -/
def step (d : CanDevice K) : Op K → CanDevice K × List Handed
  | .oneShot name c =>
    match d.findBus name with
    | none => (d, [])
    | some (i, b) =>
      match b.registry.getActuator name with
      | none => (d, [])
      | some id => (d.setBus i (b.sendOnce id c).1, [⟨id, some c, (b.sendOnce id c).2⟩])
  | .setPeriodic name c =>
    match d.findBus name with
    | none => (d, [])
    | some (i, b) => (d.setBus i (b.step (.setPeriodic name c)).1, [])
  | .controlLoop => (d, d.active.flatMap fun i => ((d.buses i).map transmitAll).getD [])
  | .receive i f =>
    match d.buses i with
    | none => (d, [])
    | some b => (d.setBus i (b.step (.receive f)).1, [])
  | .get name =>
    match d.findBus name with
    | none => (d, [])
    | some (i, b) => (d.setBus i (b.step (.get name)).1, [])

def handed (d : CanDevice K) : List (Op K) → List Handed
  | [] => []
  | op :: ops => (d.step op).2 ++ (d.step op).1.handed ops

end Step

def AllSlots (d : CanDevice K) : Prop := ∀ i b, d.buses i = some b → b.Slots

theorem AllSlots.setBus {d : CanDevice K} (h : d.AllSlots) (i : Fin 4) {b : CanBus K}
    (hb : b.Slots) : (d.setBus i b).AllSlots := by
  intro i' b' hb'
  simp only [CanDevice.setBus, Function.update_apply] at hb'
  split_ifs at hb'
  · cases hb'
    exact hb
  · exact h i' b' hb'

theorem AllSlots.findBus {d : CanDevice K} (h : d.AllSlots) {name : String} {i : Fin 4} {b : CanBus K}
    (hfind : d.findBus name = some (i, b)) : b.Slots := by
  obtain ⟨i', -, hmap⟩ := Option.bind_eq_some_iff.mp hfind
  obtain ⟨b', hb', hpair⟩ := Option.map_eq_some_iff.mp hmap
  cases hpair
  exact h i b hb'

/-- What is promised of a frame. `SaveConfig` sends a zeroed one on purpose, and nothing
is said of what a call with an undefined mode sends. -/
structure Lawful (h : Handed) : Prop where
  wellFormed : h.command ≠ some .saveConfig →
    (∀ mode, h.command = some (.setMode mode) → mode.Defined) → WellFormed h.id h.frame
  requested : ∀ c, h.command = some c → (∀ mode, c = .setMode mode → mode.Defined) →
    h.frame.fields = oneShotFields h.id.val c
  saveConfig : h.command = some .saveConfig → h.frame = .zero

theorem lawful_sendOnce (b : CanBus K) (id : CanId) (c : OneShot) :
    Lawful ⟨id, some c, (b.sendOnce id c).2⟩ := by
  rw [CanBus.sendOnce_frame]
  refine ⟨fun hsave hmode => ?_, fun c' hc hmode => ?_, fun hc => ?_⟩
  · exact CanBus.wellFormed_oneShot _ _ (fun h => hsave (congrArg some h))
      fun mode h => hmode mode (congrArg some h)
  · obtain rfl := Option.some.inj hc
    rw [CanBus.oneShot_fields _ _ _ hmode, (b.actuator id).prop]
  · obtain rfl := Option.some.inj hc
    rfl

theorem lawful_transmitAll {b : CanBus K} (hb : b.Slots) : ∀ h ∈ transmitAll b, Lawful h := by
  intro h hh
  obtain ⟨id, -, hslot⟩ := List.mem_filterMap.mp hh
  split_ifs at hslot with hzero
  cases hslot
  refine ⟨fun _ _ => (hb id).resolve_left fun heq => hzero ?_, fun c hc => ?_, fun hc => ?_⟩
  · rw [heq]
    rfl
  · cases hc
  · cases hc

variable [Field K] [LinearOrder K] [FloorSemiring K]

theorem step_lawful {d : CanDevice K} (hd : d.AllSlots) (op : Op K) :
    (d.step op).1.AllSlots ∧ ∀ h ∈ (d.step op).2, Lawful h := by
  have hnone : ∀ h ∈ ([] : List Handed), Lawful h := fun h hh => absurd hh List.not_mem_nil
  cases op with
  | oneShot name c =>
    simp only [step]
    split
    · exact ⟨hd, hnone⟩
    next i b hfind =>
      split
      · exact ⟨hd, hnone⟩
      next id _ =>
        refine ⟨hd.setBus i ((hd.findBus hfind).sendOnce id c), fun h hh => ?_⟩
        rw [List.mem_singleton.mp hh]
        exact lawful_sendOnce b id c
  | setPeriodic name c =>
    simp only [step]
    split
    · exact ⟨hd, hnone⟩
    next i b hfind => exact ⟨hd.setBus i ((hd.findBus hfind).step _), hnone⟩
  | controlLoop =>
    refine ⟨hd, fun h hh => ?_⟩
    obtain ⟨i, -, hi⟩ := List.mem_flatMap.mp hh
    cases hb : d.buses i with
    | none => simp [hb] at hi
    | some b =>
      rw [hb] at hi
      exact lawful_transmitAll (hd i b hb) h hi
  | receive i f =>
    simp only [step]
    split
    · exact ⟨hd, hnone⟩
    next b hb => exact ⟨hd.setBus i ((hd i b hb).step _), hnone⟩
  | get name =>
    simp only [step]
    split
    · exact ⟨hd, hnone⟩
    next i b hfind => exact ⟨hd.setBus i ((hd.findBus hfind).step _), hnone⟩

theorem handed_lawful {d : CanDevice K} (hd : d.AllSlots) (ops : List (Op K)) :
    ∀ h ∈ d.handed ops, Lawful h := by
  induction ops generalizing d with
  | nil => exact fun h hh => absurd hh List.not_mem_nil
  | cons op ops ih =>
    obtain ⟨hnext, hstep⟩ := step_lawful hd op
    intro h hh
    rcases List.mem_append.mp hh with hh | hh
    · exact hstep h hh
    · exact ih hnext h hh

def kneeCalls : List (XyberController.Call ℚ) :=
  [.createDevice (fun _ => true) "dcu" !["can0", "", "", ""],
    .attachActuator "dcu" 0 .robstride02 "knee" 1]

def knee : CanDevice ℚ := (kneeCalls.foldl XyberController.perform .empty).device "dcu"

theorem knee_range : 0 < (1 : Byte).toNat ∧ (1 : Byte).toNat ≤ maxActuatorsPerBus := by decide

def kneeId : CanId := ⟨1, knee_range⟩

def kneeStop : Handed :=
  ⟨kneeId, some (.requestState .stateDisable), CanBus.requestFrame .stateDisable kneeId⟩

def velocityFrame : CanFrame := (RobstrideMotor.new (K := ℚ) .robstride02 "knee" 1).setVelocity 7

end CanDevice
end MybipedalDeploy.JointDriver
