import MybipedalDeploy.JointDriver.Attachment
import MybipedalDeploy.JointDriver.JointDriverModule
import MybipedalDeploy.JointDriver.Requests
import MybipedalDeploy.JointDriver.Routing

/-!
# A start that fails

`Initialize` only ever asks for the enabled state: whatever it queues is an
enable request or a periodic command. A failed start therefore leaves every
motor whose request was queued without a stop request.
-/

namespace MybipedalDeploy.JointDriver
open Threads (Thread Outcome)
open RobstrideMotor (commEnable commStop commMitControl)

namespace CanBus
variable {K : Type*}

def NoRequest (f : CanFrame) : Prop := f.commType ≠ commEnable ∧ f.commType ≠ commStop

structure SlotOf (id : CanId) (f : CanFrame) : Prop where
  noRequest : NoRequest f
  addressed : f.commType = commMitControl → f.motorId = id.val

structure Starting (b : CanBus K) : Prop where
  slots : ∀ id ∈ b.registry.actuatorById, SlotOf id (b.sendSlot id)
  captured : ∀ f, .captured f ∈ b.trace → f.commType = commEnable
  cyclic : ∀ f, .queued .cyclic f ∈ b.trace → NoRequest f
  once : ∀ f, .queued .once f ∈ b.trace → f.commType = commEnable

theorem slotOf_zero (id : CanId) : SlotOf id .zero :=
  ⟨⟨by decide, by decide⟩, fun h => absurd h (by decide)⟩

section Moves
variable {b : CanBus K}

theorem Starting.of_same {b' : CanBus K} (h : b.Starting)
    (hreg : b'.registry = b.registry) (hsend : b'.sendBuf = b.sendBuf)
    (htrace : b'.trace = b.trace) : b'.Starting := by
  refine ⟨fun id hid => ?_, ?_, ?_, ?_⟩
  · have hslot := h.slots id (hreg ▸ hid)
    rwa [sendSlot, hsend]
  · rw [htrace]
    exact h.captured
  · rw [htrace]
    exact h.cyclic
  · rw [htrace]
    exact h.once

theorem Starting.writeSend (h : b.Starting) (id : CanId) {f : CanFrame} (hf : SlotOf id f) :
    (b.writeSend id f).Starting := by
  refine ⟨fun id' hid' => ?_, h.captured, h.cyclic, h.once⟩
  rw [sendSlot_writeSend]
  split_ifs with heq
  · rwa [heq]
  · exact h.slots id' hid'

theorem starting_new [Field K] (interface : String) : (new interface : CanBus K).Starting :=
  ⟨by simp [new, Registry.empty], by simp [new], by simp [new], by simp [new]⟩

theorem Starting.attach [Field K] (h : b.Starting) (type : ActuatorType) (name : String)
    (id : CanId) (hid : id ∉ b.registry.actuatorById)
    (hname : name ∉ b.registry.actuatorByName.map Prod.fst) :
    (b.attach type name id hid hname).Starting := by
  refine ⟨fun id' hid' => ?_, h.captured, h.cyclic, h.once⟩
  rw [CanBus.attach, sendSlot_writeRecv, sendSlot_writeSend]
  split_ifs with heq
  · exact slotOf_zero id'
  · refine h.slots id' ?_
    simpa [CanBus.attach, Registry.register, heq] using hid'

theorem Starting.parse [Field K] (h : b.Starting) (id : CanId) : (b.parse id).Starting :=
  h.of_same rfl rfl rfl

theorem Starting.sendOnce (h : b.Starting) (id : CanId) (c : OneShot) :
    (b.sendOnce id c).1.Starting := by
  refine ⟨fun id' hid' => ?_, h.captured, h.cyclic, h.once⟩
  rw [sendSlot_sendOnce]
  split_ifs
  · exact slotOf_zero id'
  · exact h.slots id' hid'

end Moves
end CanBus

namespace Port
open CanBus (NoRequest Starting)
variable {K : Type*} {p : Port K}

theorem starting_record (h : p.bus.Starting) {e : BusEvent}
    (hcaptured : ∀ f, e = .captured f → f.commType = commEnable)
    (hcyclic : ∀ f, e = .queued .cyclic f → NoRequest f)
    (honce : ∀ f, e = .queued .once f → f.commType = commEnable) : (p.record e).bus.Starting := by
  have hmem : ∀ e', e' ∈ (p.record e).bus.trace → e' ∈ p.bus.trace ∨ e = e' := by
    simp [Port.record, eq_comm]
  refine ⟨h.slots, fun f hf => ?_, fun f hf => ?_, fun f hf => ?_⟩
  · exact (hmem _ hf).elim (h.captured f) (hcaptured f)
  · exact (hmem _ hf).elim (h.cyclic f) (hcyclic f)
  · exact (hmem _ hf).elim (h.once f) (honce f)

theorem starting_transmit (h : p.bus.Starting) {origin : Origin} {f : CanFrame}
    (hcyclic : origin = .cyclic → NoRequest f) (honce : origin = .once → f.commType = commEnable) :
    (p.transmit origin f).bus.Starting := by
  unfold transmit
  split_ifs
  · refine starting_record h (by simp) (fun g hg => ?_) fun g hg => ?_
    · obtain ⟨rfl, rfl⟩ : origin = .cyclic ∧ f = g := by simpa using hg
      exact hcyclic rfl
    · obtain ⟨rfl, rfl⟩ : origin = .once ∧ f = g := by simpa using hg
      exact honce rfl
  · exact h

theorem starting_transmitAll (h : p.bus.Starting) : p.transmitAll.bus.Starting := by
  have hfs : ∀ f ∈ p.bus.transmitAll, NoRequest f := by
    intro f hf
    obtain ⟨id, hid, hslot⟩ := List.mem_filterMap.mp hf
    split_ifs at hslot
    cases hslot
    exact (h.slots id hid).noRequest
  unfold transmitAll
  generalize p.bus.transmitAll = fs at hfs
  induction fs generalizing p with
  | nil => exact h
  | cons f fs ih =>
    refine ih (starting_transmit h (fun _ => hfs f (by simp)) (by simp)) fun g hg => hfs g (by simp [hg])

theorem requestFrame_enable (id : CanId) :
    (CanBus.requestFrame .stateEnable id).commType = commEnable :=
  CanBus.requestFrame_commType .stateEnable id

theorem starting_capture (h : p.bus.Starting) (id : CanId) :
    (p.capture id (.requestState .stateEnable)).bus.Starting := by
  have hbus : (⟨(p.bus.sendOnce id (.requestState .stateEnable)).1, p.socket⟩ : Port K).bus.Starting :=
    h.sendOnce id _
  refine starting_record hbus (fun f hf => ?_) (by simp) (by simp)
  obtain rfl := BusEvent.captured.inj hf
  rw [CanBus.sendOnce_request]
  exact requestFrame_enable id

theorem sections_enable [Field K] (other : ActuatorState) (name : String) :
    (requestPower (K := K) .stateEnable other name).Sections
      fun act => ∀ p, p.bus.Starting → (act p).bus.Starting :=
  sections_requestPower (fun _ id h => starting_capture h id)
    (fun _ id h => starting_transmit h (by simp) fun _ => requestFrame_enable id)
    (fun _ id h => h.parse id) other name

end Port

namespace XyberController
open CanBus (NoRequest Starting)

section Frames
variable {K : Type*} [Field K] [LinearOrder K] [FloorSemiring K] {id : CanId}

theorem slotOf_periodic (m : RobstrideMotor.At K id) (c : Periodic K) :
    CanBus.SlotOf id (m.val.periodic c) := by
  refine ⟨?_, fun _ => (m.val.periodic_motorId c).trans m.prop⟩
  rcases CanBus.periodic_fields m.val c with h | ⟨h, -⟩ <;>
    exact ⟨fun he => absurd (h.symm.trans he) (by decide),
      fun he => absurd (h.symm.trans he) (by decide)⟩

theorem stable_starting : Stable (Starting (K := K)) where
  storeFeedback _ _ _ h := h.of_same rfl rfl rfl
  transmitAll _ h := Port.starting_transmitAll h
  get b name h := by
    simp only [CanBus.step]
    split
    · exact h.parse _
    · exact h
  setPeriodic b name c h := by
    simp only [CanBus.step]
    split
    · exact h.writeSend _ (slotOf_periodic _ c)
    · exact h

end Frames

section Asked
variable {K : Type*} [Field K]

def Asked (w : XyberController K) : Prop := ∃ ref, w.sentOnce ref ≠ []

theorem Quiet.asked {w w' : XyberController K} (h : Quiet w w') : Asked w' ↔ Asked w := by
  simp only [Asked, h.sentOnce]

end Asked

section Loop
variable {K : Type*} [Field K] [LinearOrder K] [FloorSemiring K]
variable (events : ℕ → List (Event K))

def SomeQueued : List String → ℕ → XyberController K → Prop
  | [], _, _ => False
  | name :: names, n, w =>
    let r := (enableActuator name).run (others events) n w
    (∃ t, w.registration.resolve name = some t ∧ Room events .stateEnable t n w) ∨
      SomeQueued names r.tick r.state

def AllEnabled : List String → ℕ → XyberController K → Prop
  | [], _, _ => True
  | name :: names, n, w =>
    let r := (enableActuator name).run (others events) n w
    (∃ t, w.registration.resolve name = some t ∧ Acknowledges events .stateEnable t n w) ∧
      AllEnabled names r.tick r.state

theorem run_enableActuator (name : String) (n : ℕ) (w : XyberController K) :
    let r := (enableActuator name).run (others events) n w
    (Asked r.state ↔ Asked w ∨
      ∃ t, w.registration.resolve name = some t ∧ Room events .stateEnable t n w) ∧
    (r.value = true ↔
      ∃ t, w.registration.resolve name = some t ∧ Acknowledges events .stateEnable t n w) := by
  cases ht : w.registration.resolve name with
  | none => simp [enableActuator_run_none _ ht]
  | some t =>
    have hhas := Registration.resolve_has ht
    obtain ⟨-, hsent, hvalue⟩ := run_requestAt events
      (show ActuatorState.stateDisable ≠ .stateEnable by decide) hhas n
    simp only [enableActuator_run_some _ ht, Option.some.injEq, exists_eq_left', hvalue, and_true]
    simp only [Asked, hsent]
    by_cases hroom : Room events .stateEnable t n w
    · simp only [hroom, and_true, or_true, iff_true]
      exact ⟨t.ref, by simp⟩
    · simp [hroom]

theorem run_enableLoop (names : List String) (n : ℕ) (w : XyberController K) :
    let r := (Thread.forEach enableActuator names).run (others events) n w
    (Asked r.state ↔ Asked w ∨ SomeQueued events names n w) ∧
      (r.value = true ↔ AllEnabled events names n w) := by
  induction names generalizing n w with
  | nil => simp [Thread.forEach, Thread.run, SomeQueued, AllEnabled]
  | cons name names ih =>
    obtain ⟨hasked, hvalue⟩ := run_enableActuator events name n w
    obtain ⟨ihasked, ihvalue⟩ := ih ((enableActuator name).run (others events) n w).tick
      ((enableActuator name).run (others events) n w).state
    simp only [Thread.run_forEach_cons, SomeQueued, AllEnabled, ihasked, hasked, or_assoc,
      Bool.and_eq_true, ihvalue, hvalue, and_self]

end Loop

section Configured
variable {K : Type*} {P : CanBus K → Prop}

structure Idle (P : CanBus K → Prop) (running : Bool) (w : XyberController K) : Prop where
  buses : Everywhere P w
  flag : w.isRunning = running

variable {running : Bool} {w : XyberController K}

variable [Field K]

theorem Idle.createDevice (h : Idle P running w) (hnew : ∀ i, P (.new i)) (opens : String → Bool)
    (name : String) (interfaces : Fin 4 → String) :
    Idle P running (w.createDevice opens name interfaces).2 := by
  rcases createDevice_cases w opens name interfaces with ⟨-, socket, hrefused⟩ | ⟨hname, -, hcreated⟩
  · rw [hrefused]
    exact ⟨h.buses, h.flag⟩
  · rw [hcreated]
    refine ⟨fun ref b hb => ?_, h.flag⟩
    rw [busAt_created] at hb
    split_ifs at hb
    · cases hb
      exact hnew _
    · exact h.buses ref b hb

theorem Idle.attachActuator (h : Idle P running w)
    (hattach : ∀ b type name id hid hname, P b → P (b.attach type name id hid hname))
    (device : String) (busIdx : ℕ) (type : ActuatorType) (actrName : String) (canId : Byte) :
    Idle P running (w.attachActuator device busIdx type actrName canId).2 := by
  rcases attachActuator_cases w device busIdx type actrName canId with hrefused |
    ⟨ref, b, id, hid, hname, -, -, -, -, hready, htaken⟩
  · rwa [hrefused]
  · rw [htaken]
    refine ⟨fun ref' b' hb' => ?_, h.flag⟩
    dsimp only at hb'
    rw [busAt_attached] at hb'
    split_ifs at hb'
    · cases hb'
      exact hattach b type actrName id hid hname (h.buses ref b hready.bus)
    · exact h.buses ref' b' hb'

end Configured

end XyberController

namespace JointDriverModule
open XyberController (Idle)

section Configured
variable {K : Type*} [Field K] {P : CanBus K → Prop} {running : Bool} {w : XyberController K}
  (hnew : ∀ i, P (.new i))
  (hattach : ∀ b type name id hid hname, P b → P (b.attach type name id hid hname))
include hattach

theorem idle_attachActuators (device : String) (listed : List String)
    (actrs : List (Fin 4 × ActuatorConfig)) (h : Idle P running w) :
    Idle P running (attachActuators device listed actrs w).2 := by
  induction actrs generalizing w with
  | nil => exact h
  | cons a actrs ih =>
    obtain ⟨ch, actr⟩ := a
    have hattached := h.attachActuator hattach device ch (stringToType actr.type) actr.name
      (actr.canId.setWidth 8)
    simp only [attachActuators]
    split
    · exact ih h
    split
    next heq =>
      rw [heq] at hattached
      exact ih hattached
    next heq => rwa [heq] at hattached

include hnew

theorem idle_configureDriver (opens : String → Bool) (listed : List String) (cfg : DriverConfig)
    (h : Idle P running w) : Idle P running (configureDriver opens listed cfg w).2 := by
  unfold configureDriver
  split_ifs with henable hsize
  · exact h
  · have hcreated := h.createDevice hnew opens cfg.name fun i => cfg.interfaces[i]
    split
    next heq => rwa [heq] at hcreated
    next heq => rwa [heq] at hcreated
    next heq =>
      rw [heq] at hcreated
      exact idle_attachActuators hattach _ _ _ hcreated
  · exact h

theorem idle_configure (opens : String → Bool) (listed : List String) (network : List DriverConfig)
    (h : Idle P running w) : Idle P running (configure opens listed network w).2 := by
  induction network generalizing w with
  | nil => exact h
  | cons cfg network ih =>
    have hdriver := idle_configureDriver hnew hattach opens listed cfg h
    simp only [configure]
    split
    next heq =>
      rw [heq] at hdriver
      exact ih hdriver
    next heq => rwa [heq] at hdriver

end Configured
end JointDriverModule
end MybipedalDeploy.JointDriver
