import MybipedalDeploy.JointDriver.Attachment
import MybipedalDeploy.JointDriver.FailedStart
import MybipedalDeploy.JointDriver.Shutdown

/-!
# The maps that find an actuator

The controller, a device and a bus each keep a map from actuator names. A new
actuator enters the three of them or none; nothing else writes to them.
-/

namespace MybipedalDeploy.JointDriver
open Threads (Thread)

namespace CanId

/-- Where the slot of the actuator starts, as `SetDataFiled` computes it. -/
def offset (id : CanId) : ℕ := 12 * (id.val.toNat - 1)

theorem slot_byte (id : CanId) (k : Fin 12) : (finProdFinEquiv (id.slot, k)).val = id.offset + k := by
  simp only [finProdFinEquiv_apply_val, slot, offset]
  omega

theorem offset_le (id : CanId) : id.offset + 12 ≤ 48 := by
  have hrange := id.range
  unfold offset maxActuatorsPerBus at *
  omega

theorem offset_disjoint {id id' : CanId} (h : id ≠ id') :
    id.offset + 12 ≤ id'.offset ∨ id'.offset + 12 ≤ id.offset := by
  have hrange := id.range
  have hrange' := id'.range
  have hval : id.val.toNat ≠ id'.val.toNat := fun hv => h (CanId.ext (BitVec.eq_of_toNat_eq hv))
  unfold offset
  omega

end CanId

namespace Registry

/-- The two maps of a bus hold the same actuators, each with a slot of its own. -/
structure Sound (r : Registry) : Prop where
  same : ∀ id, id ∈ r.actuatorById ↔ ∃ name, r.getActuator name = some id
  distinct : ∀ name name' id, r.getActuator name = some id → r.getActuator name' = some id →
    name = name'
  nodup : r.actuatorById.Nodup
  range : ∀ id ∈ r.actuatorById, 1 ≤ id.val.toNat ∧ id.val.toNat ≤ 4
  inside : ∀ id ∈ r.actuatorById, id.offset + 12 ≤ 48
  disjoint : ∀ id ∈ r.actuatorById, ∀ id' ∈ r.actuatorById, id ≠ id' →
    id.offset + 12 ≤ id'.offset ∨ id'.offset + 12 ≤ id.offset

theorem sound (r : Registry) : r.Sound where
  same _ := mem_actuatorById
  distinct _ _ _ := getActuator_injective
  nodup := nodup_actuatorById
  range id _ := id.range
  inside id _ := id.offset_le
  disjoint _ _ _ _ := CanId.offset_disjoint

theorem getActuator_register {r : Registry} {name : String} {id : CanId} (hid : id ∉ r.actuatorById)
    (hname : name ∉ r.actuatorByName.map Prod.fst) (name' : String) :
    (r.register name id hid hname).getActuator name' =
      if name' = name then some id else r.getActuator name' := by
  have hfresh : name' = name → r.getActuator name' = none := by
    rintro rfl
    refine Option.eq_none_iff_forall_ne_some.mpr fun id' h => hname ?_
    exact List.mem_map.mpr ⟨(name', id'), getActuator_eq_some.mp h, rfl⟩
  ext id'
  rw [getActuator_eq_some]
  simp only [register, List.mem_append, ← getActuator_eq_some, List.mem_singleton, Prod.mk.injEq]
  split_ifs with h
  · simp [hfresh h, ← h, eq_comm]
  · simp [h]

end Registry

namespace CanBus
variable {K : Type*} (b : CanBus K)

theorem sendBuf_writeSend (id : CanId) (f : CanFrame) (j : Fin (maxActuatorsPerBus * 12))
    (h : j.val < id.offset ∨ id.offset + 12 ≤ j.val) :
    (b.writeSend id f).sendBuf j = b.sendBuf j := by
  simp only [writeSend, SlotBuffer.Codec.write]
  rw [if_neg]
  intro hslot
  have hbyte := id.slot_byte (finProdFinEquiv.symm j).2
  rw [← hslot, Prod.mk.eta, Equiv.apply_symm_apply] at hbyte
  have hk := (finProdFinEquiv.symm j).2.isLt
  omega

end CanBus

namespace XyberController
namespace Registration

structure Agree (r : Registration) : Prop where
  device : ∀ name d, r.actrDevMap name = some d ↔ (r.actuatorBusMap d name).isSome = true
  bus : ∀ name d i, r.actuatorBusMap d name = some i ↔
    ((r.bus ⟨d, i⟩).bind (·.getActuator name)).isSome = true
  known : ∀ name d, r.actrDevMap name = some d → d ∈ r.deviceOrder

def InDevice (r : Registration) (name : String) (d : String) : Prop :=
  d ∈ r.deviceOrder ∧ (r.actuatorBusMap d name).isSome = true

def InBus (r : Registration) (name : String) (ref : BusRef) : Prop :=
  ref.device ∈ r.deviceOrder ∧ ((r.bus ref).bind (·.getActuator name)).isSome = true

structure Consistent (r : Registration) : Prop where
  controller_iff : ∀ name, (r.actrDevMap name).isSome = true ↔ ∃! d, r.InDevice name d
  device_iff : ∀ name, (∃! d, r.InDevice name d) ↔ ∃! ref, r.InBus name ref
  oneDevice : ∀ name d d', r.InDevice name d → r.InDevice name d' → d = d'
  oneBus : ∀ name ref ref', r.InBus name ref → r.InBus name ref' → ref = ref'
  reached : ∀ name d, r.actrDevMap name = some d →
    r.InDevice name d ∧ ∃ i, r.actuatorBusMap d name = some i ∧ r.InBus name ⟨d, i⟩
  buses : ∀ ref reg, r.bus ref = some reg → reg.Sound

section Agree
variable {r : Registration} (h : r.Agree)
include h

theorem Agree.inDevice_iff {name d : String} : r.InDevice name d ↔ r.actrDevMap name = some d :=
  ⟨fun hd => (h.device name d).mpr hd.2, fun hd => ⟨h.known name d hd, (h.device name d).mp hd⟩⟩

theorem Agree.inBus_iff {name : String} {ref : BusRef} :
    r.InBus name ref ↔
      r.actrDevMap name = some ref.device ∧ r.actuatorBusMap ref.device name = some ref.bus := by
  constructor
  · rintro ⟨-, hreg⟩
    have hbus := (h.bus name ref.device ref.bus).mpr hreg
    exact ⟨(h.device name ref.device).mpr (by rw [hbus]; rfl), hbus⟩
  · rintro ⟨hdev, hbus⟩
    exact ⟨h.known name ref.device hdev, (h.bus name ref.device ref.bus).mp hbus⟩

theorem Agree.oneDevice {name d d' : String} (hd : r.InDevice name d) (hd' : r.InDevice name d') :
    d = d' :=
  Option.some.inj ((h.inDevice_iff.mp hd).symm.trans (h.inDevice_iff.mp hd'))

theorem Agree.oneBus {name : String} {ref ref' : BusRef} (href : r.InBus name ref)
    (href' : r.InBus name ref') : ref = ref' := by
  obtain ⟨d, i⟩ := ref
  obtain ⟨d', i'⟩ := ref'
  obtain ⟨hdev, hbus⟩ := h.inBus_iff.mp href
  obtain ⟨hdev', hbus'⟩ := h.inBus_iff.mp href'
  obtain rfl : d = d' := Option.some.inj (hdev.symm.trans hdev')
  obtain rfl : i = i' := Option.some.inj (hbus.symm.trans hbus')
  rfl

theorem Agree.reached {name d : String} (hd : r.actrDevMap name = some d) :
    r.InDevice name d ∧ ∃ i, r.actuatorBusMap d name = some i ∧ r.InBus name ⟨d, i⟩ := by
  obtain ⟨i, hi⟩ := Option.isSome_iff_exists.mp ((h.device name d).mp hd)
  exact ⟨h.inDevice_iff.mpr hd, i, hi, h.inBus_iff.mpr ⟨hd, hi⟩⟩

theorem Agree.consistent : r.Consistent := by
  have hdevice : ∀ name, (r.actrDevMap name).isSome = true ↔ ∃! d, r.InDevice name d := by
    intro name
    constructor
    · intro hsome
      obtain ⟨d, hd⟩ := Option.isSome_iff_exists.mp hsome
      exact ⟨d, h.inDevice_iff.mpr hd, fun d' hd' => h.oneDevice hd' (h.inDevice_iff.mpr hd)⟩
    · rintro ⟨d, hd, -⟩
      rw [h.inDevice_iff.mp hd]
      rfl
  have hbus : ∀ name, (r.actrDevMap name).isSome = true ↔ ∃! ref, r.InBus name ref := by
    intro name
    constructor
    · intro hsome
      obtain ⟨d, hd⟩ := Option.isSome_iff_exists.mp hsome
      obtain ⟨-, i, -, href⟩ := h.reached hd
      exact ⟨⟨d, i⟩, href, fun ref' href' => h.oneBus href' href⟩
    · rintro ⟨ref, href, -⟩
      rw [(h.inBus_iff.mp href).1]
      rfl
  exact {
    controller_iff := hdevice
    device_iff := fun name => (hdevice name).symm.trans (hbus name)
    oneDevice := fun name d d' => h.oneDevice
    oneBus := fun name ref ref' => h.oneBus
    reached := fun name d => h.reached
    buses := fun ref reg _ => reg.sound }

end Agree

def create (r : Registration) (device : String) (interfaces : Fin 4 → String) : Registration where
  deviceOrder := r.deviceOrder ++ [device]
  actrDevMap := r.actrDevMap
  actuatorBusMap := Function.update r.actuatorBusMap device fun _ => none
  bus := fun ref =>
    if ref.device = device then if interfaces ref.bus = "" then none else some .empty else r.bus ref

def join (r : Registration) (ref : BusRef) (name : String) (reg : Registry) : Registration where
  deviceOrder := r.deviceOrder
  actrDevMap := Function.update r.actrDevMap name (some ref.device)
  actuatorBusMap := Function.update r.actuatorBusMap ref.device
    (Function.update (r.actuatorBusMap ref.device) name (some ref.bus))
  bus := fun ref' => if ref' = ref then some reg else r.bus ref'

theorem Agree.create {r : Registration} (h : r.Agree) {device : String}
    (hnew : device ∉ r.deviceOrder) (interfaces : Fin 4 → String) :
    (r.create device interfaces).Agree := by
  have hnone : ∀ name, r.actrDevMap name ≠ some device := fun name hd =>
    hnew (h.known name device hd)
  refine ⟨fun name d => ?_, fun name d i => ?_, fun name d hd => ?_⟩
  · by_cases hd : d = device
    · subst hd
      simp [Registration.create, hnone]
    · simp [Registration.create, hd, h.device]
  · by_cases hd : d = device
    · subst hd
      simp only [Registration.create, Function.update_self, if_true]
      split_ifs <;> simp [Registry.empty, Registry.getActuator]
    · simp [Registration.create, hd, h.bus]
  · exact List.mem_append_left _ (h.known name d hd)

section Join
variable {r : Registration} {ref : BusRef} {reg : Registry} {name : String} {id : CanId}

theorem actuatorBusMap_join (d name' : String) :
    (r.join ref name reg).actuatorBusMap d name' =
      if d = ref.device ∧ name' = name then some ref.bus else r.actuatorBusMap d name' := by
  by_cases hd : d = ref.device
  · subst hd
    simp [join, Function.update_apply]
  · simp [join, hd]

theorem getActuator_join (hreg : r.bus ref = some reg) (hid : id ∉ reg.actuatorById)
    (hname : name ∉ reg.actuatorByName.map Prod.fst) (ref' : BusRef) (name' : String) :
    ((r.join ref name (reg.register name id hid hname)).bus ref').bind (·.getActuator name') =
      if ref' = ref ∧ name' = name then some id else (r.bus ref').bind (·.getActuator name') := by
  by_cases href : ref' = ref
  · subst href
    simp [join, Registry.getActuator_register, hreg]
  · simp [join, href]

theorem Agree.join (h : r.Agree) (hknown : ref.device ∈ r.deviceOrder) (hreg : r.bus ref = some reg)
    (hfree : r.actrDevMap name = none) (hid : id ∉ reg.actuatorById)
    (hname : name ∉ reg.actuatorByName.map Prod.fst) :
    (r.join ref name (reg.register name id hid hname)).Agree := by
  have hunlisted : ∀ d, r.actuatorBusMap d name = none := by
    intro d
    rw [← Option.not_isSome_iff_eq_none, ← h.device, hfree]
    exact (Option.some_ne_none d).symm
  refine ⟨fun name' d => ?_, fun name' d i => ?_, fun name' d hd => ?_⟩
  · rw [actuatorBusMap_join]
    by_cases hn : name' = name
    · subst hn
      by_cases hd : d = ref.device
      · simp [Registration.join, hd]
      · simp [Registration.join, hd, hunlisted, Ne.symm hd]
    · simp [Registration.join, hn, h.device]
  · rw [actuatorBusMap_join, getActuator_join hreg]
    have hbus := h.bus name' d i
    by_cases hn : name' = name
    · subst hn
      rw [hunlisted] at hbus
      obtain ⟨d₀, i₀⟩ := ref
      by_cases hd : d = d₀
      · by_cases hi : i = i₀
        · simp [hd, hi]
        · simpa [hd, hi, Ne.symm hi] using hbus
      · simpa [hd, hunlisted] using hbus
    · simpa [hn] using hbus
  · by_cases hn : name' = name
    · subst hn
      have hd' : ref.device = d := by simpa [Registration.join] using hd
      exact hd' ▸ hknown
    · exact h.known name' d (by simpa [Registration.join, hn] using hd)

end Join
end Registration

section Calls
variable {K : Type*} {w : XyberController K}

theorem registration_attached (ref : BusRef) (name : String) (id : CanId) (b : CanBus K) :
    (w.attached ref name id b).registration = w.registration.join ref name b.registry := by
  simp only [registration, Registration.join, Registration.mk.injEq]
  refine ⟨rfl, rfl, funext fun d => ?_, funext fun ref' => ?_⟩
  · simp only [attached, setDevice, setSocket, setBus, Function.update_apply]
    split_ifs <;> rfl
  · rw [busAt_attached]
    split_ifs <;> rfl

theorem registration_start (w : XyberController K) : w.start.2.registration = w.registration := by
  simp only [registration, Registration.mk.injEq, busAt_start]
  refine ⟨?_, ?_, funext fun d => ?_, trivial⟩
  · unfold start
    split_ifs <;> rfl
  · unfold start
    split_ifs <;> rfl
  · unfold start
    split_ifs
    · rfl
    · rfl
    · dsimp only
      split_ifs
      · unfold CanDevice.start
        split_ifs <;> rfl
      · rfl

theorem registration_setFlags (w : XyberController K) (device : String) (running looping : Bool) :
    (w.setDevice device
      { w.device device with isRunning := running, looping := looping }).registration =
        w.registration := by
  simp only [registration, Registration.mk.injEq, busAt_setFlags]
  refine ⟨rfl, rfl, funext fun d => ?_, trivial⟩
  simp only [setDevice, Function.update_apply]
  split_ifs with h
  · rw [h]
  · rfl

theorem sections_stop_registration (r : Registration) :
    (stop (K := K)).Sections fun act => ∀ w, w.registration = r → (act w).registration = r := by
  intro w
  dsimp only
  split_ifs
  · refine .bind (.forEach (fun d => ?_) _) fun _ => ⟨fun w hw => hw, fun _ => trivial⟩
    intro w
    dsimp only
    split_ifs
    · exact ⟨fun w hw => (w.registration_setFlags d _ _).trans hw,
        fun _ => ⟨fun w hw => (w.registration_setFlags d _ _).trans hw, fun _ => trivial⟩⟩
    · trivial
  · trivial

theorem agree_empty : (empty : XyberController K).registration.Agree := by
  refine ⟨fun name d => ?_, fun name d i => ?_, fun name d hd => ?_⟩
  · simp [registration, empty, CanDevice.empty]
  · simp [registration, empty, CanDevice.empty, busAt]
  · simp [registration, empty] at hd

variable [Field K]

theorem registration_createDevice (opens : String → Bool) (name : String)
    (interfaces : Fin 4 → String) (w : XyberController K) :
    (w.createDevice opens name interfaces).2.registration = w.registration ∨
    name ∉ w.deviceOrder ∧ (w.createDevice opens name interfaces).2.registration =
      w.registration.create name interfaces := by
  rcases createDevice_cases w opens name interfaces with ⟨-, socket, hrefused⟩ | ⟨hname, -, hcreated⟩
  · exact .inl (by rw [hrefused]; rfl)
  · refine .inr ⟨hname, ?_⟩
    rw [hcreated]
    simp only [registration, Registration.mk.injEq, Registration.create]
    refine ⟨rfl, rfl, funext fun d => ?_, funext fun ref => ?_⟩
    · simp only [created, Function.update_apply]
      split_ifs <;> rfl
    · rw [busAt_created]
      split_ifs <;> rfl

variable [LinearOrder K] [FloorSemiring K]

/-- A call of the controller with any arguments, or a step of another thread. -/
inductive Call (K : Type*)
  | createDevice (opens : String → Bool) (name : String) (interfaces : Fin 4 → String)
  | attachActuator (device : String) (busIdx : ℕ) (type : ActuatorType) (name : String) (canId : Byte)
  | start
  | stop (events : ℕ → List (Event K))
  | other (event : Event K)

def perform (w : XyberController K) : Call K → XyberController K
  | .createDevice opens name interfaces => (w.createDevice opens name interfaces).2
  | .attachActuator device busIdx type name canId =>
    (w.attachActuator device busIdx type name canId).2
  | .start => w.start.2
  | .stop events => (stop.run (others events) 0 w).state
  | .other event => w.apply event

theorem agree_perform (h : w.registration.Agree) (call : Call K) :
    (w.perform call).registration.Agree := by
  cases call with
  | createDevice opens name interfaces =>
    rcases registration_createDevice opens name interfaces w with hsame | ⟨hnew, hcreated⟩
    · exact hsame ▸ h
    · exact hcreated ▸ h.create hnew interfaces
  | attachActuator device busIdx type name canId =>
    rcases attachActuator_cases w device busIdx type name canId with hrefused |
      ⟨ref, b, id, hid, hname, -, -, -, -, hready, htaken⟩
    · simpa only [perform, hrefused] using h
    · simp only [perform, htaken, registration_attached]
      have hreg : w.registration.bus ref = some b.registry := by simp [registration, hready.bus]
      exact h.join hready.known hreg hready.unmapped hid hname
  | start => exact (registration_start w).symm ▸ h
  | stop events =>
    have hstop := Thread.run_invariant (I := fun v : XyberController K =>
      v.registration = w.registration)
      (fun n v hv => (quiet_others events n v).registration.trans hv)
      (sections_stop_registration w.registration) (n := 0) rfl
    exact hstop.symm ▸ h
  | other event => exact (quiet_apply w event).registration.symm ▸ h

theorem agree_calls (calls : List (Call K)) : (calls.foldl perform empty).registration.Agree :=
  Runs.foldl_invariant perform (fun w => w.registration.Agree) agree_empty
    (fun _ call h => agree_perform h call) calls

theorem Everywhere.perform {P : CanBus K → Prop} (h : Everywhere P w) (hP : Stable P)
    (hnew : ∀ i, P (.new i))
    (hattach : ∀ b type name id hid hname, P b → P (b.attach type name id hid hname))
    (call : Call K) : Everywhere P (w.perform call) := by
  have hidle : Idle P w.isRunning w := ⟨h, rfl⟩
  cases call with
  | createDevice opens name interfaces => exact (hidle.createDevice hnew opens name interfaces).buses
  | attachActuator device busIdx type name canId =>
    exact (hidle.attachActuator hattach device busIdx type name canId).buses
  | start => exact h.start
  | stop events =>
    exact Thread.run_invariant (I := Everywhere P) (fun n v hv => hv.others hP events n)
      sections_stop h
  | other event => exact h.apply hP event

/-- The maps stay consistent over any calls, and a refused attachment changes nothing. -/
theorem registration_consistent (calls : List (Call K)) :
    (calls.foldl perform empty).registration.Consistent ∧
      ∀ device busIdx type name canId,
        ((calls.foldl perform empty).attachActuator device busIdx type name canId).1 = false →
        ((calls.foldl perform empty).attachActuator device busIdx type name canId).2 =
          calls.foldl perform empty :=
  ⟨(agree_calls calls).consistent, fun _ _ _ _ _ => attachActuator_failed⟩

end Calls
end XyberController
end MybipedalDeploy.JointDriver
