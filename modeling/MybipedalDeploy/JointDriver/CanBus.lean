import Mathlib.Data.List.Perm.Basic
import Mathlib.Logic.Function.Basic
import MybipedalDeploy.JointDriver.RobstrideMotor
import MybipedalDeploy.Library.Threads

/-!
# One CAN bus and its actuators

Every actuator owns one slot of the send buffer and one of the receive buffer.
A registry lists the actuators in the iteration order of the two hash maps. A new
actuator is listed last here, while results about loops over a registry are about any
order. `trace` is a history of what the bus handed over for transmission, read by no
function.
-/

namespace MybipedalDeploy.JointDriver
open SlotBuffer (Codec Buffer)
open Threads (Thread)

def maxActuatorsPerBus : ℕ := 4

@[ext]
structure CanId where
  val : Byte
  range : 0 < val.toNat ∧ val.toNat ≤ maxActuatorsPerBus
  deriving DecidableEq

namespace CanId

def slot (id : CanId) : Fin maxActuatorsPerBus := ⟨id.val.toNat - 1, by have := id.range; omega⟩

theorem slot_injective : Function.Injective slot := by
  intro a b h
  have hv : a.val.toNat - 1 = b.val.toNat - 1 := congrArg Fin.val h
  have ha := a.range
  have hb := b.range
  exact CanId.ext (BitVec.eq_of_toNat_eq (by omega))

def key (id : CanId) : BitVec 16 := id.val.setWidth 16

theorem key_injective : Function.Injective key := by
  intro a b h
  have hv : a.key.toNat = b.key.toNat := congrArg BitVec.toNat h
  simp only [key, BitVec.toNat_setWidth] at hv
  exact CanId.ext (BitVec.eq_of_toNat_eq (by omega))

end CanId

structure Registry where
  actuatorByName : List (String × CanId)
  actuatorById : List CanId
  nodup_names : (actuatorByName.map Prod.fst).Nodup
  nodup_ids : (actuatorByName.map Prod.snd).Nodup
  ids_perm : actuatorById.Perm (actuatorByName.map Prod.snd)

namespace Registry

def empty : Registry := ⟨[], [], .nil, .nil, .nil⟩

def getActuator (r : Registry) (name : String) : Option CanId := r.actuatorByName.lookup name

def register (r : Registry) (name : String) (id : CanId) (hid : id ∉ r.actuatorById)
    (hname : name ∉ r.actuatorByName.map Prod.fst) : Registry where
  actuatorByName := r.actuatorByName ++ [(name, id)]
  actuatorById := r.actuatorById ++ [id]
  nodup_names := by
    simpa [List.nodup_append, r.nodup_names] using
      fun a x hx e => hname (by simpa [← e] using ⟨x, hx⟩)
  nodup_ids := by
    have hid' := fun h => hid (r.ids_perm.mem_iff.mpr h)
    simpa [List.nodup_append, r.nodup_ids] using
      fun a x hx e => hid' (by simpa [← e] using ⟨x, hx⟩)
  ids_perm := by simpa using r.ids_perm.append_right [id]

variable {r : Registry} {name name' : String} {id : CanId}

theorem getActuator_eq_some : r.getActuator name = some id ↔ (name, id) ∈ r.actuatorByName := by
  have hnd := r.nodup_names
  simp only [getActuator]
  generalize r.actuatorByName = es at hnd
  induction es with
  | nil => simp
  | cons e es ih =>
    obtain ⟨k, v⟩ := e
    simp only [List.map_cons, List.nodup_cons] at hnd
    rw [List.lookup_cons]
    rcases eq_or_ne name k with rfl | hne
    · have hfresh : (name, id) ∉ es := fun h => hnd.1 (List.mem_map_of_mem h)
      simp [hfresh, eq_comm]
    · have hkey : (name == k) = false := beq_eq_false_iff_ne.mpr hne
      simp [hkey, hne, ih hnd.2]

theorem getActuator_injective (h : r.getActuator name = some id)
    (h' : r.getActuator name' = some id) : name = name' := by
  rw [getActuator_eq_some] at h h'
  have hinj := List.inj_on_of_nodup_map r.nodup_ids h h' rfl
  exact congrArg Prod.fst hinj

theorem mem_actuatorById : id ∈ r.actuatorById ↔ ∃ name, r.getActuator name = some id := by
  simp only [r.ids_perm.mem_iff, getActuator_eq_some, List.mem_map, Prod.exists, exists_eq_right]

theorem nodup_actuatorById : r.actuatorById.Nodup := r.ids_perm.nodup_iff.mpr r.nodup_ids

end Registry

abbrev RobstrideMotor.At (K : Type*) (id : CanId) := {m : RobstrideMotor K // m.canId = id.val}

inductive Origin
  | once | cyclic
  deriving DecidableEq, Repr

inductive BusEvent
  | captured (f : CanFrame)
  | queued (origin : Origin) (f : CanFrame)
  deriving DecidableEq, Repr

structure CanBus (K : Type*) where
  interface : String
  registry : Registry
  actuator : (id : CanId) → RobstrideMotor.At K id
  sendBuf : Buffer Byte maxActuatorsPerBus 12
  recvBuf : Buffer Byte maxActuatorsPerBus 12
  trace : List BusEvent

namespace CanBus

section Access
variable {K : Type*} (b : CanBus K)

def sendSlot (id : CanId) : CanFrame := CanFrame.codec.read b.sendBuf id.slot
def recvSlot (id : CanId) : CanFrame := CanFrame.codec.read b.recvBuf id.slot

def writeSend (id : CanId) (f : CanFrame) : CanBus K :=
  { b with sendBuf := CanFrame.codec.write b.sendBuf id.slot f }

def writeRecv (id : CanId) (f : CanFrame) : CanBus K :=
  { b with recvBuf := CanFrame.codec.write b.recvBuf id.slot f }

def setActuator (id : CanId) (m : RobstrideMotor.At K id) : CanBus K :=
  { b with actuator := Function.update b.actuator id m }

theorem sendSlot_writeSend (id id' : CanId) (f : CanFrame) :
    (b.writeSend id f).sendSlot id' = if id' = id then f else b.sendSlot id' := by
  simp only [sendSlot, writeSend, Codec.read_write, CanId.slot_injective.eq_iff]

theorem recvSlot_writeRecv (id id' : CanId) (f : CanFrame) :
    (b.writeRecv id f).recvSlot id' = if id' = id then f else b.recvSlot id' := by
  simp only [recvSlot, writeRecv, Codec.read_write, CanId.slot_injective.eq_iff]

@[simp] theorem writeSend_registry (id : CanId) (f : CanFrame) :
    (b.writeSend id f).registry = b.registry := rfl
@[simp] theorem writeSend_actuator (id : CanId) (f : CanFrame) :
    (b.writeSend id f).actuator = b.actuator := rfl
@[simp] theorem recvSlot_writeSend (id id' : CanId) (f : CanFrame) :
    (b.writeSend id f).recvSlot id' = b.recvSlot id' := rfl
@[simp] theorem writeRecv_registry (id : CanId) (f : CanFrame) :
    (b.writeRecv id f).registry = b.registry := rfl
@[simp] theorem sendSlot_writeRecv (id id' : CanId) (f : CanFrame) :
    (b.writeRecv id f).sendSlot id' = b.sendSlot id' := rfl
@[simp] theorem sendSlot_setActuator (id id' : CanId) (m : RobstrideMotor.At K id) :
    (b.setActuator id m).sendSlot id' = b.sendSlot id' := rfl
@[simp] theorem setActuator_same (id : CanId) (m : RobstrideMotor.At K id) :
    (b.setActuator id m).actuator id = m := by simp [setActuator]
theorem setActuator_ne {id id' : CanId} (h : id' ≠ id) (m : RobstrideMotor.At K id) :
    (b.setActuator id m).actuator id' = b.actuator id' := by simp [setActuator, h]

end Access

section Operations
variable {K : Type*} [Field K]

def new (interface : String) : CanBus K where
  interface := interface
  registry := .empty
  actuator := fun id => ⟨.new .unknown "" id.val, rfl⟩
  sendBuf := fun _ => 0
  recvBuf := fun _ => 0
  trace := []

/-- `SetDataFiled` zeroes both slots of the actuator that joins the maps. -/
def attach (b : CanBus K) (type : ActuatorType) (name : String) (id : CanId)
    (hid : id ∉ b.registry.actuatorById)
    (hname : name ∉ b.registry.actuatorByName.map Prod.fst) : CanBus K :=
  let joined : CanBus K := { b with
    registry := b.registry.register name id hid hname
    actuator := Function.update b.actuator id ⟨.new type name id.val, rfl⟩ }
  (joined.writeSend id .zero).writeRecv id .zero

def registerActuator (b : CanBus K) (type : ActuatorType) (name : String) (canId : Byte) :
    Option (CanId × CanBus K) :=
  if hrange : 0 < canId.toNat ∧ canId.toNat ≤ maxActuatorsPerBus then
    if hid : ⟨canId, hrange⟩ ∈ b.registry.actuatorById then none
    else if hname : name ∈ b.registry.actuatorByName.map Prod.fst then none
    else some (⟨canId, hrange⟩, b.attach type name ⟨canId, hrange⟩ hid hname)
  else none

theorem registerActuator_eq_some {b b' : CanBus K} {type : ActuatorType} {name : String}
    {canId : Byte} {id : CanId} (h : b.registerActuator type name canId = some (id, b')) :
    id.val = canId ∧ ∃ hid hname, b' = b.attach type name id hid hname := by
  unfold registerActuator at h
  split_ifs at h with hrange hid hname
  cases h
  exact ⟨rfl, hid, hname, rfl⟩

variable (b : CanBus K)

/-- The locked part of `SendOnce`: write the command, capture the slot, zero it. -/
def sendOnce (id : CanId) (c : OneShot) : CanBus K × CanFrame :=
  let m := (b.actuator id).val.oneShot c (b.sendSlot id)
  have hm : m.1.canId = id.val := by
    obtain ⟨mode, hmode⟩ := (b.actuator id).val.oneShot_frame c (b.sendSlot id)
    simpa [m, hmode] using (b.actuator id).prop
  let written := (b.setActuator id ⟨m.1, hm⟩).writeSend id m.2
  (written.writeSend id .zero, written.sendSlot id)

def transmitAll : List CanFrame :=
  b.registry.actuatorById.filterMap fun id =>
    if (b.sendSlot id).canId = 0 then none else some (b.sendSlot id)

def storeFeedback (id : CanId) (f : CanFrame) : CanBus K := b.writeRecv id f

/-- The receiver thread of a socket that serves this bus alone; `XyberController.apply`
has the callbacks of all its buses. -/
def receive (f : CanFrame) : CanBus K :=
  match b.registry.actuatorById.find? fun id => id.key == f.keyExtractor with
  | some id => b.storeFeedback id f
  | none => b

/-- Every getter decodes the receive slot into the cache first. -/
def parse (id : CanId) : CanBus K :=
  b.setActuator id ⟨(b.actuator id).val.parseFeedback (b.recvSlot id), by
    simpa using (b.actuator id).prop⟩

def get (id : CanId) : CanBus K × Readings K :=
  (b.parse id, ((b.parse id).actuator id).val.readings)

variable [LinearOrder K] [FloorSemiring K]

def setPeriodic (id : CanId) (c : Periodic K) : CanBus K :=
  b.writeSend id ((b.actuator id).val.periodic c)

end Operations

/-- What threads do to a bus, one mutex-protected step each. -/
inductive Op (K : Type*)
  | sendOnce (name : String) (c : OneShot)
  | setPeriodic (name : String) (c : Periodic K)
  | transmitAll
  | receive (f : CanFrame)
  | get (name : String)

section Step
variable {K : Type*} [Field K] [LinearOrder K] [FloorSemiring K]

/-- A name that is not attached is refused by every operation. -/
def step (b : CanBus K) : Op K → CanBus K × List (Origin × CanFrame)
  | .sendOnce name c =>
    match b.registry.getActuator name with
    | some id => ((b.sendOnce id c).1, [(.once, (b.sendOnce id c).2)])
    | none => (b, [])
  | .setPeriodic name c =>
    match b.registry.getActuator name with
    | some id => (b.setPeriodic id c, [])
    | none => (b, [])
  | .transmitAll => (b, b.transmitAll.map fun f => (.cyclic, f))
  | .receive f => (b.receive f, [])
  | .get name =>
    match b.registry.getActuator name with
    | some id => ((b.get id).1, [])
    | none => (b, [])

def after (b : CanBus K) (ops : List (Op K)) : CanBus K := ops.foldl (fun b op => (b.step op).1) b

end Step

section OperationLaws
variable {K : Type*} (b : CanBus K)

theorem sendOnce_frame (id : CanId) (c : OneShot) :
    (b.sendOnce id c).2 = ((b.actuator id).val.oneShot c (b.sendSlot id)).2 := by
  simp [sendOnce, sendSlot_writeSend]

theorem sendSlot_sendOnce (id id' : CanId) (c : OneShot) :
    (b.sendOnce id c).1.sendSlot id' = if id' = id then .zero else b.sendSlot id' := by
  simp only [sendOnce, sendSlot_writeSend, sendSlot_setActuator]
  split_ifs <;> rfl

@[simp] theorem recvSlot_sendOnce (id id' : CanId) (c : OneShot) :
    (b.sendOnce id c).1.recvSlot id' = b.recvSlot id' := rfl

theorem actuator_sendOnce (id id' : CanId) (c : OneShot) :
    ∃ mode, ((b.sendOnce id c).1.actuator id').val =
      { (b.actuator id').val with currentMode := mode } := by
  rcases eq_or_ne id' id with rfl | hne
  · obtain ⟨mode, hmode⟩ := (b.actuator id').val.oneShot_frame c (b.sendSlot id')
    exact ⟨mode, by simp [sendOnce, hmode]⟩
  · exact ⟨(b.actuator id').val.currentMode, by simp [sendOnce, setActuator_ne _ hne]⟩

theorem recvSlot_storeFeedback (id id' : CanId) (f : CanFrame) :
    (b.storeFeedback id f).recvSlot id' = if id' = id then f else b.recvSlot id' :=
  b.recvSlot_writeRecv id id' f

@[simp] theorem receive_registry (f : CanFrame) : (b.receive f).registry = b.registry := by
  unfold receive
  split <;> rfl

@[simp] theorem receive_actuator (f : CanFrame) : (b.receive f).actuator = b.actuator := by
  unfold receive
  split <;> rfl

@[simp] theorem sendSlot_receive (f : CanFrame) (id : CanId) :
    (b.receive f).sendSlot id = b.sendSlot id := by
  unfold receive
  split <;> rfl

theorem recvSlot_receive (f : CanFrame) {id : CanId} (hid : id ∈ b.registry.actuatorById) :
    (b.receive f).recvSlot id = if id.key = f.keyExtractor then f else b.recvSlot id := by
  unfold receive
  split
  next id' hfind =>
    have hkey : id'.key = f.keyExtractor := by simpa using List.find?_some hfind
    simp only [recvSlot_storeFeedback, ← hkey, CanId.key_injective.eq_iff]
  next hnone =>
    have hkey := List.find?_eq_none.mp hnone id hid
    rw [if_neg (by simpa using hkey)]

end OperationLaws

section DecodeLaws
variable {K : Type*} [Field K] (b : CanBus K)

@[simp] theorem recvSlot_parse (id id' : CanId) : (b.parse id).recvSlot id' = b.recvSlot id' := rfl

theorem actuator_parse (id id' : CanId) :
    ((b.parse id).actuator id').val =
      if id' = id then (b.actuator id').val.parseFeedback (b.recvSlot id')
      else (b.actuator id').val := by
  split_ifs with h
  · subst h; simp [parse]
  · simp [parse, setActuator_ne _ h]

end DecodeLaws

section StepLaws
variable {K : Type*} [Field K] [LinearOrder K] [FloorSemiring K] (b : CanBus K)

theorem sendSlot_setPeriodic (id id' : CanId) (c : Periodic K) :
    (b.setPeriodic id c).sendSlot id' =
      if id' = id then (b.actuator id).val.periodic c else b.sendSlot id' :=
  b.sendSlot_writeSend id id' _

@[simp] theorem step_registry (op : Op K) : (b.step op).1.registry = b.registry := by
  cases op with
  | sendOnce name c => simp only [step]; split <;> rfl
  | setPeriodic name c => simp only [step]; split <;> rfl
  | transmitAll => rfl
  | receive f => exact b.receive_registry f
  | get name => simp only [step]; split <;> rfl

@[simp] theorem after_registry (ops : List (Op K)) : (b.after ops).registry = b.registry := by
  induction ops generalizing b with
  | nil => rfl
  | cons op ops ih => exact (ih (b.step op).1).trans (b.step_registry op)

end StepLaws
end CanBus
end MybipedalDeploy.JointDriver
