import MybipedalDeploy.JointDriver.SocketCan

/-!
# Devices, sockets and the controller

The controller owns the devices, a device its four buses, and every bus of one
interface shares its socket. `deviceOrder` is the iteration order of the device
map. Other threads (receiver, sender, control loop, publisher, command callback)
act between the sections of a call.
-/

namespace MybipedalDeploy.JointDriver
open Threads (Thread)

structure CanDevice (K : Type*) where
  buses : Fin 4 → Option (CanBus K)
  actuatorBusMap : String → Option (Fin 4)
  isRunning : Bool
  /-- The control loop thread has not been joined. -/
  looping : Bool

structure XyberController (K : Type*) where
  deviceOrder : List String
  nodup : deviceOrder.Nodup
  device : String → CanDevice K
  actrDevMap : String → Option String
  isRunning : Bool
  socket : String → SocketCan

namespace CanDevice
variable {K : Type*}

def empty : CanDevice K := ⟨fun _ => none, fun _ => none, false, false⟩

def new [Field K] (interfaces : Fin 4 → String) : CanDevice K where
  buses := fun i => if interfaces i = "" then none else some (.new (interfaces i))
  actuatorBusMap := fun _ => none
  isRunning := false
  looping := false

def active (d : CanDevice K) : List (Fin 4) := (List.finRange 4).filter fun i => (d.buses i).isSome

theorem mem_active {d : CanDevice K} {i : Fin 4} : i ∈ d.active ↔ (d.buses i).isSome = true := by
  simp [active]

def start (d : CanDevice K) : CanDevice K :=
  if d.isRunning then d else { d with isRunning := true, looping := true }

end CanDevice

namespace SocketCan

def closed : SocketCan := ⟨false, [], fun _ => none⟩

end SocketCan

namespace XyberController

section Access
variable {K : Type*}

def empty : XyberController K := ⟨[], List.nodup_nil, fun _ => .empty, fun _ => none, false, fun _ => .closed⟩

variable (w : XyberController K)

def busAt (ref : BusRef) : Option (CanBus K) := (w.device ref.device).buses ref.bus

def setDevice (name : String) (d : CanDevice K) : XyberController K :=
  { w with device := Function.update w.device name d }

def setBus (ref : BusRef) (b : CanBus K) : XyberController K :=
  w.setDevice ref.device { w.device ref.device with
    buses := Function.update (w.device ref.device).buses ref.bus (some b) }

def setSocket (interface : String) (s : SocketCan) : XyberController K :=
  { w with socket := Function.update w.socket interface s }

variable [Field K]

def port (ref : BusRef) : Port K :=
  let b := (w.busAt ref).getD (CanBus.new "")
  ⟨b, w.socket b.interface⟩

/-- A bus that was not created stays so. -/
def setPort (ref : BusRef) (p : Port K) : XyberController K :=
  if (w.busAt ref).isSome then (w.setBus ref p.bus).setSocket p.bus.interface p.socket else w

def onPort (ref : BusRef) (f : Port K → Port K) : XyberController K := w.setPort ref (f (w.port ref))

end Access

section Laws
variable {K : Type*}

structure Registration where
  deviceOrder : List String
  actrDevMap : String → Option String
  actuatorBusMap : String → String → Option (Fin 4)
  bus : BusRef → Option Registry

def registration (w : XyberController K) : Registration where
  deviceOrder := w.deviceOrder
  actrDevMap := w.actrDevMap
  actuatorBusMap := fun d => (w.device d).actuatorBusMap
  bus := fun ref => (w.busAt ref).map CanBus.registry

variable (w : XyberController K) (ref ref' : BusRef)

theorem busAt_setBus (b : CanBus K) :
    (w.setBus ref b).busAt ref' = if ref' = ref then some b else w.busAt ref' := by
  obtain ⟨d, i⟩ := ref
  obtain ⟨d', i'⟩ := ref'
  simp only [busAt, setBus, setDevice, Function.update_apply, BusRef.mk.injEq]
  by_cases hd : d' = d
  · subst hd
    simp [Function.update_apply]
  · simp [hd]

@[simp] theorem busAt_setSocket (interface : String) (s : SocketCan) :
    (w.setSocket interface s).busAt ref = w.busAt ref := rfl

theorem actuatorBusMap_setBus (b : CanBus K) (d : String) :
    ((w.setBus ref b).device d).actuatorBusMap = (w.device d).actuatorBusMap := by
  simp only [setBus, setDevice, Function.update_apply]
  split_ifs with h
  · rw [h]
  · rfl

theorem registration_setBus {b : CanBus K}
    (h : (w.busAt ref).map CanBus.registry = some b.registry) :
    (w.setBus ref b).registration = w.registration := by
  simp only [registration, Registration.mk.injEq]
  refine ⟨rfl, rfl, funext fun d => w.actuatorBusMap_setBus ref b d, funext fun ref' => ?_⟩
  rw [busAt_setBus]
  split_ifs with hr
  · rw [hr, h]
    rfl
  · rfl

@[simp] theorem isRunning_setPort (p : Port K) : (w.setPort ref p).isRunning = w.isRunning := by
  unfold setPort
  split_ifs <;> rfl

variable [Field K]

theorem registration_setPort {p : Port K} (h : p.bus.registry = (w.port ref).bus.registry) :
    (w.setPort ref p).registration = w.registration := by
  unfold setPort
  split_ifs with hsome
  · obtain ⟨b, hb⟩ := Option.isSome_iff_exists.mp hsome
    refine w.registration_setBus ref ?_
    simp [hb, h, port]
  · rfl

end Laws

section Configuration
variable {K : Type*} [Field K] (w : XyberController K)

inductive Creation
  | created | exists | noInterface
  deriving DecidableEq

/-- `SocketCAN::get` for every named interface; `opens` says which ones the system has. -/
def openSockets (opens : String → Bool) : List String → XyberController K → Bool × XyberController K
  | [], w => (true, w)
  | i :: is, w =>
    if i = "" ∨ (w.socket i).opened = true then openSockets opens is w
    else if opens i then openSockets opens is (w.setSocket i .new)
    else (false, w)

def createDevice (opens : String → Bool) (name : String) (interfaces : Fin 4 → String) :
    Creation × XyberController K :=
  if hname : name ∈ w.deviceOrder then (.exists, w)
  else
    let r := openSockets opens ((List.finRange 4).map interfaces) w
    if r.1 then
      (.created, { r.2 with
        deviceOrder := w.deviceOrder ++ [name]
        nodup := by simpa [List.nodup_append, w.nodup] using fun a ha e => hname (by simpa [← e] using ha)
        device := Function.update r.2.device name (.new interfaces) })
    else (.noInterface, r.2)

/-- `CanDevice::AttachActuator`; the receive callback goes to the socket of the bus. -/
def attachToDevice (device : String) (busIdx : ℕ) (type : ActuatorType) (actrName : String)
    (canId : Byte) : Bool × XyberController K :=
  let d := w.device device
  if d.isRunning then (false, w)
  else if hidx : busIdx < 4 then
    let ref : BusRef := ⟨device, busIdx, hidx⟩
    match d.buses ref.bus with
    | none => (false, w)
    | some b =>
      if (d.actuatorBusMap actrName).isSome then (false, w)
      else if type = .unknown then (false, w)
      else
        match b.registerActuator type actrName canId with
        | none => (false, w)
        | some (id, b) =>
          let w := w.setBus ref b
          let w := w.setSocket b.interface
            ((w.socket b.interface).addCanCallback (ref, id) id.key)
          (true, w.setDevice device { w.device device with
            actuatorBusMap := Function.update d.actuatorBusMap actrName (some ref.bus) })
  else (false, w)

def attachActuator (device : String) (busIdx : ℕ) (type : ActuatorType) (actrName : String)
    (canId : Byte) : Bool × XyberController K :=
  if device ∉ w.deviceOrder then (false, w)
  else if (w.actrDevMap actrName).isSome then (false, w)
  else
    match w.attachToDevice device busIdx type actrName canId with
    | (false, w) => (false, w)
    | (true, w) =>
      (true, { w with actrDevMap := Function.update w.actrDevMap actrName (some device) })

/-- Starting a device cannot fail, so the roll-back is never reached. -/
def start : Bool × XyberController K :=
  if w.isRunning then (true, w)
  else if w.deviceOrder = [] then (false, w)
  else (true, { w with
    isRunning := true
    device := fun d => if d ∈ w.deviceOrder then (w.device d).start else w.device d })

def findBus (name : String) : Option BusRef :=
  (w.actrDevMap name).bind fun d => ((w.device d).actuatorBusMap name).map fun i => ⟨d, i⟩

end Configuration

section Calls
variable {K : Type*} [Field K]

def enableActuator (name : String) : Thread (XyberController K) Bool :=
  .look fun w =>
    match w.findBus name with
    | none => .ret false
    | some ref => (Port.enableActuator name).lift (port · ref) (setPort · ref)

def disableActuator (name : String) : Thread (XyberController K) Bool :=
  .look fun w =>
    match w.findBus name with
    | none => .ret false
    | some ref => (Port.disableActuator name).lift (port · ref) (setPort · ref)

def disableDevice (w : XyberController K) (device : String) : Thread (XyberController K) Bool :=
  Thread.forAll (fun i =>
    (Port.disableAll (w.port ⟨device, i⟩).bus).lift (port · ⟨device, i⟩) (setPort · ⟨device, i⟩))
    (w.device device).active

def disableAllActuator : Thread (XyberController K) Bool :=
  .look fun w => Thread.forAll w.disableDevice w.deviceOrder

/-- The loop thread may finish its pass between the flag and the join. -/
def stopDevice (device : String) : Thread (XyberController K) Bool :=
  .look fun w =>
    if (w.device device).isRunning then
      .step (fun w => w.setDevice device { w.device device with isRunning := false }) fun _ =>
        .step (fun w => w.setDevice device { w.device device with looping := false }) fun _ =>
          .ret true
    else .ret true

def stop : Thread (XyberController K) Unit :=
  .look fun w =>
    if w.isRunning then
      (Thread.forEach stopDevice w.deviceOrder).bind fun _ =>
        .exec fun w => { w with isRunning := false }
    else .ret ()

variable [LinearOrder K] [FloorSemiring K]

def setMitCmd (w : XyberController K) (name : String) (pos vel effort kp kd : K) :
    XyberController K :=
  match w.findBus name with
  | none => w
  | some ref =>
    w.onPort ref fun p =>
      { p with bus := (p.bus.step (.setPeriodic name (.setMitCmd pos vel effort kp kd))).1 }

end Calls

inductive Event (K : Type*)
  | receive (interface : String) (f : CanFrame)
  | sender (interface : String)
  | controlLoop (ref : BusRef)
  | get (name : String)
  | setMitCmd (name : String) (pos vel effort kp kd : K)

def Event.isCommand {K : Type*} : Event K → Bool
  | .setMitCmd .. => true
  | _ => false

section Others
variable {K : Type*} [Field K] [LinearOrder K] [FloorSemiring K]

def apply (w : XyberController K) : Event K → XyberController K
  | .receive interface f =>
    match (w.socket interface).canCallbackList f.keyExtractor with
    | none => w
    | some (ref, id) => w.onPort ref fun p => { p with bus := p.bus.storeFeedback id f }
  | .sender interface => w.setSocket interface (w.socket interface).pop
  | .controlLoop ref =>
    if (w.device ref.device).looping ∧ (w.busAt ref).isSome then w.onPort ref Port.transmitAll
    else w
  | .get name =>
    match w.findBus name with
    | none => w
    | some ref => w.onPort ref fun p => { p with bus := (p.bus.step (.get name)).1 }
  | .setMitCmd name pos vel effort kp kd => w.setMitCmd name pos vel effort kp kd

def others (events : ℕ → List (Event K)) (n : ℕ) (w : XyberController K) : XyberController K :=
  (events n).foldl apply w

end Others

def Everywhere {K : Type*} (P : CanBus K → Prop) (w : XyberController K) : Prop :=
  ∀ ref b, w.busAt ref = some b → P b

section Invariants
variable {K : Type*} {P : CanBus K → Prop} {w : XyberController K}

theorem Everywhere.setBus (h : Everywhere P w) (ref : BusRef) {b : CanBus K} (hb : P b) :
    Everywhere P (w.setBus ref b) := by
  intro ref' b' hb'
  rw [busAt_setBus] at hb'
  split_ifs at hb' with href
  · cases hb'
    exact hb
  · exact h ref' b' hb'

variable [Field K]

theorem Everywhere.onPort (h : Everywhere P w) (ref : BusRef) {f : Port K → Port K}
    (hf : P (w.port ref).bus → P (f (w.port ref)).bus) : Everywhere P (w.onPort ref f) := by
  unfold XyberController.onPort setPort
  split_ifs with hsome
  · obtain ⟨b, hb⟩ := Option.isSome_iff_exists.mp hsome
    have hport : P (w.port ref).bus := by simpa [port, hb] using h ref b hb
    exact h.setBus ref (hf hport)
  · exact h

variable [LinearOrder K] [FloorSemiring K]

structure Passive (P : CanBus K → Prop) : Prop where
  storeFeedback : ∀ b id f, P b → P (b.storeFeedback id f)
  transmitAll : ∀ p : Port K, P p.bus → P p.transmitAll.bus
  get : ∀ b name, P b → P (b.step (.get name)).1

structure Stable (P : CanBus K → Prop) : Prop extends Passive P where
  setPeriodic : ∀ b name c, P b → P (b.step (.setPeriodic name c)).1

theorem Everywhere.setMitCmd (h : Everywhere P w) (hP : Stable P) (name : String)
    (pos vel effort kp kd : K) : Everywhere P (w.setMitCmd name pos vel effort kp kd) := by
  unfold XyberController.setMitCmd
  split
  · exact h
  · exact h.onPort _ (hP.setPeriodic _ name _)

theorem Everywhere.apply_passive (h : Everywhere P w) (hP : Passive P) {e : Event K}
    (he : e.isCommand = false) : Everywhere P (w.apply e) := by
  cases e with
  | receive interface f =>
    simp only [XyberController.apply]
    split
    · exact h
    · exact h.onPort _ (hP.storeFeedback _ _ f)
  | sender interface => exact h
  | controlLoop ref =>
    simp only [XyberController.apply]
    split_ifs
    · exact h.onPort ref (hP.transmitAll _)
    · exact h
  | get name =>
    simp only [XyberController.apply]
    split
    · exact h
    · exact h.onPort _ (hP.get _ name)
  | setMitCmd => cases he

theorem Everywhere.apply (h : Everywhere P w) (hP : Stable P) (e : Event K) :
    Everywhere P (w.apply e) := by
  cases e with
  | setMitCmd name pos vel effort kp kd => exact h.setMitCmd hP name pos vel effort kp kd
  | _ => exact h.apply_passive hP.toPassive rfl

theorem Everywhere.others (h : Everywhere P w) (hP : Stable P) (events : ℕ → List (Event K))
    (n : ℕ) : Everywhere P (others events n w) := by
  unfold XyberController.others
  generalize events n = es
  induction es generalizing w with
  | nil => exact h
  | cons e es ih => exact ih (h.apply hP e)

end Invariants
end XyberController
end MybipedalDeploy.JointDriver
