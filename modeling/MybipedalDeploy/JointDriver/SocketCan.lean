import MybipedalDeploy.JointDriver.CanBus

/-!
# Sockets and the threads that use a bus

A socket queues frames for its sender thread and drops what does not fit. A port
is a bus with its socket; enabling and disabling an actuator are threads on a
port, one section for each mutex they take.
-/

namespace MybipedalDeploy.JointDriver
open Threads (Thread)

structure BusRef where
  device : String
  bus : Fin 4
  deriving DecidableEq

def BusRef.first (device : String) : BusRef := ⟨device, 0⟩

/-- The callback of a key stores into the receive slot of one actuator. -/
structure SocketCan where
  opened : Bool
  txQueue : List CanFrame
  canCallbackList : BitVec 16 → Option (BusRef × CanId)

namespace SocketCan

def txQueueSize : ℕ := 4096

def new : SocketCan := ⟨true, [], fun _ => none⟩

def accepts (s : SocketCan) : Bool := s.opened && decide (s.txQueue.length < txQueueSize)

def transmit (s : SocketCan) (f : CanFrame) : SocketCan :=
  if s.accepts then { s with txQueue := s.txQueue ++ [f] } else s

def addCanCallback (s : SocketCan) (callback : BusRef × CanId) (key : BitVec 16) : SocketCan :=
  { s with canCallbackList := Function.update s.canCallbackList key (some callback) }

def pop (s : SocketCan) : SocketCan := { s with txQueue := s.txQueue.tail }

end SocketCan

structure Port (K : Type*) where
  bus : CanBus K
  socket : SocketCan

namespace Port

section Sections
variable {K : Type*} (p : Port K)

def record (e : BusEvent) : Port K := { p with bus := { p.bus with trace := p.bus.trace ++ [e] } }

def transmit (origin : Origin) (f : CanFrame) : Port K :=
  if p.socket.accepts then { p.record (.queued origin f) with socket := p.socket.transmit f }
  else p

def transmitAll : Port K := p.bus.transmitAll.foldl (fun p f => p.transmit .cyclic f) p

def capture (id : CanId) (c : OneShot) : Port K :=
  { p with bus := (p.bus.sendOnce id c).1 }.record (.captured (p.bus.sendOnce id c).2)

def receive (f : CanFrame) : Port K := { p with bus := p.bus.receive f }

def parse [Field K] (id : CanId) : Port K := { p with bus := p.bus.parse id }

def powerState [Field K] (id : CanId) : ActuatorState := (p.bus.get id).2.powerState

end Sections

section Threads
variable {K : Type*} [Field K]

def sendOnce (id : CanId) (c : OneShot) : Thread (Port K) Unit :=
  .step (fun p => p.capture id c) fun p => .exec fun q => q.transmit .once (p.bus.sendOnce id c).2

/-- `COM_TIMEOUT_MS / 10` -/
def pollLimit : ℕ := 1000 / 10

/-- Ask for a power state and poll the feedback every ten milliseconds. -/
def requestPower (want other : ActuatorState) (name : String) : Thread (Port K) Bool :=
  .look fun p =>
    match p.bus.registry.getActuator name with
    | none => .ret false
    | some id =>
      (sendOnce id (.requestState want)).bind fun _ =>
        (Thread.poll (fun p => p.parse id) (fun p => p.powerState id) want pollLimit other).bind
          fun state => .ret (decide (state = want))

theorem run_requestPower (env : ℕ → Port K → Port K) (want other : ActuatorState) {name : String}
    {id : CanId} {p : Port K} (hname : p.bus.registry.getActuator name = some id) (n : ℕ) :
    (requestPower want other name).run env n p =
      let sent := (env (n + 1) ((env n p).capture id (.requestState want))).transmit .once
        ((env n p).bus.sendOnce id (.requestState want)).2
      let r := (Thread.poll (fun p : Port K => p.parse id) (fun p => p.powerState id) want pollLimit
        other).run env (n + 2) sent
      ⟨decide (r.value = want), r.tick, r.state⟩ := by
  simp only [requestPower, Thread.run, hname, Thread.run_bind]
  rfl

theorem run_lift_requestPower {τ : Type*} (get : τ → Port K) (put : τ → Port K → τ)
    (env : ℕ → τ → τ) (want other : ActuatorState) {name : String} {id : CanId} {t : τ}
    (hname : (get t).bus.registry.getActuator name = some id) (n : ℕ) :
    ((requestPower want other name).lift get put).run env n t =
      let t₁ := env n t
      let t₂ := env (n + 1) (put t₁ ((get t₁).capture id (.requestState want)))
      let sent := put t₂ ((get t₂).transmit .once
        ((get t₁).bus.sendOnce id (.requestState want)).2)
      let r := (Thread.poll (fun t => put t ((get t).parse id)) (fun t => (get t).powerState id)
        want pollLimit other).run env (n + 2) sent
      ⟨decide (r.value = want), r.tick, r.state⟩ := by
  simp only [requestPower, Thread.lift, Thread.run, hname, Thread.lift_bind, Thread.run_bind,
    Thread.lift_poll]
  rfl

def enableActuator (name : String) : Thread (Port K) Bool :=
  requestPower .stateEnable .stateDisable name

def disableActuator (name : String) : Thread (Port K) Bool :=
  requestPower .stateDisable .stateEnable name

def disableAll (bus : CanBus K) : Thread (Port K) Bool :=
  Thread.forAll disableActuator (bus.registry.actuatorByName.map Prod.fst)

end Threads

inductive Event (K : Type*)
  | op (op : CanBus.Op K)
  | sender

section Others
variable {K : Type*} [Field K] [LinearOrder K] [FloorSemiring K]

def apply (p : Port K) : Event K → Port K
  | .op (.sendOnce name c) =>
    match p.bus.registry.getActuator name with
    | some id => (p.capture id c).transmit .once (p.bus.sendOnce id c).2
    | none => p
  | .op .transmitAll => p.transmitAll
  | .op op => { p with bus := (p.bus.step op).1 }
  | .sender => { p with socket := p.socket.pop }

def others (events : ℕ → List (Event K)) (n : ℕ) (p : Port K) : Port K :=
  (events n).foldl apply p

end Others

section Laws
variable {K : Type*} (p : Port K)

theorem sendOnce_requestState (b : CanBus K) (id : CanId) (state : ActuatorState) :
    (b.sendOnce id (.requestState state)).2 = (b.actuator id).val.requestState state :=
  b.sendOnce_frame id (.requestState state)

@[simp] theorem transmit_registry (origin : Origin) (f : CanFrame) :
    (p.transmit origin f).bus.registry = p.bus.registry := by
  unfold transmit
  split_ifs <;> rfl

@[simp] theorem transmit_actuator (origin : Origin) (f : CanFrame) :
    (p.transmit origin f).bus.actuator = p.bus.actuator := by
  unfold transmit
  split_ifs <;> rfl

@[simp] theorem recvSlot_transmit (origin : Origin) (f : CanFrame) (id : CanId) :
    (p.transmit origin f).bus.recvSlot id = p.bus.recvSlot id := by
  unfold transmit
  split_ifs <;> rfl

@[simp] theorem capture_registry (id : CanId) (c : OneShot) :
    (p.capture id c).bus.registry = p.bus.registry := rfl

@[simp] theorem transmitAll_registry : p.transmitAll.bus.registry = p.bus.registry := by
  unfold transmitAll
  generalize p.bus.transmitAll = fs
  induction fs generalizing p with
  | nil => rfl
  | cons f fs ih => simpa using ih (p.transmit .cyclic f)

@[simp] theorem apply_registry [Field K] [LinearOrder K] [FloorSemiring K] (e : Event K) :
    (p.apply e).bus.registry = p.bus.registry := by
  rcases e with (⟨name, c⟩ | ⟨name, c⟩ | _ | f | name) | _
  · simp only [apply]
    split <;> simp
  · exact p.bus.step_registry (.setPeriodic name c)
  · exact p.transmitAll_registry
  · exact p.bus.step_registry (.receive f)
  · exact p.bus.step_registry (.get name)
  · rfl

end Laws
end Port
end MybipedalDeploy.JointDriver
