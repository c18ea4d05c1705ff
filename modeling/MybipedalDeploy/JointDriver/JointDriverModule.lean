import MybipedalDeploy.JointDriver.XyberController

/-!
# The joint driver module

Configuration, start-up, the command callback and shutdown. A missing or badly
typed configuration entry is `none`; reading it raises an exception, which
`Initialize` turns into a failed start like every other error.
-/

namespace MybipedalDeploy.JointDriver
open Threads (Thread)

structure JointData (K : Type*) where
  effort : K
  velocity : K
  position : K
  kp : K
  kd : K

structure DataSpace (K : Type*) where
  cmd : JointData K
  state : JointData K

def JointData.zero {K : Type*} [Field K] : JointData K := ⟨0, 0, 0, 0, 0⟩
def DataSpace.zero {K : Type*} [Field K] : DataSpace K := ⟨.zero, .zero⟩

structure SimpleTransmission (K : Type*) where
  name : String
  direction : K
  actuator : String
  joint : String

structure ActuatorConfig where
  name : String
  type : String
  canId : BitVec 32

structure DriverConfig where
  name : String
  interfaces : List String
  enable : Bool
  ch : Fin 4 → List ActuatorConfig

structure CanServiceConfig where
  bindCpu : ℤ
  rtPriority : ℤ
  cycleTimeNs : ℕ

structure TransmissionConfig (K : Type*) where
  name : Option String
  type : Option String
  direction : Option K
  joint : Option String
  actuator : Option String

structure Config (K : Type*) where
  actuatorDebug : Option Bool
  enableActuator : Option Bool
  publishFrequency : Option K
  jointList : Option (List String)
  actuatorList : Option (List String)
  driverNetwork : Option (List DriverConfig)
  canService : Option CanServiceConfig
  transmission : List (TransmissionConfig K)

inductive InitError
  | yaml
  | interfaceSize
  | socket
  | deviceCreate (device : String)
  | actuatorRegister (actuator : String)
  | controllerStart
  | enableActuator
  | transmissionType (name type : String)
  | framework
  deriving DecidableEq

/-- The data spaces are listed in the iteration order of their hash maps. -/
structure JointDriverModule (K : Type*) where
  ctrl : XyberController K
  isRunning : Bool
  jointNameList : List String
  actuatorNameList : List String
  jointDataSpace : List (String × DataSpace K)
  actuatorDataSpace : List (String × DataSpace K)
  transmission : List (SimpleTransmission K)

namespace JointDriverModule
variable {K : Type*}

def withCtrl (s : JointDriverModule K) (w : XyberController K) : JointDriverModule K := { s with ctrl := w }

def empty : JointDriverModule K := ⟨.empty, false, [], [], [], [], []⟩

section Configure
variable [Field K]

def attachActuators (device : String) (listed : List String) :
    List (Fin 4 × ActuatorConfig) → XyberController K → Option InitError × XyberController K
  | [], w => (none, w)
  | (ch, actr) :: rest, w =>
    if actr.name ∉ listed then attachActuators device listed rest w
    else
      match w.attachActuator device ch (stringToType actr.type) actr.name
        (actr.canId.setWidth 8) with
      | (true, w) => attachActuators device listed rest w
      | (false, w) => (some (.actuatorRegister actr.name), w)

def configureDriver (opens : String → Bool) (listed : List String) (cfg : DriverConfig)
    (w : XyberController K) : Option InitError × XyberController K :=
  if cfg.enable = false then (none, w)
  else if h : cfg.interfaces.length = 4 then
    match w.createDevice opens cfg.name fun i => cfg.interfaces[i] with
    | (.exists, w) => (some (.deviceCreate cfg.name), w)
    | (.noInterface, w) => (some .socket, w)
    | (.created, w) =>
      attachActuators cfg.name listed
        ((List.finRange 4).flatMap fun ch => (cfg.ch ch).map (ch, ·)) w
  else (some .interfaceSize, w)

def configure (opens : String → Bool) (listed : List String) :
    List DriverConfig → XyberController K → Option InitError × XyberController K
  | [], w => (none, w)
  | cfg :: rest, w =>
    match configureDriver opens listed cfg w with
    | (none, w) => configure opens listed rest w
    | (some e, w) => (some e, w)

/-- `joint_data_space_[name];` inserts a zero entry unless there is one. -/
def createData (names : List String) (data : List (String × DataSpace K)) :
    List (String × DataSpace K) :=
  names.foldl (fun data name =>
    if name ∈ data.map Prod.fst then data else data ++ [(name, .zero)]) data

/-- Names without data are ignored with a warning. -/
def bindTransmission (node : TransmissionConfig K) (s : JointDriverModule K) :
    Option InitError × JointDriverModule K :=
  match node.name, node.type with
  | some name, some type =>
    if type = "SimpleTransmission" then
      match node.direction, node.joint, node.actuator with
      | some direction, some joint, some actuator =>
        if joint ∈ s.jointDataSpace.map Prod.fst ∧ actuator ∈ s.actuatorDataSpace.map Prod.fst then
          (none, { s with transmission := s.transmission ++ [⟨name, direction, actuator, joint⟩] })
        else (none, s)
      | _, _, _ => (some .yaml, s)
    else (some (.transmissionType name type), s)
  | _, _ => (some .yaml, s)

def bindTransmissions : List (TransmissionConfig K) → JointDriverModule K →
    Option InitError × JointDriverModule K
  | [], s => (none, s)
  | node :: rest, s =>
    match bindTransmission node s with
    | (none, s) => bindTransmissions rest s
    | (some e, s) => (some e, s)

def initTransmission (nodes : List (TransmissionConfig K)) (s : JointDriverModule K) :
    Option InitError × JointDriverModule K :=
  bindTransmissions nodes { s with
    jointDataSpace := createData s.jointNameList s.jointDataSpace
    actuatorDataSpace := createData s.actuatorNameList s.actuatorDataSpace }

end Configure

section Start
variable [Field K] [LinearOrder K] [FloorSemiring K]

def enableActuators (names : List String) : Thread (JointDriverModule K) Bool :=
  (Thread.forEach XyberController.enableActuator names).lift ctrl withCtrl

def clearCommands : List String → Thread (JointDriverModule K) Unit
  | [] => .ret ()
  | name :: names =>
    .step (fun s => s.withCtrl (s.ctrl.setMitCmd name 0 0 0 0 0)) fun _ => clearCommands names

def startActuators (enable : Bool) : Thread (JointDriverModule K) (Option InitError) :=
  .step (fun s => s.withCtrl s.ctrl.start.2) fun s =>
    if s.ctrl.start.1 = false then .ret (some .controllerStart)
    else if enable then
      (enableActuators s.actuatorNameList).bind fun ok =>
        if ok then (clearCommands s.actuatorNameList).bind fun _ => .ret none
        else .ret (some .enableActuator)
    else .ret none

/-- The devices are set up in one section: until the start no other thread uses them. -/
def initDriver (opens : String → Bool) (cfg : Config K) (enable : Bool) :
    Thread (JointDriverModule K) (Option InitError) :=
  match cfg.driverNetwork, cfg.canService with
  | some network, some _ =>
    .step (fun s => s.withCtrl (configure opens s.actuatorNameList network s.ctrl).2) fun s =>
      match (configure opens s.actuatorNameList network s.ctrl).1 with
      | some e => .ret (some e)
      | none => startActuators enable
  | _, _ => .ret (some .yaml)

/-- `framework` says whether the publishers and the subscriber can be set up. -/
def initializeModule (opens : String → Bool) (framework : Bool) (file : Option (Config K)) :
    Thread (JointDriverModule K) (Option InitError) :=
  match file with
  | none => .ret (some .yaml)
  | some cfg =>
    match cfg.actuatorDebug, cfg.enableActuator, cfg.publishFrequency, cfg.jointList,
      cfg.actuatorList with
    | some _, some enable, some _, some joints, some actuators =>
      .step (fun s => { s with jointNameList := joints, actuatorNameList := actuators }) fun _ =>
        (initDriver opens cfg enable).bind fun
          | some e => .ret (some e)
          | none =>
            .step (fun s => (initTransmission cfg.transmission s).2) fun s =>
              match (initTransmission cfg.transmission s).1 with
              | some e => .ret (some e)
              | none => .ret (if framework then none else some .framework)
    | _, _, _, _, _ => .ret (some .yaml)

end Start
end JointDriverModule
end MybipedalDeploy.JointDriver
