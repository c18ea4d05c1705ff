import MybipedalDeploy.JointDriver.XyberController

/-!
# Creating devices and attaching actuators

A device is created with a bus for every interface it names. An attachment that is
refused changes nothing; one that succeeds puts the actuator on its bus, in the maps of
the device and of the controller, and its callback on the socket.
-/

namespace MybipedalDeploy.JointDriver.XyberController
variable {K : Type*} {w : XyberController K}

def attached (w : XyberController K) (ref : BusRef) (name : String) (id : CanId) (b : CanBus K) :
    XyberController K :=
  let w₁ := (w.setBus ref b).setSocket b.interface
    (((w.setBus ref b).socket b.interface).addCanCallback (ref, id) id.key)
  { w₁.setDevice ref.device { w₁.device ref.device with
      actuatorBusMap := Function.update (w.device ref.device).actuatorBusMap name (some ref.bus) } with
    actrDevMap := Function.update w.actrDevMap name (some ref.device) }

structure Attachable (w : XyberController K) (ref : BusRef) (name : String) (b : CanBus K) : Prop where
  known : ref.device ∈ w.deviceOrder
  stopped : (w.device ref.device).isRunning = false
  bus : w.busAt ref = some b
  unmapped : w.actrDevMap name = none
  unlisted : (w.device ref.device).actuatorBusMap name = none

theorem busAt_attached (ref ref' : BusRef) (name : String) (id : CanId) (b : CanBus K) :
    (w.attached ref name id b).busAt ref' = if ref' = ref then some b else w.busAt ref' := by
  rw [← busAt_setBus]
  simp only [attached, busAt, setDevice, setSocket, Function.update_apply]
  split_ifs with h
  · rw [h]
  · rfl

theorem openSockets_keeps (opens : String → Bool) (is : List String) (w : XyberController K) :
    ∃ socket, (openSockets opens is w).2 = { w with socket := socket } := by
  induction is generalizing w with
  | nil => exact ⟨w.socket, rfl⟩
  | cons i is ih =>
    simp only [openSockets]
    split_ifs
    · exact ih w
    · exact ih (w.setSocket i .new)
    · exact ⟨w.socket, rfl⟩

theorem nodup_deviceOrder_concat {name : String} (hname : name ∉ w.deviceOrder) :
    (w.deviceOrder ++ [name]).Nodup :=
  List.nodup_append.mpr ⟨w.nodup, List.nodup_singleton name, fun _ hd _ hname' heq =>
    hname (List.mem_singleton.mp hname' ▸ heq ▸ hd)⟩

section Call
variable [Field K]

def created (w : XyberController K) (name : String) (interfaces : Fin 4 → String)
    (hname : name ∉ w.deviceOrder) (socket : String → SocketCan) : XyberController K :=
  { w with
    deviceOrder := w.deviceOrder ++ [name]
    nodup := nodup_deviceOrder_concat hname
    device := Function.update w.device name (.new interfaces)
    socket := socket }

theorem busAt_created (name : String) (interfaces : Fin 4 → String) (hname : name ∉ w.deviceOrder)
    (socket : String → SocketCan) (ref : BusRef) :
    (w.created name interfaces hname socket).busAt ref =
      if ref.device = name then
        if interfaces ref.bus = "" then none else some (.new (interfaces ref.bus))
      else w.busAt ref := by
  simp only [created, busAt, Function.update_apply]
  split_ifs with hdev hempty
  · simp only [CanDevice.new, if_pos hempty]
  · simp only [CanDevice.new, if_neg hempty]
  · rfl

theorem createDevice_cases (w : XyberController K) (opens : String → Bool) (name : String)
    (interfaces : Fin 4 → String) :
    ((w.createDevice opens name interfaces).1 ≠ .created ∧
      ∃ socket, (w.createDevice opens name interfaces).2 = { w with socket := socket }) ∨
    ∃ hname, (openSockets opens ((List.finRange 4).map interfaces) w).1 = true ∧
      w.createDevice opens name interfaces = (.created, w.created name interfaces hname
        (openSockets opens ((List.finRange 4).map interfaces) w).2.socket) := by
  obtain ⟨socket, hsocket⟩ := openSockets_keeps opens ((List.finRange 4).map interfaces) w
  unfold createDevice
  by_cases hname : name ∈ w.deviceOrder
  · exact .inl ⟨by simp [dif_pos hname], w.socket, by rw [dif_pos hname]⟩
  · simp only [dif_neg hname, hsocket]
    split_ifs with hopen
    · exact .inr ⟨hname, hopen, rfl⟩
    · exact .inl ⟨by simp, socket, rfl⟩

/-- All that a call can do: refuse and change nothing, or enter the three maps. -/
theorem attachActuator_cases (w : XyberController K) (device : String) (busIdx : ℕ)
    (type : ActuatorType) (name : String) (canId : Byte) :
    w.attachActuator device busIdx type name canId = (false, w) ∨
    ∃ ref b id hid hname, ref.device = device ∧ ref.bus.val = busIdx ∧ id.val = canId ∧
      type ≠ .unknown ∧ w.Attachable ref name b ∧
      w.attachActuator device busIdx type name canId =
        (true, w.attached ref name id (b.attach type name id hid hname)) := by
  unfold attachActuator attachToDevice
  by_cases hknown : device ∈ w.deviceOrder
  case neg => exact .inl (if_pos hknown)
  rw [if_neg (not_not.mpr hknown)]
  cases hdev : w.actrDevMap name with
  | some d => exact .inl (by simp)
  | none =>
    dsimp only [Option.isSome_none]
    rw [if_neg Bool.false_ne_true]
    cases hrun : (w.device device).isRunning with
    | true => exact .inl (by simp)
    | false =>
      rw [if_neg Bool.false_ne_true]
      by_cases hidx : busIdx < 4
      case neg => exact .inl (by simp [hidx])
      rw [dif_pos hidx]
      cases hbus : (w.device device).buses ⟨busIdx, hidx⟩ with
      | none => exact .inl rfl
      | some b =>
        dsimp only
        cases hmap : (w.device device).actuatorBusMap name with
        | some i => exact .inl (by simp)
        | none =>
          rw [Option.isSome_none, if_neg Bool.false_ne_true]
          by_cases htype : type = .unknown
          · exact .inl (by simp [htype])
          rw [if_neg htype]
          cases hreg : b.registerActuator type name canId with
          | none => exact .inl rfl
          | some taken =>
            obtain ⟨id, b'⟩ := taken
            obtain ⟨hval, hid, hname, rfl⟩ := CanBus.registerActuator_eq_some hreg
            exact .inr ⟨⟨device, busIdx, hidx⟩, b, id, hid, hname, rfl, rfl, hval, htype,
              ⟨hknown, hrun, hbus, hdev, hmap⟩, rfl⟩

theorem attachActuator_failed {device : String} {busIdx : ℕ} {type : ActuatorType} {name : String}
    {canId : Byte} (h : (w.attachActuator device busIdx type name canId).1 = false) :
    (w.attachActuator device busIdx type name canId).2 = w := by
  rcases attachActuator_cases w device busIdx type name canId with hrefused | ⟨_, _, _, _, _, -, -, -, -,
    -, htaken⟩
  · rw [hrefused]
  · rw [htaken] at h
    cases h

end Call
end MybipedalDeploy.JointDriver.XyberController
