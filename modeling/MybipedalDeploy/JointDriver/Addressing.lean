import MybipedalDeploy.JointDriver.FailedStart
import MybipedalDeploy.JointDriver.Registration

/-!
# Which motor an actuator talks to

A configured identifier is cut to eight bits before the bus looks at it, and the
bus knows its own actuators only, while all buses of one interface share a table
of receive callbacks. The configuration decides whether this goes wrong.
-/

namespace MybipedalDeploy.JointDriver
open RobstrideMotor (commFeedback)

theorem CanFrame.keyExtractor_lt (f : CanFrame) : f.keyExtractor.toNat < 256 := by
  have hand : ((f.canId >>> 8) &&& 0xFF#32).toNat ≤ 255 := by
    rw [BitVec.toNat_and]
    exact Nat.and_le_right
  have hle := Nat.mod_le ((f.canId >>> 8) &&& 0xFF#32).toNat (2 ^ 16)
  simp only [CanFrame.keyExtractor, BitVec.toNat_setWidth]
  omega

namespace XyberController

/-- An actuator of the configuration, with the place and the interface it is to have. -/
structure Station where
  ref : BusRef
  interface : String
  actr : ActuatorConfig

namespace Station

def narrow (s : Station) : Byte := s.actr.canId.setWidth 8

theorem narrow_widens {s : Station} (h : s.actr.canId.toNat < 256) :
    s.narrow.setWidth 32 = s.actr.canId := by
  apply BitVec.eq_of_toNat_eq
  simp only [narrow, BitVec.toNat_setWidth]
  omega

end Station

section Wiring
variable {K : Type*}

structure SameWiring (w w' : XyberController K) : Prop where
  callbacks : ∀ i, (w'.socket i).canCallbackList = (w.socket i).canCallbackList
  buses : ∀ ref, (w'.busAt ref).map (fun b => (b.interface, b.registry)) =
    (w.busAt ref).map fun b => (b.interface, b.registry)

theorem callbacks_transmitAll (p : Port K) : p.transmitAll.bus.interface = p.bus.interface ∧
    p.transmitAll.socket.canCallbackList = p.socket.canCallbackList := by
  unfold Port.transmitAll
  generalize p.bus.transmitAll = fs
  induction fs generalizing p with
  | nil => exact ⟨rfl, rfl⟩
  | cons f fs ih =>
    have hone : (p.transmit .cyclic f).bus.interface = p.bus.interface ∧
        (p.transmit .cyclic f).socket.canCallbackList = p.socket.canCallbackList := by
      unfold Port.transmit SocketCan.transmit
      split_ifs <;> exact ⟨rfl, rfl⟩
    exact ⟨(ih _).1.trans hone.1, (ih _).2.trans hone.2⟩

namespace SameWiring

theorem refl (w : XyberController K) : SameWiring w w := ⟨fun _ => rfl, fun _ => rfl⟩

theorem trans {w w' w'' : XyberController K} (h : SameWiring w w') (h' : SameWiring w' w'') :
    SameWiring w w'' :=
  ⟨fun i => (h'.callbacks i).trans (h.callbacks i), fun ref => (h'.buses ref).trans (h.buses ref)⟩

theorem bus {w w' : XyberController K} (h : SameWiring w w') {ref : BusRef} {b : CanBus K}
    (hb : w.busAt ref = some b) :
    ∃ b', w'.busAt ref = some b' ∧ b'.interface = b.interface ∧ b'.registry = b.registry := by
  have hmap := h.buses ref
  rw [hb, Option.map_some, Option.map_eq_some_iff] at hmap
  obtain ⟨b', hb', hpair⟩ := hmap
  exact ⟨b', hb', congrArg Prod.fst hpair, congrArg Prod.snd hpair⟩

theorem start (w : XyberController K) : SameWiring w w.start.2 := by
  refine ⟨fun i => ?_, fun ref => by rw [busAt_start]⟩
  unfold XyberController.start
  split_ifs <;> rfl

variable [Field K]

theorem onPort (w : XyberController K) (ref : BusRef) {f : Port K → Port K}
    (hinterface : ∀ p, (f p).bus.interface = p.bus.interface)
    (hregistry : ∀ p, (f p).bus.registry = p.bus.registry)
    (hcallbacks : ∀ p, (f p).socket.canCallbackList = p.socket.canCallbackList) :
    SameWiring w (w.onPort ref f) := by
  unfold XyberController.onPort setPort
  split_ifs with hsome
  case neg => exact .refl w
  obtain ⟨b, hb⟩ := Option.isSome_iff_exists.mp hsome
  have hport : w.port ref = ⟨b, w.socket b.interface⟩ := by simp [port, hb]
  have hi := hinterface (w.port ref)
  have hr := hregistry (w.port ref)
  have hc := hcallbacks (w.port ref)
  rw [hport] at hi hr hc ⊢
  constructor
  · intro i
    simp only [setSocket, Function.update_apply, hi]
    split_ifs with heq
    · rw [hc, heq]
    · rfl
  · intro ref'
    rw [busAt_setSocket, busAt_setBus]
    split_ifs with heq
    · rw [heq, hb, Option.map_some, Option.map_some, hi, hr]
    · rfl

variable [LinearOrder K] [FloorSemiring K]

theorem interface_step (b : CanBus K) (op : CanBus.Op K) : (b.step op).1.interface = b.interface := by
  cases op with
  | sendOnce name c => simp only [CanBus.step]; split <;> rfl
  | setPeriodic name c => simp only [CanBus.step]; split <;> rfl
  | transmitAll => rfl
  | receive f => simp only [CanBus.step, CanBus.receive]; split <;> rfl
  | get name => simp only [CanBus.step]; split <;> rfl

theorem apply (w : XyberController K) (e : Event K) : SameWiring w (w.apply e) := by
  cases e with
  | receive interface f =>
    simp only [XyberController.apply]
    split
    · exact .refl w
    · exact .onPort w _ (fun _ => rfl) (fun _ => rfl) fun _ => rfl
  | sender interface =>
    refine ⟨fun i => ?_, fun _ => rfl⟩
    simp only [XyberController.apply, setSocket, Function.update_apply]
    split_ifs with heq
    · rw [heq]
      rfl
    · rfl
  | controlLoop ref =>
    simp only [XyberController.apply]
    split_ifs
    · exact .onPort w ref (fun p => (callbacks_transmitAll p).1) (fun p => p.transmitAll_registry)
        fun p => (callbacks_transmitAll p).2
    · exact .refl w
  | get name =>
    simp only [XyberController.apply]
    split
    · exact .refl w
    · exact .onPort w _ (fun p => interface_step p.bus _) (fun p => p.bus.step_registry _) fun _ => rfl
  | setMitCmd name pos vel effort kp kd =>
    simp only [XyberController.apply, setMitCmd]
    split
    · exact .refl w
    · exact .onPort w _ (fun p => interface_step p.bus _) (fun p => p.bus.step_registry _) fun _ => rfl

theorem events (w : XyberController K) (es : List (Event K)) : SameWiring w (es.foldl .apply w) :=
  Runs.foldl_invariant XyberController.apply (SameWiring w) (.refl w)
    (fun v e hv => hv.trans (.apply v e)) es

end SameWiring
end Wiring

namespace Station

/-- Two buses of one interface do not both have the identifier. -/
def Apart (s s' : Station) : Prop :=
  s.ref ≠ s'.ref → s.interface = s'.interface → s.narrow ≠ s'.narrow

end Station

/-- Every station is on its bus under the identifier that was left of the configured
one, and hears its frames unless another bus of the interface has that identifier. -/
structure Wired {K : Type*} (w : XyberController K) (ss : List Station) : Prop where
  buses : ∀ ref b, w.busAt ref = some b →
    ref.device ∈ w.deviceOrder ∧ (w.socket b.interface).opened = true
  placed : ∀ s ∈ ss, ∃ b id, w.busAt s.ref = some b ∧ b.interface = s.interface ∧
    b.registry.getActuator s.actr.name = some id ∧ id.val = s.narrow
  mapped : ∀ s ∈ ss, (w.actrDevMap s.actr.name).isSome = true
  names : ss.Pairwise fun s s' => s.actr.name ≠ s'.actr.name
  heard : ss.Pairwise Station.Apart → ∀ s ∈ ss, ∀ id : CanId, id.val = s.narrow →
    (w.socket s.interface).canCallbackList id.key = some (s.ref, id)

section Configured
variable {K : Type*} {w : XyberController K} {ss : List Station}

theorem socket_attached (ref : BusRef) (name : String) (id : CanId) (b : CanBus K) (i : String) :
    (w.attached ref name id b).socket i =
      if i = b.interface then (w.socket i).addCanCallback (ref, id) id.key else w.socket i := by
  simp only [attached, setDevice, setSocket, setBus, Function.update_apply]
  split_ifs with h
  · rw [h]
  · rfl

theorem wired_empty : Wired (empty : XyberController K) [] := by
  refine ⟨fun ref b hb => ?_, by simp, by simp, .nil, by simp⟩
  simp [busAt, empty, CanDevice.empty] at hb

theorem openSockets_opened {opens : String → Bool} {is : List String} (w : XyberController K)
    (h : (openSockets opens is w).1 = true) :
    (∀ i, (w.socket i).opened = true → (openSockets opens is w).2.socket i = w.socket i) ∧
      ∀ i ∈ is, i ≠ "" → ((openSockets opens is w).2.socket i).opened = true := by
  induction is generalizing w with
  | nil => exact ⟨fun _ _ => rfl, by simp⟩
  | cons j is ih =>
    simp only [openSockets] at h ⊢
    split_ifs at h ⊢ with hskip hopen
    · obtain ⟨hkeep, hrest⟩ := ih w h
      refine ⟨hkeep, fun i hi hne => ?_⟩
      rcases List.mem_cons.mp hi with rfl | hi
      · have hopened := hskip.resolve_left hne
        rwa [hkeep i hopened]
      · exact hrest i hi hne
    · obtain ⟨hkeep, hrest⟩ := ih (w.setSocket j .new) h
      have hnew : ((w.setSocket j .new).socket j).opened = true := by
        simp [setSocket, SocketCan.new]
      refine ⟨fun i hi => ?_, fun i hi hne => ?_⟩
      · have hne : i ≠ j := by
          rintro rfl
          exact hskip (.inr hi)
        have hsame : (w.setSocket j .new).socket i = w.socket i := by simp [setSocket, hne]
        rw [← hsame] at hi ⊢
        exact hkeep i hi
      · rcases List.mem_cons.mp hi with rfl | hi
        · rwa [hkeep i hnew]
        · exact hrest i hi hne

namespace Wired

theorem eq_of_ref (h : Wired w ss) {s s' : Station} {b : CanBus K} (hb : w.busAt s.ref = some b)
    (hs' : s' ∈ ss) (href : s'.ref = s.ref) :
    b.interface = s'.interface ∧
      ∃ id, b.registry.getActuator s'.actr.name = some id ∧ id.val = s'.narrow := by
  obtain ⟨b', id, hb', hi, hget, hval⟩ := h.placed s' hs'
  obtain rfl : b' = b := Option.some.inj (hb'.symm.trans (href ▸ hb))
  exact ⟨hi, id, hget, hval⟩

theorem name_ne (h : Wired w ss) {s s' : Station} (hunmapped : w.actrDevMap s.actr.name = none)
    (hs' : s' ∈ ss) : s'.actr.name ≠ s.actr.name := by
  intro heq
  have hmapped := h.mapped s' hs'
  rw [heq, hunmapped] at hmapped
  cases hmapped

theorem key_ne (h : Wired w ss) {s s' : Station} {b : CanBus K} {id id' : CanId}
    (hb : w.busAt s.ref = some b) (hid : id ∉ b.registry.actuatorById) (hval : id.val = s.narrow)
    (hs' : s' ∈ ss) (hapart : s'.Apart s) (hi : s'.interface = s.interface)
    (hval' : id'.val = s'.narrow) : id'.key ≠ id.key := by
  intro hkey
  obtain rfl := CanId.key_injective hkey
  by_cases href : s'.ref = s.ref
  · obtain ⟨-, id'', hget, hval''⟩ := h.eq_of_ref hb hs' href
    obtain rfl : id'' = id' := CanId.ext (hval''.trans hval'.symm)
    exact hid (Registry.mem_actuatorById.mpr ⟨s'.actr.name, hget⟩)
  · exact hapart href hi (hval'.symm.trans hval)

variable {s : Station} {b b' : CanBus K} {id : CanId}

theorem buses_attached (h : Wired w ss) (hready : w.Attachable s.ref s.actr.name b)
    (hinterface : b'.interface = b.interface) {ref : BusRef} {c : CanBus K}
    (hc : (w.attached s.ref s.actr.name id b').busAt ref = some c) :
    ref.device ∈ w.deviceOrder ∧
      ((w.attached s.ref s.actr.name id b').socket c.interface).opened = true := by
  rw [busAt_attached] at hc
  rw [socket_attached]
  split_ifs at hc with href
  · cases hc
    rw [if_pos rfl]
    exact ⟨href ▸ hready.known, hinterface ▸ (h.buses _ b hready.bus).2⟩
  · obtain ⟨hknown, hopened⟩ := h.buses ref c hc
    refine ⟨hknown, ?_⟩
    split_ifs <;> exact hopened

theorem heard_attached (h : Wired w ss) (hb : w.busAt s.ref = some b)
    (hinterface : b'.interface = s.interface) (hid : id ∉ b.registry.actuatorById)
    (hval : id.val = s.narrow) (hapart : (ss ++ [s]).Pairwise Station.Apart) {s' : Station}
    (hs' : s' ∈ ss ++ [s]) {id' : CanId} (hval' : id'.val = s'.narrow) :
    ((w.attached s.ref s.actr.name id b').socket s'.interface).canCallbackList id'.key =
      some (s'.ref, id') := by
  obtain ⟨hapart, -, hlast⟩ := List.pairwise_append.mp hapart
  rw [socket_attached, hinterface]
  rcases List.mem_append.mp hs' with hs' | hs'
  · have hold := h.heard hapart s' hs' id' hval'
    split_ifs with hi
    · have hne := h.key_ne hb hid hval hs' (hlast s' hs' s (by simp)) hi hval'
      simp only [SocketCan.addCanCallback, Function.update_of_ne hne]
      exact hold
    · exact hold
  · obtain rfl := List.mem_singleton.mp hs'
    obtain rfl : id' = id := CanId.ext (hval'.trans hval.symm)
    rw [if_pos rfl]
    simp [SocketCan.addCanCallback]

variable [Field K]

theorem attached (h : Wired w ss) (hready : w.Attachable s.ref s.actr.name b)
    (hinterface : b.interface = s.interface) (hid : id ∉ b.registry.actuatorById)
    (hname : s.actr.name ∉ b.registry.actuatorByName.map Prod.fst) (hval : id.val = s.narrow)
    (type : ActuatorType) :
    Wired (w.attached s.ref s.actr.name id (b.attach type s.actr.name id hid hname)) (ss ++ [s]) := by
  have hreg : (b.attach type s.actr.name id hid hname).registry =
      b.registry.register s.actr.name id hid hname := rfl
  have hsame : (b.attach type s.actr.name id hid hname).interface = b.interface := rfl
  constructor
  · exact fun ref c hc => h.buses_attached hready hsame hc
  · intro s' hs'
    rw [busAt_attached]
    rcases List.mem_append.mp hs' with hs' | hs'
    · split_ifs with href
      · obtain ⟨hi, id', hget, hval'⟩ := h.eq_of_ref hready.bus hs' href
        refine ⟨_, id', rfl, hi, ?_, hval'⟩
        rw [hreg, Registry.getActuator_register, if_neg (h.name_ne hready.unmapped hs')]
        exact hget
      · exact h.placed s' hs'
    · obtain rfl := List.mem_singleton.mp hs'
      rw [if_pos rfl]
      refine ⟨_, id, rfl, hinterface, ?_, hval⟩
      rw [hreg, Registry.getActuator_register, if_pos rfl]
  · intro s' hs'
    simp only [XyberController.attached, Function.update_apply]
    split_ifs with heq
    · rfl
    · refine h.mapped s' ((List.mem_append.mp hs').resolve_right fun hlast => heq ?_)
      rw [List.mem_singleton.mp hlast]
  · refine List.pairwise_append.mpr ⟨h.names, List.pairwise_singleton _ _, fun s' hs' s'' hs'' => ?_⟩
    rw [List.mem_singleton.mp hs'']
    exact h.name_ne hready.unmapped hs'
  · exact fun hapart s' hs' id' hval' =>
      h.heard_attached hready.bus hinterface hid hval hapart hs' hval'

end Wired

variable [Field K]

theorem Wired.createDevice (h : Wired w ss) (opens : String → Bool) (name : String)
    (interfaces : Fin 4 → String) (hcreated : (w.createDevice opens name interfaces).1 = .created) :
    Wired (w.createDevice opens name interfaces).2 ss ∧
      ∀ ch b, (w.createDevice opens name interfaces).2.busAt ⟨name, ch⟩ = some b →
        b.interface = interfaces ch := by
  rcases createDevice_cases w opens name interfaces with ⟨hrefused, -⟩ | ⟨hname, hopen, hdone⟩
  · exact absurd hcreated hrefused
  rw [hdone]
  obtain ⟨hkeep, hopened⟩ := openSockets_opened w hopen
  have hknown : ∀ s ∈ ss, s.ref.device ≠ name := by
    rintro s hs rfl
    obtain ⟨b, _, hb, _⟩ := h.placed s hs
    exact hname (h.buses s.ref b hb).1
  have hsock : ∀ s ∈ ss, (openSockets opens ((List.finRange 4).map interfaces) w).2.socket s.interface =
      w.socket s.interface := by
    intro s hs
    obtain ⟨b, _, hb, hi, _⟩ := h.placed s hs
    exact hkeep _ (hi ▸ (h.buses s.ref b hb).2)
  refine ⟨⟨fun ref b hb => ?_, fun s hs => ?_, h.mapped, h.names, fun hapart s hs id hval => ?_⟩,
    fun ch b hb => ?_⟩
  · rw [busAt_created] at hb
    split_ifs at hb with hdev hne
    · cases hb
      refine ⟨List.mem_append_right _ (by simp [hdev]), ?_⟩
      exact hopened _ (List.mem_map_of_mem (List.mem_finRange _)) hne
    · obtain ⟨hold, hopenb⟩ := h.buses ref b hb
      refine ⟨List.mem_append_left _ hold, ?_⟩
      exact (hkeep _ hopenb).symm ▸ hopenb
  · obtain ⟨b, id, hb, hrest⟩ := h.placed s hs
    refine ⟨b, id, ?_, hrest⟩
    rw [busAt_created, if_neg (hknown s hs)]
    exact hb
  · exact (congrArg (fun t => t.canCallbackList id.key) (hsock s hs)).trans (h.heard hapart s hs id hval)
  · rw [busAt_created, if_pos rfl] at hb
    split_ifs at hb
    cases hb
    rfl

end Configured
end XyberController

namespace JointDriverModule
open XyberController (Station Wired attachActuator_cases busAt_attached wired_empty)

def stationsOf (device : String) (interfaces : Fin 4 → String) (listed : List String)
    (actrs : List (Fin 4 × ActuatorConfig)) : List Station :=
  (actrs.filter fun a => decide (a.2.name ∈ listed)).map fun a => ⟨⟨device, a.1⟩, interfaces a.1, a.2⟩

def stations (listed : List String) (network : List DriverConfig) : List Station :=
  network.flatMap fun cfg =>
    if cfg.enable then
      stationsOf cfg.name (fun ch => cfg.interfaces.getD ch "") listed
        ((List.finRange 4).flatMap fun ch => (cfg.ch ch).map (ch, ·))
    else []

section Configure
variable {K : Type*} [Field K] {w : XyberController K} {ss : List Station}

theorem wired_attachActuators {device : String} {interfaces : Fin 4 → String} (listed : List String)
    (actrs : List (Fin 4 × ActuatorConfig)) (h : Wired w ss)
    (hi : ∀ ch b, w.busAt ⟨device, ch⟩ = some b → b.interface = interfaces ch)
    (hok : (attachActuators device listed actrs w).1 = none) :
    Wired (attachActuators device listed actrs w).2
      (ss ++ stationsOf device interfaces listed actrs) := by
  induction actrs generalizing w ss with
  | nil => simpa [stationsOf, attachActuators] using h
  | cons a actrs ih =>
    obtain ⟨ch, actr⟩ := a
    simp only [attachActuators] at hok ⊢
    by_cases hlisted : actr.name ∈ listed
    case neg =>
      simp only [if_pos hlisted] at hok ⊢
      have hskip : stationsOf device interfaces listed ((ch, actr) :: actrs) =
          stationsOf device interfaces listed actrs := by simp [stationsOf, hlisted]
      rw [hskip]
      exact ih h hi hok
    have htake : stationsOf device interfaces listed ((ch, actr) :: actrs) =
        ⟨⟨device, ch⟩, interfaces ch, actr⟩ :: stationsOf device interfaces listed actrs := by
      simp [stationsOf, hlisted]
    rw [if_neg (not_not.mpr hlisted)] at hok ⊢
    rcases attachActuator_cases w device ch (stringToType actr.type) actr.name
      (actr.canId.setWidth 8) with hrefused | ⟨ref, b, id, hid, hname, hdev, hch, hval, -, hready, htaken⟩
    · rw [hrefused] at hok
      cases hok
    · rw [htaken] at hok ⊢
      obtain rfl : ref = ⟨device, ch⟩ := by
        obtain ⟨d, i⟩ := ref
        obtain rfl : d = device := hdev
        rw [show i = ch from Fin.ext hch]
      have hinterface := hi ch b hready.bus
      have hattached := h.attached (s := ⟨⟨device, ch⟩, interfaces ch, actr⟩) hready hinterface hid hname
        hval (stringToType actr.type)
      rw [htake, List.append_cons]
      refine ih hattached (fun ch' b' hb' => ?_) hok
      rw [busAt_attached] at hb'
      split_ifs at hb' with hsame
      · obtain rfl : ch' = ch := congrArg BusRef.bus hsame
        cases hb'
        exact hinterface
      · exact hi ch' b' hb'

theorem wired_configureDriver (opens : String → Bool) (listed : List String) (cfg : DriverConfig)
    (h : Wired w ss) (hok : (configureDriver opens listed cfg w).1 = none) :
    Wired (configureDriver opens listed cfg w).2 (ss ++ stations listed [cfg]) := by
  unfold configureDriver at hok ⊢
  split_ifs at hok ⊢ with henable hsize
  · simpa [stations, henable] using h
  · have hstations : stations listed [cfg] =
        stationsOf cfg.name (fun ch => cfg.interfaces[ch]) listed
          ((List.finRange 4).flatMap fun ch => (cfg.ch ch).map (ch, ·)) := by
      simp [stations, henable, hsize]
    have hcreate := h.createDevice opens cfg.name fun ch => cfg.interfaces[ch]
    rw [hstations]
    split at hok
    next heq => cases hok
    next heq => cases hok
    next w' heq =>
      rw [heq] at hcreate
      obtain ⟨hwired, hi⟩ := hcreate rfl
      exact wired_attachActuators listed _ hwired hi hok

theorem wired_configure (opens : String → Bool) (listed : List String) (network : List DriverConfig)
    (h : Wired w ss) (hok : (configure opens listed network w).1 = none) :
    Wired (configure opens listed network w).2 (ss ++ stations listed network) := by
  induction network generalizing w ss with
  | nil => simpa [stations, configure] using h
  | cons cfg network ih =>
    have hdriver := wired_configureDriver opens listed cfg h
    have hsplit : stations listed (cfg :: network) = stations listed [cfg] ++ stations listed network := by
      simp [stations]
    simp only [configure] at hok ⊢
    rw [hsplit, ← List.append_assoc]
    split at hok
    next w' heq =>
      rw [heq] at hdriver
      exact ih (hdriver rfl) hok
    next => cases hok

end Configure
end JointDriverModule

namespace XyberController

theorem motorId_requestState {K : Type*} (m : RobstrideMotor K) (state : ActuatorState) :
    (m.requestState state).motorId = m.canId := by
  unfold RobstrideMotor.requestState
  split_ifs <;> exact CanFrame.composeId_motorId _ _ _ _

section Addressed
variable {K : Type*} [Field K] [LinearOrder K] [FloorSemiring K]

def Sends (w : XyberController K) (s : Station) : Prop :=
  ∃ b id, w.busAt s.ref = some b ∧ b.interface = s.interface ∧
    b.registry.getActuator s.actr.name = some id ∧
    (∀ c, ((b.actuator id).val.periodic c).motorId.setWidth 32 = s.actr.canId) ∧
    ∀ state, ((b.actuator id).val.requestState state).motorId.setWidth 32 = s.actr.canId

def Hears (w : XyberController K) (s : Station) : Prop :=
  ∀ f : CanFrame, f.commType = commFeedback → s.actr.canId = f.keyExtractor.setWidth 32 →
    ∃ b id, (w.apply (.receive s.interface f)).busAt s.ref = some b ∧
      b.registry.getActuator s.actr.name = some id ∧ b.recvSlot id = f

structure Addressed (w : XyberController K) (ss : List Station) : Prop where
  sends : ∀ s ∈ ss, Sends w s
  distinct : ss.Pairwise fun s s' => ¬ (s.interface = s'.interface ∧ s.actr.canId = s'.actr.canId)
  hears : ∀ s ∈ ss, Hears w s

/-- The identifiers are bytes, and two buses of one interface share none of them. -/
structure Distinguished (ss : List Station) : Prop where
  byte : ∀ s ∈ ss, s.actr.canId.toNat < 256
  apart : ss.Pairwise fun s s' =>
    s.ref ≠ s'.ref → s.interface = s'.interface → s.actr.canId ≠ s'.actr.canId

variable {w v : XyberController K} {ss : List Station}

theorem Distinguished.narrow_apart (h : Distinguished ss) : ss.Pairwise Station.Apart := by
  refine h.apart.imp_of_mem fun hs hs' hapart href hi hnarrow => hapart href hi ?_
  rw [← Station.narrow_widens (h.byte _ hs), ← Station.narrow_widens (h.byte _ hs'), hnarrow]

theorem Wired.sends (h : Wired w ss) (hv : SameWiring w v) {s : Station} (hs : s ∈ ss)
    (hbyte : s.actr.canId.toNat < 256) : Sends v s := by
  obtain ⟨b, id, hb, hi, hget, hval⟩ := h.placed s hs
  obtain ⟨b', hb', hi', hr'⟩ := hv.bus hb
  have hcanId : (b'.actuator id).val.canId.setWidth 32 = s.actr.canId := by
    rw [(b'.actuator id).prop, hval, Station.narrow_widens hbyte]
  refine ⟨b', id, hb', hi'.trans hi, hr' ▸ hget, fun c => ?_, fun state => ?_⟩
  · rw [RobstrideMotor.periodic_motorId, hcanId]
  · rw [motorId_requestState, hcanId]

theorem Wired.hears (h : Wired w ss) (hapart : ss.Pairwise Station.Apart) (hv : SameWiring w v)
    {s : Station} (hs : s ∈ ss) : Hears v s := by
  intro f _ hmotor
  obtain ⟨b, id, hb, hi, hget, hval⟩ := h.placed s hs
  obtain ⟨b', hb', hi', hr'⟩ := hv.bus hb
  have hkey : f.keyExtractor = id.key := by
    apply BitVec.eq_of_toNat_eq
    have hlt := f.keyExtractor_lt
    simp only [CanId.key, hval, Station.narrow, hmotor, BitVec.toNat_setWidth]
    omega
  have hcallback : (v.socket s.interface).canCallbackList f.keyExtractor = some (s.ref, id) := by
    rw [hv.callbacks, hkey]
    exact h.heard hapart s hs id hval
  have hport : v.port s.ref = ⟨b', v.socket b'.interface⟩ := by simp [port, hb']
  refine ⟨b'.storeFeedback id f, id, ?_, hr' ▸ hget, ?_⟩
  · simp only [apply, hcallback, onPort, setPort, hb', Option.isSome_some, if_true, busAt_setSocket,
      busAt_setBus, hport]
  · simp only [CanBus.storeFeedback, CanBus.recvSlot_writeRecv, if_true]

theorem addressed_iff_of_wired (h : Wired w ss) (hv : SameWiring w v) :
    Addressed v ss ↔ Distinguished ss := by
  constructor
  · intro hv
    refine ⟨fun s hs => ?_, hv.distinct.imp fun h _ hi hid => h ⟨hi, hid⟩⟩
    obtain ⟨b, id, -, -, -, hperiodic, -⟩ := hv.sends s hs
    rw [← hperiodic (.setVelocity 0), BitVec.toNat_setWidth]
    have hlt := ((b.actuator id).val.periodic (.setVelocity 0)).motorId.isLt
    omega
  · intro hd
    refine ⟨fun s hs => h.sends hv hs (hd.byte s hs), ?_, fun s hs => h.hears hd.narrow_apart hv hs⟩
    refine (h.names.and hd.apart).imp_of_mem fun {s s'} hs hs' ⟨hname, hapart⟩ ⟨hi, hid⟩ => ?_
    by_cases href : s.ref = s'.ref
    case neg => exact hapart href hi hid
    -- On one bus the registry has told them apart.
    obtain ⟨b, id, hb, -, hget, hval⟩ := h.placed _ hs
    obtain ⟨b', id', hb', -, hget', hval'⟩ := h.placed _ hs'
    obtain rfl : b = b' := Option.some.inj (hb.symm.trans (href ▸ hb'))
    have hsame : id = id' := CanId.ext (by rw [hval, hval', Station.narrow, Station.narrow, hid])
    exact hname (Registry.getActuator_injective hget (hsame ▸ hget'))

open JointDriverModule (configure stations wired_configure) in
/-- After a configuration that was accepted, the motors are addressed as configured
exactly if the identifiers tell them apart. -/
theorem addressed_iff (opens : String → Bool) (listed : List String) (network : List DriverConfig)
    (hok : (configure opens listed network (empty : XyberController K)).1 = none)
    (events : List (Event K)) :
    Addressed (events.foldl apply (configure opens listed network empty).2.start.2)
        (stations listed network) ↔ Distinguished (stations listed network) := by
  have hwired := wired_configure opens listed network wired_empty hok
  rw [List.nil_append] at hwired
  exact addressed_iff_of_wired hwired ((SameWiring.start _).trans (.events _ events))

end Addressed

def sharedInterface : List DriverConfig :=
  [⟨"left", ["can0", "", "", ""], true, ![[⟨"left_knee", "Robstride_02", 1⟩], [], [], []]⟩,
    ⟨"right", ["can0", "", "", ""], true, ![[⟨"right_knee", "Robstride_02", 1⟩], [], [], []]⟩]

def distinctIdentifiers : List DriverConfig :=
  [⟨"left", ["can0", "", "", ""], true, ![[⟨"left_knee", "Robstride_02", 1⟩], [], [], []]⟩,
    ⟨"right", ["can0", "", "", ""], true, ![[⟨"right_knee", "Robstride_02", 2⟩], [], [], []]⟩]

open JointDriverModule (configure stations)

def knees : List String := ["left_knee", "right_knee"]

theorem distinctIdentifiers_addressed :
    (configure (fun _ => true) knees distinctIdentifiers (empty : XyberController ℚ)).1 = none ∧
      (Addressed (configure (fun _ => true) knees distinctIdentifiers
        (empty : XyberController ℚ)).2.start.2 (stations knees distinctIdentifiers) ↔
          Distinguished (stations knees distinctIdentifiers)) := by
  have hok : (configure (fun _ => true) knees distinctIdentifiers
      (empty : XyberController ℚ)).1 = none := by decide +kernel
  exact ⟨hok, addressed_iff (fun _ => true) knees distinctIdentifiers hok []⟩

theorem feedback_stolen :
    ¬ ∀ (opens : String → Bool) (listed : List String) (network : List DriverConfig),
      (configure opens listed network (empty : XyberController ℚ)).1 = none →
        Addressed (configure opens listed network (empty : XyberController ℚ)).2.start.2
          (stations listed network) := by
  intro h
  have haddressed := h (fun _ => true) knees sharedInterface (by decide +kernel)
  let leftKnee : Station := ⟨⟨"left", 0⟩, "can0", ⟨"left_knee", "Robstride_02", 1⟩⟩
  have hmem : leftKnee ∈ stations knees sharedInterface := by
    simp [leftKnee, stations, JointDriverModule.stationsOf, sharedInterface, knees, List.finRange]
  obtain ⟨b, id, hb, hget, hslot⟩ := haddressed.hears leftKnee hmem RobstrideMotor.runningFeedback
    (by decide) (by decide)
  have hkept : (((configure (fun _ => true) knees sharedInterface
      (empty : XyberController ℚ)).2.start.2.apply
        (.receive "can0" RobstrideMotor.runningFeedback)).busAt ⟨"left", 0⟩).bind (fun b =>
          (b.registry.getActuator "left_knee").map b.recvSlot) = some .zero := by decide +kernel
  rw [hb, Option.bind_some, hget, Option.map_some, hslot] at hkept
  exact absurd hkept (by decide)

end XyberController
end MybipedalDeploy.JointDriver
