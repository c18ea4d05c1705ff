import MybipedalDeploy.JointDriver.Dating

/-!
# What the getters of the controller return

All buses of one interface share a table of receive callbacks, one for each key, so a
frame lands in one slot. The reference is the last feedback frame of the motor on its
interface; the getters agree with it exactly as long as no feedback goes to another bus
and none is overwritten before it has been read.
-/

namespace MybipedalDeploy.JointDriver

namespace Port
variable {K : Type*} [Field K]

def Mute (f : Port K → Port K) : Prop :=
  ∀ p id, (f p).bus.shown id = p.bus.shown id ∧
    ((f p).bus.actuator id).val.type = (p.bus.actuator id).val.type ∧
    (f p).bus.recvSlot id = p.bus.recvSlot id

theorem mute_transmitAll : Mute (transmitAll : Port K → Port K) := by
  intro p id
  obtain ⟨hactuator, hslot⟩ := XyberController.slots_transmitAll p
  simp only [CanBus.shown, hactuator, hslot, and_self]

theorem mute_get [LinearOrder K] [FloorSemiring K] (name : String) :
    Mute fun p : Port K => { p with bus := (p.bus.step (.get name)).1 } := by
  intro p id
  simp only [CanBus.step]
  split
  next id' _ =>
    refine ⟨p.bus.shown_parse id' id, ?_, rfl⟩
    simp only [CanBus.get, CanBus.actuator_parse]
    split_ifs
    · exact RobstrideMotor.parseFeedback_type _ _
    · rfl
  next => exact ⟨rfl, rfl, rfl⟩

theorem mute_setPeriodic [LinearOrder K] [FloorSemiring K] (name : String) (c : Periodic K) :
    Mute fun p : Port K => { p with bus := (p.bus.step (.setPeriodic name c)).1 } := by
  intro p id
  simp only [CanBus.step]
  split <;> exact ⟨rfl, rfl, rfl⟩

theorem mute_sendOnce [LinearOrder K] [FloorSemiring K] (name : String) (c : OneShot) :
    Mute fun p : Port K => p.apply (.op (.sendOnce name c)) := by
  intro p id
  simp only [apply]
  split
  next id' _ =>
    obtain ⟨mode, hmode⟩ := p.bus.actuator_sendOnce id' id c
    have htype := congrArg RobstrideMotor.type hmode
    refine ⟨?_, ?_, ?_⟩
    · simp only [CanBus.shown, transmit_actuator, recvSlot_transmit]
      exact p.bus.shown_sendOnce id' id c
    · rw [transmit_actuator]
      exact htype
    · rw [recvSlot_transmit]
      exact p.bus.recvSlot_sendOnce id' id c
  next => exact ⟨rfl, rfl, rfl⟩

end Port

namespace XyberController
variable {K : Type*}

section Wiring

def Routed (w : XyberController K) : Prop :=
  ∀ i key ref id, (w.socket i).canCallbackList key = some (ref, id) →
    id.key = key ∧ ref.device ∈ w.deviceOrder ∧ ∃ b, w.busAt ref = some b ∧ b.interface = i

theorem SameWiring.has_iff {w w' : XyberController K} (h : SameWiring w w') (t : Target) :
    w'.registration.Has t ↔ w.registration.Has t := by
  have hregistry : (w'.busAt t.ref).map CanBus.registry = (w.busAt t.ref).map CanBus.registry := by
    have hmap := congrArg (Option.map Prod.snd) (h.buses t.ref)
    simpa only [Option.map_map, Function.comp_def] using hmap
  simp only [Registration.Has, registration, hregistry]

theorem Routed.sameWiring {w w' : XyberController K} (h : w.Routed) (hw : SameWiring w w')
    (hknown : w'.deviceOrder = w.deviceOrder) : w'.Routed := by
  intro i key ref id hkey
  rw [hw.callbacks] at hkey
  obtain ⟨hid, hdevice, b, hb, hi⟩ := h i key ref id hkey
  obtain ⟨b', hb', hi', -⟩ := hw.bus hb
  exact ⟨hid, hknown ▸ hdevice, b', hb', hi'.trans hi⟩

variable [Field K]

theorem bus_onPort (w : XyberController K) (ref ref' : BusRef) (f : Port K → Port K) :
    ((w.onPort ref f).port ref').bus =
      if ref' = ref ∧ (w.busAt ref).isSome = true then (f (w.port ref)).bus
      else (w.port ref').bus := by
  simp only [port, busAt_onPort]
  cases hb : w.busAt ref with
  | none => split_ifs <;> simp_all
  | some b => split_ifs <;> simp_all

def shown (w : XyberController K) (t : Target) : Readings K := (w.port t.ref).bus.shown t.id

def typeOf (w : XyberController K) (t : Target) : ActuatorType :=
  ((w.port t.ref).bus.actuator t.id).val.type

def slotOf (w : XyberController K) (t : Target) : CanFrame := (w.port t.ref).bus.recvSlot t.id

theorem mute_onPort (w : XyberController K) (ref : BusRef) {f : Port K → Port K} (hf : Port.Mute f)
    (t : Target) :
    (w.onPort ref f).shown t = w.shown t ∧ (w.onPort ref f).typeOf t = w.typeOf t ∧
      (w.onPort ref f).slotOf t = w.slotOf t := by
  simp only [shown, typeOf, slotOf, bus_onPort]
  split_ifs with h
  · rw [h.1]
    exact hf _ _
  · exact ⟨rfl, rfl, rfl⟩

theorem SameWiring.interface {w w' : XyberController K} (h : SameWiring w w') (ref : BusRef) :
    (w'.port ref).bus.interface = (w.port ref).bus.interface := by
  have hmap := congrArg (Option.map Prod.fst) (h.buses ref)
  simp only [Option.map_map, Function.comp_def] at hmap
  simp only [port]
  cases hb : w.busAt ref with
  | none => simp_all
  | some b =>
    rw [hb, Option.map_some, Option.map_eq_some_iff] at hmap
    obtain ⟨b', hb', hi⟩ := hmap
    rw [hb', Option.getD_some, Option.getD_some, hi]

end Wiring

inductive SetUp
  | createDevice (opens : String → Bool) (name : String) (interfaces : Fin 4 → String)
  | attachActuator (device : String) (busIdx : ℕ) (type : ActuatorType) (name : String) (canId : Byte)
  | start

def setUp [Field K] (w : XyberController K) : SetUp → XyberController K
  | .createDevice opens name interfaces => (w.createDevice opens name interfaces).2
  | .attachActuator device busIdx type name canId =>
    (w.attachActuator device busIdx type name canId).2
  | .start => w.start.2

section SetUp
variable {w : XyberController K}

theorem callbacks_openSockets (opens : String → Bool) (is : List String) (w : XyberController K)
    {i : String} {key : BitVec 16} {callback : BusRef × CanId}
    (h : ((openSockets opens is w).2.socket i).canCallbackList key = some callback) :
    (w.socket i).canCallbackList key = some callback := by
  induction is generalizing w with
  | nil => exact h
  | cons j is ih =>
    simp only [openSockets] at h
    split_ifs at h
    · exact ih w h
    · have hopened := ih _ h
      simp only [setSocket, Function.update_apply] at hopened
      split_ifs at hopened
      · cases hopened
      · exact hopened
    · exact h

/-- The slots are empty, and the callbacks lead to buses of their interface. -/
structure Listening (w : XyberController K) : Prop where
  fresh : Everywhere CanBus.Fresh w
  routed : w.Routed

theorem Listening.start (h : Listening w) : Listening w.start.2 := by
  refine ⟨h.fresh.start, fun i key ref id hkey => ?_⟩
  have hsocket : w.start.2.socket = w.socket := by
    unfold XyberController.start
    split_ifs <;> rfl
  have hknown : w.start.2.deviceOrder = w.deviceOrder := by
    unfold XyberController.start
    split_ifs <;> rfl
  rw [hsocket] at hkey
  rw [hknown, busAt_start]
  exact h.routed i key ref id hkey

variable [Field K]

theorem Listening.createDevice (h : Listening w) (opens : String → Bool) (name : String)
    (interfaces : Fin 4 → String) : Listening (w.createDevice opens name interfaces).2 := by
  have hold : ∀ i key callback, ((openSockets opens ((List.finRange 4).map interfaces) w).2.socket
      i).canCallbackList key = some callback → (w.socket i).canCallbackList key = some callback :=
    fun i key callback => callbacks_openSockets opens _ w
  obtain ⟨socket, hsocket⟩ := openSockets_keeps opens ((List.finRange 4).map interfaces) w
  unfold XyberController.createDevice
  by_cases hname : name ∈ w.deviceOrder
  · rw [dif_pos hname]
    exact h
  simp only [dif_neg hname]
  split_ifs with hopen
  · have hcreated : ∀ ref, (w.created name interfaces hname socket).busAt ref =
        if ref.device = name then
          if interfaces ref.bus = "" then none else some (.new (interfaces ref.bus))
        else w.busAt ref := w.busAt_created name interfaces hname socket
    simp only [hsocket] at hold ⊢
    refine ⟨fun ref b hb => ?_, fun i key ref id hkey => ?_⟩
    · have hb' := (hcreated ref).symm.trans hb
      split_ifs at hb'
      · cases hb'
        exact CanBus.fresh_new _
      · exact h.fresh ref b hb'
    · obtain ⟨hid, hknown, b, hb, hi⟩ := h.routed i key ref id (hold i key _ hkey)
      have hne : ref.device ≠ name := fun heq => hname (heq ▸ hknown)
      exact ⟨hid, List.mem_append_left _ hknown, b,
        ((hcreated ref).trans (if_neg hne)).trans hb, hi⟩
  · simp only [hsocket] at hold ⊢
    exact ⟨h.fresh, fun i key ref id hkey => h.routed i key ref id (hold i key _ hkey)⟩

theorem Listening.attachActuator (h : Listening w) (device : String) (busIdx : ℕ)
    (type : ActuatorType) (name : String) (canId : Byte) :
    Listening (w.attachActuator device busIdx type name canId).2 := by
  rcases attachActuator_cases w device busIdx type name canId with hrefused |
    ⟨ref, b, id, hid, hname, -, -, -, -, hready, htaken⟩
  · rw [hrefused]
    exact h
  rw [htaken]
  refine ⟨fun ref' b' hb' => ?_, fun i key ref' id' hkey => ?_⟩
  · rw [busAt_attached] at hb'
    split_ifs at hb'
    · cases hb'
      exact (h.fresh ref b hready.bus).attach ..
    · exact h.fresh ref' b' hb'
  · have hsame : (b.attach type name id hid hname).interface = b.interface := rfl
    have hother : (w.socket i).canCallbackList key = some (ref', id') →
        id'.key = key ∧ ref'.device ∈ w.deviceOrder ∧
          ∃ c, (w.attached ref name id (b.attach type name id hid hname)).busAt ref' = some c ∧
            c.interface = i := by
      intro hold
      obtain ⟨hid', hknown, c, hc, hi⟩ := h.routed i key ref' id' hold
      refine ⟨hid', hknown, ?_⟩
      rw [busAt_attached]
      split_ifs with href
      · subst href
        obtain rfl : b = c := Option.some.inj (hready.bus.symm.trans hc)
        exact ⟨_, rfl, hi⟩
      · exact ⟨c, hc, hi⟩
    dsimp only at hkey
    rw [socket_attached, hsame] at hkey
    split_ifs at hkey with hi
    · simp only [SocketCan.addCanCallback, Function.update_apply] at hkey
      split_ifs at hkey with hnew
      · cases hkey
        exact ⟨hnew.symm, hready.known, _, by rw [busAt_attached, if_pos rfl], hsame.trans hi.symm⟩
      · exact hother hkey
    · exact hother hkey

theorem listening_setUp (calls : List SetUp) :
    Listening (calls.foldl setUp (empty : XyberController K)) := by
  refine Runs.foldl_invariant setUp Listening ⟨fun ref b hb => ?_, fun i key ref id hkey => ?_⟩ ?_ calls
  · simp [busAt, empty, CanDevice.empty] at hb
  · simp [empty, SocketCan.closed] at hkey
  · intro w call h
    cases call with
    | createDevice opens name interfaces => exact h.createDevice opens name interfaces
    | attachActuator device busIdx type name canId =>
      exact h.attachActuator device busIdx type name canId
    | start => exact h.start

theorem Listening.slotOf_eq_zero (h : Listening w) {t : Target} (ht : w.registration.Has t) :
    w.slotOf t = .zero := by
  obtain ⟨r, hr, -⟩ := Option.bind_eq_some_iff.mp ht
  obtain ⟨b, hb, -⟩ := Option.map_eq_some_iff.mp hr
  have hbus : (w.port t.ref).bus = b := by simp [port, hb]
  rw [slotOf, hbus, (h.fresh t.ref b hb).recv]

end SetUp

inductive Action (K : Type*)
  | event (e : Event K)
  | sendOnce (name : String) (c : OneShot)

def Action.frames : Action K → List (String × CanFrame)
  | .event e => e.frames
  | .sendOnce _ _ => []

def received (as : List (Action K)) : List (String × CanFrame) := as.flatMap Action.frames

def feedbackOf (interface : String) (id : CanId) (frames : List (String × CanFrame)) : List CanFrame :=
  frames.filterMap fun e =>
    if e.1 = interface ∧ id.key = e.2.keyExtractor ∧ e.2.isFeedback = true then some e.2 else none

theorem received_concat (as : List (Action K)) (a : Action K) :
    received (as ++ [a]) = received as ++ a.frames := by
  simp [received]

theorem feedbackOf_append (interface : String) (id : CanId)
    (frames frames' : List (String × CanFrame)) :
    feedbackOf interface id (frames ++ frames') =
      feedbackOf interface id frames ++ feedbackOf interface id frames' :=
  List.filterMap_append

section Path
variable [Field K]

def readings (w : XyberController K) (t : Target) : Readings K := ((w.port t.ref).bus.get t.id).2

theorem readings_eq_shown (w : XyberController K) (t : Target) : w.readings t = w.shown t :=
  CanBus.get_readings _ _

/-- What the last feedback of its motor says, and the initial values before there is any. -/
def expected (w : XyberController K) (t : Target) (frames : List (String × CanFrame)) : Readings K :=
  let m := ((w.port t.ref).bus.actuator t.id).val
  ((feedbackOf (w.port t.ref).bus.interface t.id frames).getLast?.elim m m.decodeFeedback).readings

theorem expected_concat (w : XyberController K) (t : Target) (frames : List (String × CanFrame))
    (interface : String) (f : CanFrame) :
    w.expected t (frames ++ [(interface, f)]) =
      if (interface = (w.port t.ref).bus.interface ∧ t.id.key = f.keyExtractor) ∧
        f.isFeedback = true then
        (((w.port t.ref).bus.actuator t.id).val.decodeFeedback f).readings
      else w.expected t frames := by
  have hlast : feedbackOf (w.port t.ref).bus.interface t.id [(interface, f)] =
      if (interface = (w.port t.ref).bus.interface ∧ t.id.key = f.keyExtractor) ∧
        f.isFeedback = true then [f] else [] := by
    simp only [feedbackOf, List.filterMap_cons, List.filterMap_nil, and_assoc]
    split_ifs <;> simp_all
  simp only [expected, feedbackOf_append, hlast]
  split_ifs with h
  · rw [List.getLast?_concat, Option.elim_some]
  · rw [List.append_nil]

/-- The frame is for the motor of the actuator. Where the interface hands it to the
actuator, it is no feedback and falls on feedback that has not been read; where the
interface hands it to another bus, it is feedback and says something new. -/
def Lost (w : XyberController K) (interface : String) (f : CanFrame) (t : Target) : Prop :=
  (interface = (w.port t.ref).bus.interface ∧ t.id.key = f.keyExtractor) ∧
    if (w.socket interface).canCallbackList f.keyExtractor = some (t.ref, t.id) then
      f.isFeedback = false ∧ (w.port t.ref).bus.Unread t.id
    else f.isFeedback = true ∧
      (((w.port t.ref).bus.actuator t.id).val.decodeFeedback f).readings ≠
        ((w.port t.ref).bus.actuator t.id).val.readings

structure Following (w₀ w : XyberController K) : Prop where
  wiring : SameWiring w₀ w
  routed : w.Routed
  type : ∀ t, w.typeOf t = w₀.typeOf t
  unheard : ∀ t, w₀.registration.Has t →
    (∀ i key, (w.socket i).canCallbackList key ≠ some (t.ref, t.id)) → w.slotOf t = .zero

theorem Following.shown_unheard {w₀ w : XyberController K} (h : Following w₀ w) {t : Target}
    (ht : w₀.registration.Has t)
    (hkey : (w.socket (w.port t.ref).bus.interface).canCallbackList t.id.key ≠ some (t.ref, t.id)) :
    w.shown t = ((w.port t.ref).bus.actuator t.id).val.readings := by
  have hnone : ∀ i key, (w.socket i).canCallbackList key ≠ some (t.ref, t.id) := by
    intro i key hcallback
    obtain ⟨hid, -, b, hb, hi⟩ := h.routed i key _ _ hcallback
    have hbus : (w.port t.ref).bus = b := by simp [port, hb]
    rw [hbus, hi, hid] at hkey
    exact hkey hcallback
  have hslot : (w.port t.ref).bus.recvSlot t.id = .zero := h.unheard t ht hnone
  rw [shown, CanBus.shown, hslot, RobstrideMotor.parseFeedback_zero]

def Action.Keeps (w : XyberController K) : Action K → Prop
  | .event (.receive interface f) => ∀ t, w.registration.Has t → ¬ w.Lost interface f t
  | _ => True

theorem Action.keeps_of_not_receive (w : XyberController K) {a : Action K}
    (ha : ∀ interface f, a ≠ .event (.receive interface f)) : a.frames = [] ∧ a.Keeps w := by
  cases a with
  | sendOnce name c => exact ⟨rfl, trivial⟩
  | event e =>
    cases e with
    | receive interface f => exact absurd rfl (ha interface f)
    | _ => exact ⟨rfl, trivial⟩

variable [LinearOrder K] [FloorSemiring K]

def act (w : XyberController K) : Action K → XyberController K
  | .event e => w.apply e
  | .sendOnce name c =>
    match w.findBus name with
    | none => w
    | some ref => w.onPort ref fun p => p.apply (.op (.sendOnce name c))

/-- At every point of the run, every attached actuator says what the last feedback of
its motor says. -/
def FeedbackFaithful (w : XyberController K) (as : List (Action K)) : Prop :=
  ∀ p, p <+: as → ∀ t, w.registration.Has t →
    (p.foldl act w).readings t = w.expected t (received p)

theorem callbacks_sendOnce (p : Port K) (name : String) (c : OneShot) :
    (p.apply (.op (.sendOnce name c))).bus.interface = p.bus.interface ∧
      (p.apply (.op (.sendOnce name c))).socket.canCallbackList = p.socket.canCallbackList := by
  simp only [Port.apply]
  split
  · unfold Port.transmit SocketCan.transmit
    split_ifs <;> exact ⟨rfl, rfl⟩
  · exact ⟨rfl, rfl⟩

theorem SameWiring.act (w : XyberController K) (a : Action K) : SameWiring w (w.act a) := by
  cases a with
  | event e => exact .apply w e
  | sendOnce name c =>
    simp only [XyberController.act]
    split
    · exact .refl w
    · exact .onPort w _ (fun p => (callbacks_sendOnce p name c).1) (fun p => p.apply_registry _)
        fun p => (callbacks_sendOnce p name c).2

theorem mute_act (w : XyberController K) {a : Action K}
    (ha : ∀ interface f, a ≠ .event (.receive interface f)) (t : Target) :
    (w.act a).shown t = w.shown t ∧ (w.act a).typeOf t = w.typeOf t ∧
      (w.act a).slotOf t = w.slotOf t := by
  cases a with
  | sendOnce name c =>
    simp only [act]
    split
    · exact ⟨rfl, rfl, rfl⟩
    · exact w.mute_onPort _ (Port.mute_sendOnce name c) t
  | event e =>
    cases e with
    | receive interface f => exact absurd rfl (ha interface f)
    | sender interface => exact ⟨rfl, rfl, rfl⟩
    | controlLoop ref =>
      simp only [act, apply]
      split_ifs
      · exact w.mute_onPort ref Port.mute_transmitAll t
      · exact ⟨rfl, rfl, rfl⟩
    | get name =>
      simp only [act, apply]
      split
      · exact ⟨rfl, rfl, rfl⟩
      · exact w.mute_onPort _ (Port.mute_get name) t
    | setMitCmd name pos vel effort kp kd =>
      simp only [act, apply, setMitCmd]
      split
      · exact ⟨rfl, rfl, rfl⟩
      · exact w.mute_onPort _ (Port.mute_setPeriodic name _) t

theorem shown_receive {w : XyberController K} (hw : w.Routed) (interface : String) (f : CanFrame)
    (t : Target) :
    (w.act (.event (.receive interface f))).shown t =
        (if (w.socket interface).canCallbackList f.keyExtractor = some (t.ref, t.id) then
          (((w.port t.ref).bus.actuator t.id).val.parseFeedback f).readings
        else w.shown t) ∧
      (w.act (.event (.receive interface f))).typeOf t = w.typeOf t ∧
      (w.act (.event (.receive interface f))).slotOf t =
        if (w.socket interface).canCallbackList f.keyExtractor = some (t.ref, t.id) then f
        else w.slotOf t := by
  simp only [act, apply]
  cases hkey : (w.socket interface).canCallbackList f.keyExtractor with
  | none => simp
  | some e =>
    obtain ⟨ref, id⟩ := e
    obtain ⟨-, -, b, hb, -⟩ := hw interface _ ref id hkey
    simp only [shown, typeOf, slotOf, bus_onPort, hb, Option.isSome_some, and_true,
      Option.some.injEq, Prod.mk.injEq]
    by_cases href : t.ref = ref
    · subst href
      simp only [if_true, true_and, CanBus.shown_storeFeedback, CanBus.recvSlot_storeFeedback,
        @eq_comm _ id, and_true]
      rfl
    · have hother : ¬ (ref = t.ref ∧ id = t.id) := fun h => href h.1.symm
      simp only [if_neg href, if_neg hother, and_self]

theorem deviceOrder_act (w : XyberController K) (a : Action K) :
    (w.act a).deviceOrder = w.deviceOrder := by
  have hport : ∀ (w : XyberController K) ref f, (w.onPort ref f).deviceOrder = w.deviceOrder := by
    intro w ref f
    unfold onPort setPort
    split_ifs <;> rfl
  cases a with
  | event e => exact congrArg Registration.deviceOrder (quiet_apply w e).registration
  | sendOnce name c =>
    simp only [act]
    split
    · rfl
    · exact hport w _ _

theorem Following.act {w₀ w : XyberController K} (h : Following w₀ w) (a : Action K) :
    Following w₀ (w.act a) := by
  have hwiring := SameWiring.act w a
  have hkept : ∀ t, (w.act a).typeOf t = w.typeOf t ∧
      ((∀ i key, (w.socket i).canCallbackList key ≠ some (t.ref, t.id)) →
        (w.act a).slotOf t = w.slotOf t) := by
    intro t
    by_cases ha : ∃ interface f, a = .event (.receive interface f)
    · obtain ⟨interface, f, rfl⟩ := ha
      obtain ⟨-, htype, hslot⟩ := shown_receive h.routed interface f t
      exact ⟨htype, fun hnone => hslot.trans (if_neg (hnone _ _))⟩
    · obtain ⟨-, htype, hslot⟩ := w.mute_act (fun interface f heq => ha ⟨interface, f, heq⟩) t
      exact ⟨htype, fun _ => hslot⟩
  refine ⟨h.wiring.trans hwiring, h.routed.sameWiring hwiring (w.deviceOrder_act a),
    fun t => (hkept t).1.trans (h.type t), fun t ht hnone => ?_⟩
  have hnone' : ∀ i key, (w.socket i).canCallbackList key ≠ some (t.ref, t.id) := by
    intro i key
    rw [← hwiring.callbacks]
    exact hnone i key
  exact ((hkept t).2 hnone').trans (h.unheard t ht hnone')

/-- One received frame: an actuator that says what it should stays so exactly if the
frame is not lost. -/
theorem Following.receive_iff {w₀ w : XyberController K} (h : Following w₀ w) {t : Target}
    (ht : w₀.registration.Has t) (frames : List (String × CanFrame))
    (ih : w.shown t = w₀.expected t frames)
    (interface : String) (f : CanFrame) :
    (w.act (.event (.receive interface f))).shown t = w₀.expected t (frames ++ [(interface, f)]) ↔
      ¬ w.Lost interface f t := by
  have hdecode : (((w.port t.ref).bus.actuator t.id).val.decodeFeedback f).readings =
      (((w₀.port t.ref).bus.actuator t.id).val.decodeFeedback f).readings :=
    RobstrideMotor.readings_decodeFeedback (h.type t) f
  rw [(shown_receive h.routed interface f t).1, expected_concat, ← hdecode, ← ih, Lost,
    h.wiring.interface]
  by_cases hkey : (w.socket interface).canCallbackList f.keyExtractor = some (t.ref, t.id)
  · -- The frame lands in the slot of the actuator.
    obtain ⟨hid, -, b, hb, hi⟩ := h.routed interface _ t.ref t.id hkey
    have hbus : (w.port t.ref).bus = b := by simp [port, hb]
    have hmotor : interface = (w₀.port t.ref).bus.interface ∧ t.id.key = f.keyExtractor := by
      rw [← h.wiring.interface, hbus, hi]
      exact ⟨rfl, hid⟩
    simp only [and_iff_right hmotor]
    rw [if_pos hkey, if_pos hkey]
    cases hf : f.isFeedback with
    | true =>
      rw [RobstrideMotor.parseFeedback_of_feedback _ hf]
      simp
    | false =>
      rw [RobstrideMotor.parseFeedback_of_not _ hf]
      simp only [Bool.false_eq_true, if_false, true_and]
      exact CanBus.cached_eq_shown_iff _ _
  · rw [if_neg hkey, if_neg hkey]
    split_ifs with hmotor
    · obtain ⟨⟨hi, hid⟩, hf⟩ := hmotor
      have hcached := h.shown_unheard ht (by rwa [h.wiring.interface, ← hi, hid])
      simp only [← hcached, hf, and_iff_right (And.intro hi hid), true_and, not_not, ne_eq]
      exact eq_comm
    · refine iff_of_true rfl ?_
      rintro ⟨hto, hfeedback, -⟩
      exact hmotor ⟨hto, hfeedback⟩

/-- One action, over all actuators. -/
theorem Following.act_iff {w₀ w : XyberController K} (h : Following w₀ w)
    {frames : List (String × CanFrame)}
    (ih : ∀ t, w₀.registration.Has t → w.shown t = w₀.expected t frames) (a : Action K) :
    (∀ t, w₀.registration.Has t → (w.act a).shown t = w₀.expected t (frames ++ a.frames)) ↔
      a.Keeps w := by
  by_cases ha : ∃ interface f, a = .event (.receive interface f)
  · obtain ⟨interface, f, rfl⟩ := ha
    refine forall_congr' fun t => ?_
    rw [h.wiring.has_iff]
    exact forall_congr' fun ht => h.receive_iff ht frames (ih t ht) interface f
  · have hother : ∀ interface f, a ≠ .event (.receive interface f) :=
      fun interface f heq => ha ⟨interface, f, heq⟩
    obtain ⟨hframes, hkeeps⟩ := Action.keeps_of_not_receive w hother
    rw [hframes, List.append_nil]
    exact iff_of_true (fun t ht => (w.mute_act hother t).1.trans (ih t ht)) hkeeps

/-- After any set-up, the getters are faithful in a run exactly as long as no frame is
lost: to another bus of the interface, or on feedback that has not been read. -/
theorem feedback_faithful_iff (calls : List SetUp) (as : List (Action K)) :
    (calls.foldl setUp (empty : XyberController K)).FeedbackFaithful as ↔
      ∀ p a q, as = p ++ a :: q → a.Keeps (p.foldl act (calls.foldl setUp empty)) := by
  have hw := listening_setUp (K := K) calls
  generalize calls.foldl setUp (empty : XyberController K) = w at hw
  have hfollowing : ∀ p : List (Action K), Following w (p.foldl act w) := fun p =>
    Runs.foldl_invariant act (Following w)
      ⟨.refl w, hw.routed, fun _ => rfl, fun t ht _ => hw.slotOf_eq_zero ht⟩
      (fun _ a h => h.act a) p
  simp only [FeedbackFaithful, readings_eq_shown]
  refine Runs.foldl_always_iff act (fun w' a => a.Keeps w')
    (fun p w' => ∀ t, w.registration.Has t → w'.shown t = w.expected t (received p)) ?_ ?_ as
  · intro t ht
    have hslot : (w.port t.ref).bus.recvSlot t.id = .zero := hw.slotOf_eq_zero ht
    rw [shown, CanBus.shown, hslot, RobstrideMotor.parseFeedback_zero]
    rfl
  · intro p a ih
    rw [received_concat]
    exact (hfollowing p).act_iff ih a

end Path

section Knees

def twoKnees : List SetUp :=
  [.createDevice (fun _ => true) "dcu" ![("can0"), "", "", ""],
    .attachActuator "dcu" 0 .robstride02 "knee_left" 1,
    .attachActuator "dcu" 0 .robstride02 "knee_right" 2, .start]

def buried : List (Action ℚ) :=
  [.event (.receive "can0" RobstrideMotor.runningFeedback),
    .event (.receive "can0" ⟨0x910001FD#32, #v[0x05, 0x70, 0, 0, 0, 0, 0, 0]⟩)]

def sharedKnees : List SetUp :=
  [.createDevice (fun _ => true) "left" ![("can0"), "", "", ""],
    .attachActuator "left" 0 .robstride02 "left_knee" 1,
    .createDevice (fun _ => true) "right" ![("can0"), "", "", ""],
    .attachActuator "right" 0 .robstride02 "right_knee" 1, .start]

/-- The left knee loses its feedback to the parameter read, and to the right one. -/
theorem feedback_not_faithful :
    ¬ (twoKnees.foldl setUp (empty : XyberController ℚ)).FeedbackFaithful buried ∧
      ¬ (sharedKnees.foldl setUp (empty : XyberController ℚ)).FeedbackFaithful
        [.event (.receive "can0" RobstrideMotor.runningFeedback)] := by
  constructor
  · intro h
    have hstate := congrArg Readings.powerState
      (h buried (List.prefix_refl _) ⟨.first "dcu", "knee_left", ⟨1, by decide⟩⟩ (by decide))
    revert hstate
    decide +kernel
  · intro h
    have hstate := congrArg Readings.powerState
      (h _ (List.prefix_refl _) ⟨.first "left", "left_knee", ⟨1, by decide⟩⟩ (by decide))
    revert hstate
    decide +kernel

end Knees
end XyberController
end MybipedalDeploy.JointDriver
