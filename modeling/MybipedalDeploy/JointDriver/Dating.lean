import MybipedalDeploy.JointDriver.Addressing
import MybipedalDeploy.JointDriver.Feedback
import MybipedalDeploy.JointDriver.Transmission

/-!
# How old a reading is

A getter decodes the receive slot and answers from the cache. Counted in the feedback
frames of the actuator, the answers never get older, whatever arrives between two calls.
-/

namespace MybipedalDeploy.JointDriver

namespace RobstrideMotor
variable {K : Type*} [Field K] (m : RobstrideMotor K)

def said (frames : List CanFrame) : ℕ → Readings K
  | 0 => m.readings
  | n + 1 => ((frames[n]?).elim m m.decodeFeedback).readings

theorem said_append {frames : List CanFrame} {n : ℕ} (h : n ≤ frames.length)
    (more : List CanFrame) : m.said (frames ++ more) n = m.said frames n := by
  cases n with
  | zero => rfl
  | succ n =>
    simp only [said]
    rw [List.getElem?_append_left h]

theorem said_last {frames : List CanFrame} {f : CanFrame} (h : frames.getLast? = some f) :
    m.said frames frames.length = (m.decodeFeedback f).readings := by
  obtain ⟨init, rfl⟩ := List.getLast?_eq_some_iff.mp h
  simp [said]

end RobstrideMotor

namespace CanBus
variable {K : Type*} [Field K]

/-- The cache of an actuator is `age` frames on, and a frame that waits in the slot is the
newest one. While the line is `quiet`, what is newer than the cache does wait there. -/
structure Dated (quiet : Prop) (m : RobstrideMotor K) (frames : List CanFrame) (id : CanId)
    (b : CanBus K) (age : ℕ) : Prop where
  type : (b.actuator id).val.type = m.type
  cached : (b.actuator id).val.readings = m.said frames age
  le : age ≤ frames.length
  slot : (b.recvSlot id).isFeedback = true → frames.getLast? = some (b.recvSlot id)
  current : quiet → (b.recvSlot id).isFeedback = true ∨ age = frames.length

def waiting (b : CanBus K) (id : CanId) : List CanFrame :=
  if (b.recvSlot id).isFeedback then [b.recvSlot id] else []

theorem dated_waiting (b : CanBus K) (quiet : Prop) (id : CanId) :
    b.Dated quiet (b.actuator id).val (b.waiting id) id 0 := by
  unfold waiting
  refine ⟨rfl, rfl, Nat.zero_le _, fun h => ?_, fun _ => ?_⟩
  · rw [if_pos h]
    rfl
  · split_ifs with h
    · exact .inl h
    · exact .inr rfl

namespace Dated
variable {quiet : Prop} {m : RobstrideMotor K} {frames : List CanFrame} {id : CanId} {b : CanBus K}
  {age : ℕ}

theorem same (h : b.Dated quiet m frames id age) {b' : CanBus K}
    (hactuator : (b'.actuator id).val = (b.actuator id).val)
    (hslot : b'.recvSlot id = b.recvSlot id) : b'.Dated quiet m frames id age := by
  obtain ⟨htype, hcached, hle, hlast, hcurrent⟩ := h
  rw [← hactuator] at htype hcached
  rw [← hslot] at hlast hcurrent
  exact ⟨htype, hcached, hle, hlast, hcurrent⟩

theorem weaken (h : b.Dated quiet m frames id age) {quiet' : Prop} (hquiet : quiet' → quiet) :
    b.Dated quiet' m frames id age :=
  ⟨h.type, h.cached, h.le, h.slot, fun h' => h.current (hquiet h')⟩

theorem store (h : b.Dated quiet m frames id age) {f : CanFrame} (hf : f.isFeedback = true) :
    (b.storeFeedback id f).Dated quiet m (frames ++ [f]) id age := by
  have hslot : (b.storeFeedback id f).recvSlot id = f := by
    rw [recvSlot_storeFeedback, if_pos rfl]
  refine ⟨h.type, ?_, ?_, fun _ => ?_, fun _ => .inl ?_⟩
  · rw [m.said_append h.le]
    exact h.cached
  · rw [List.length_append]
    exact h.le.trans (Nat.le_add_right _ _)
  · rw [hslot, List.getLast?_concat]
  · rw [hslot]
    exact hf

theorem store_other (h : b.Dated quiet m frames id age) {f : CanFrame} (hf : f.isFeedback = false) :
    (b.storeFeedback id f).Dated False m frames id age := by
  have hslot : (b.storeFeedback id f).recvSlot id = f := by
    rw [recvSlot_storeFeedback, if_pos rfl]
  refine ⟨h.type, h.cached, h.le, fun hslot' => ?_, False.elim⟩
  rw [hslot, hf] at hslot'
  cases hslot'

theorem store_ne (h : b.Dated quiet m frames id age) {id' : CanId} (hne : id ≠ id') (f : CanFrame) :
    (b.storeFeedback id' f).Dated quiet m frames id age := by
  refine h.same rfl ?_
  rw [recvSlot_storeFeedback, if_neg hne]

theorem parse (h : b.Dated quiet m frames id age) :
    ∃ age', age ≤ age' ∧ (quiet → age' = frames.length) ∧ (b.parse id).Dated quiet m frames id age' := by
  have hactuator : ((b.parse id).actuator id).val =
      (b.actuator id).val.parseFeedback (b.recvSlot id) := by
    rw [actuator_parse, if_pos rfl]
  cases hslot : (b.recvSlot id).isFeedback with
  | false =>
    refine ⟨age, le_rfl, fun hquiet => ?_, h.same ?_ rfl⟩
    · exact (h.current hquiet).resolve_left (by rw [hslot]; exact Bool.false_ne_true)
    · rw [hactuator, RobstrideMotor.parseFeedback_of_not _ hslot]
  | true =>
    refine ⟨frames.length, h.le, fun _ => rfl, ⟨?_, ?_, le_rfl, h.slot, fun _ => .inr rfl⟩⟩
    · rw [hactuator, RobstrideMotor.parseFeedback_type]
      exact h.type
    · rw [hactuator, RobstrideMotor.parseFeedback_of_feedback _ hslot, m.said_last (h.slot hslot)]
      exact RobstrideMotor.readings_decodeFeedback h.type _

theorem parse_ne (h : b.Dated quiet m frames id age) {id' : CanId} (hne : id ≠ id') :
    (b.parse id').Dated quiet m frames id age := by
  refine h.same ?_ rfl
  rw [actuator_parse, if_neg hne]

end Dated
end CanBus

def Readings.reading {K : Type*} (r : Readings K) : Reading K := ⟨r.effort, r.velocity, r.position⟩

namespace XyberController
variable {K : Type*}

def OnlyFeedback (received : List (String × CanFrame)) : Prop := ∀ e ∈ received, e.2.isFeedback = true

def Event.frames : Event K → List (String × CanFrame)
  | .receive interface f => [(interface, f)]
  | _ => []

section Place
variable (w : XyberController K)

def place (name : String) : Option (BusRef × CanId) :=
  (w.findBus name).bind fun ref =>
    ((w.busAt ref).bind fun b => b.registry.getActuator name).map fun id => (ref, id)

def hears (ref : BusRef) (id : CanId) (e : String × CanFrame) : Option CanFrame :=
  if (w.socket e.1).canCallbackList e.2.keyExtractor = some (ref, id) ∧ e.2.isFeedback = true then
    some e.2
  else none

def heard (received : List (String × CanFrame)) (ref : BusRef) (id : CanId) : List CanFrame :=
  ((w.busAt ref).elim [] fun b => b.waiting id) ++ received.filterMap (w.hears ref id)

def framesOf (received : List (String × CanFrame)) (name : String) : List CanFrame :=
  (w.place name).elim [] fun at_ => w.heard received at_.1 at_.2

theorem heard_append (received more : List (String × CanFrame)) (ref : BusRef) (id : CanId) :
    w.heard (received ++ more) ref id = w.heard received ref id ++ more.filterMap (w.hears ref id) := by
  simp only [heard, List.filterMap_append, List.append_assoc]

def ageOf (age : BusRef → CanId → ℕ) (name : String) : ℕ :=
  (w.place name).elim 0 fun at_ => age at_.1 at_.2

theorem ageOf_mono {age age' : BusRef → CanId → ℕ} (h : ∀ ref id, age ref id ≤ age' ref id)
    (name : String) : w.ageOf age name ≤ w.ageOf age' name := by
  unfold ageOf
  cases w.place name with
  | none => exact le_rfl
  | some at_ => exact h at_.1 at_.2

variable [Field K]

def getReading (name : String) : Reading K :=
  match w.findBus name with
  | none => ⟨0, 0, 0⟩
  | some ref =>
    match (w.port ref).bus.registry.getActuator name with
    | none => ⟨0, 0, 0⟩
    | some id => ((w.port ref).bus.get id).2.reading

/-- What they say after so many frames of the actuator. -/
def stated (received : List (String × CanFrame)) (name : String) (n : ℕ) : Reading K :=
  match w.place name with
  | none => ⟨0, 0, 0⟩
  | some (ref, id) =>
    (((w.port ref).bus.actuator id).val.said (w.heard received ref id) n).reading

end Place

theorem slots_transmitAll (p : Port K) : p.transmitAll.bus.actuator = p.bus.actuator ∧
    ∀ id, p.transmitAll.bus.recvSlot id = p.bus.recvSlot id := by
  unfold Port.transmitAll
  generalize p.bus.transmitAll = fs
  induction fs generalizing p with
  | nil => exact ⟨rfl, fun _ => rfl⟩
  | cons f fs ih =>
    obtain ⟨hactuator, hslot⟩ := ih (p.transmit .cyclic f)
    exact ⟨hactuator.trans (p.transmit_actuator .cyclic f),
      fun id => (hslot id).trans (p.recvSlot_transmit .cyclic f id)⟩

section Apply
variable [Field K]

/-- Every actuator of the controller `w` is dated, counting from `w₀`. -/
structure Dated (w₀ : XyberController K) (received : List (String × CanFrame))
    (w : XyberController K) (age : BusRef → CanId → ℕ) : Prop where
  wiring : SameWiring w₀ w
  found : ∀ name, w.findBus name = w₀.findBus name
  dated : ∀ ref b₀ b, w₀.busAt ref = some b₀ → w.busAt ref = some b → ∀ id,
    b.Dated (OnlyFeedback received) (b₀.actuator id).val (w₀.heard received ref id) id (age ref id)

theorem dated_start (w : XyberController K) : Dated w [] w fun _ _ => 0 := by
  refine ⟨.refl w, fun _ => rfl, fun ref b₀ b hb₀ hb id => ?_⟩
  rw [hb₀] at hb
  cases hb
  simp only [heard, hb₀, Option.elim_some, List.filterMap_nil, List.append_nil]
  exact b₀.dated_waiting _ id

theorem findBus_onPort (w : XyberController K) (ref : BusRef) (f : Port K → Port K) (name : String) :
    (w.onPort ref f).findBus name = w.findBus name := by
  unfold onPort setPort
  split_ifs with hsome
  · refine congrArg (w.actrDevMap name).bind (funext fun d => ?_)
    exact congrArg (fun map => (map name).map fun i => BusRef.mk d i)
      (w.actuatorBusMap_setBus ref _ d)
  · rfl

theorem busAt_onPort (w : XyberController K) (ref ref' : BusRef) (f : Port K → Port K) :
    (w.onPort ref f).busAt ref' =
      if ref' = ref then (w.busAt ref).map fun b => (f ⟨b, w.socket b.interface⟩).bus
      else w.busAt ref' := by
  unfold onPort setPort
  cases hb : w.busAt ref with
  | none =>
    simp only [Option.isSome_none, Bool.false_eq_true, if_false, Option.map_none]
    split_ifs with heq
    · rw [heq, hb]
    · rfl
  | some b =>
    simp only [Option.isSome_some, if_true, busAt_setSocket, busAt_setBus, port, hb,
      Option.getD_some, Option.map_some]

namespace Dated
variable {w₀ w : XyberController K} {received : List (String × CanFrame)} {age : BusRef → CanId → ℕ}

theorem onPort (h : Dated w₀ received w age) (ref : BusRef) {f : Port K → Port K}
    (hwiring : SameWiring w (w.onPort ref f)) {received' : List (String × CanFrame)}
    {age' : BusRef → CanId → ℕ}
    (hheard : ∀ ref' ≠ ref, ∀ id, w₀.heard received' ref' id = w₀.heard received ref' id)
    (hage : ∀ ref' ≠ ref, ∀ id, age' ref' id = age ref' id)
    (hquiet : OnlyFeedback received' → OnlyFeedback received)
    (hbus : ∀ b₀, w₀.busAt ref = some b₀ → ∀ id,
      (w.port ref).bus.Dated (OnlyFeedback received) (b₀.actuator id).val (w₀.heard received ref id) id
        (age ref id) →
      (f (w.port ref)).bus.Dated (OnlyFeedback received') (b₀.actuator id).val (w₀.heard received' ref id) id
        (age' ref id)) :
    Dated w₀ received' (w.onPort ref f) age' := by
  refine ⟨h.wiring.trans hwiring, fun name => ?_, fun ref' b₀ b hb₀ hb id => ?_⟩
  · rw [findBus_onPort]
    exact h.found name
  · rw [busAt_onPort] at hb
    split_ifs at hb with heq
    · subst heq
      obtain ⟨b', hb', rfl⟩ := Option.map_eq_some_iff.mp hb
      have hport : w.port ref' = ⟨b', w.socket b'.interface⟩ := by simp [port, hb']
      rw [hport] at hbus
      exact hbus b₀ hb₀ id (h.dated ref' b₀ b' hb₀ hb' id)
    · rw [hheard ref' heq, hage ref' heq]
      exact (h.dated ref' b₀ b hb₀ hb id).weaken hquiet

theorem onPort_same (h : Dated w₀ received w age) (ref : BusRef) {f : Port K → Port K}
    (hwiring : SameWiring w (w.onPort ref f))
    (hactuator : ∀ p, (f p).bus.actuator = p.bus.actuator)
    (hslot : ∀ p id, (f p).bus.recvSlot id = p.bus.recvSlot id) :
    Dated w₀ received (w.onPort ref f) age :=
  h.onPort ref hwiring (fun _ _ _ => rfl) (fun _ _ _ => rfl) (fun hq => hq)
    fun _ _ id hp =>
    hp.same (by rw [hactuator]) (hslot _ id)

variable [LinearOrder K] [FloorSemiring K]

theorem receive (h : Dated w₀ received w age) (interface : String) (f : CanFrame) :
    Dated w₀ (received ++ [(interface, f)]) (w.apply (.receive interface f)) age := by
  have hwiring := SameWiring.apply w (.receive interface f)
  have hcallback := h.wiring.callbacks interface
  have hother : ∀ ref id, (w₀.socket interface).canCallbackList f.keyExtractor ≠ some (ref, id) →
      w₀.heard (received ++ [(interface, f)]) ref id = w₀.heard received ref id := by
    intro ref id hne
    simp [heard_append, hears, hne]
  have hquiet : OnlyFeedback (received ++ [(interface, f)]) → OnlyFeedback received ∧ f.isFeedback = true := by
    intro hq
    exact ⟨fun e he => hq e (List.mem_append_left _ he), hq (interface, f) (by simp)⟩
  simp only [XyberController.apply, hcallback] at hwiring ⊢
  cases hkey : (w₀.socket interface).canCallbackList f.keyExtractor with
  | none =>
    refine ⟨h.wiring, h.found, fun ref b₀ b hb₀ hb id => ?_⟩
    rw [hother ref id (by simp [hkey])]
    exact (h.dated ref b₀ b hb₀ hb id).weaken fun hq => (hquiet hq).1
  | some e =>
    obtain ⟨ref, id⟩ := e
    simp only [hkey] at hwiring
    refine h.onPort ref hwiring (fun ref' hne id' => hother ref' id' ?_) (fun _ _ _ => rfl)
      (fun hq => (hquiet hq).1) fun b₀ _ id' hp => ?_
    · rw [hkey]
      exact fun heq => hne (congrArg Prod.fst (Option.some.inj heq)).symm
    · rcases eq_or_ne id' id with rfl | hid
      · cases hf : f.isFeedback with
        | true =>
          have hheard : w₀.heard (received ++ [(interface, f)]) ref id' =
              w₀.heard received ref id' ++ [f] := by
            simp [heard_append, hears, hkey, hf]
          rw [hheard]
          exact (hp.store hf).weaken fun hq => (hquiet hq).1
        | false =>
          have hheard : w₀.heard (received ++ [(interface, f)]) ref id' =
              w₀.heard received ref id' := by
            simp [heard_append, hears, hf]
          rw [hheard]
          exact (hp.store_other hf).weaken fun hq => absurd ((hquiet hq).2.symm.trans hf) (by simp)
      · rw [hother ref id' (by
          rw [hkey]
          exact fun heq => hid (congrArg Prod.snd (Option.some.inj heq)).symm)]
        exact (hp.store_ne hid f).weaken fun hq => (hquiet hq).1

theorem get (h : Dated w₀ received w age) (name : String) :
    ∃ age', (∀ ref id, age ref id ≤ age' ref id) ∧ Dated w₀ received (w.apply (.get name)) age' ∧
      w.getReading name = w₀.stated received name (w₀.ageOf age' name) ∧
      (OnlyFeedback received → w₀.ageOf age' name = (w₀.framesOf received name).length) := by
  have hwiring := SameWiring.apply w (.get name)
  have hfound := h.found name
  unfold getReading stated ageOf framesOf place
  simp only [XyberController.apply] at hwiring ⊢
  rw [← hfound]
  cases href : w.findBus name with
  | none => exact ⟨age, fun _ _ => le_rfl, h, rfl, fun _ => rfl⟩
  | some ref =>
    simp only [href, Option.bind_some] at hwiring ⊢
    cases hb₀ : w₀.busAt ref with
    | none =>
      have hb : w.busAt ref = none := by simpa [hb₀] using h.wiring.buses ref
      refine ⟨age, fun _ _ => le_rfl, ?_,
        by simp [port, hb, CanBus.new, Registry.empty, Registry.getActuator], fun _ => rfl⟩
      unfold XyberController.onPort setPort
      rw [hb]
      exact h
    | some b₀ =>
      obtain ⟨b, hb, hinterface, hregistry⟩ := h.wiring.bus hb₀
      have hport : w.port ref = ⟨b, w.socket b.interface⟩ := by simp [port, hb]
      have hport₀ : w₀.port ref = ⟨b₀, w₀.socket b₀.interface⟩ := by simp [port, hb₀]
      have hid := congrArg (fun r => r.getActuator name) hregistry
      simp only [hport, Option.bind_some] at hid ⊢
      rw [hid]
      cases hname : b₀.registry.getActuator name with
      | none =>
        refine ⟨age, fun _ _ => le_rfl, h.onPort ref hwiring (fun _ _ _ => rfl) (fun _ _ _ => rfl)
          (fun hq => hq) fun _ _ id' hp => ?_, rfl, fun _ => rfl⟩
        simpa [CanBus.step, hport, hid, hname] using hp
      | some id =>
        obtain ⟨n, hle, hnewest, hn⟩ := (h.dated ref b₀ b hb₀ hb id).parse
        refine ⟨fun ref' id' => if ref' = ref ∧ id' = id then n else age ref' id', fun ref' id' => ?_,
          h.onPort ref hwiring (fun _ _ _ => rfl) (fun ref' hne id' => if_neg fun h => hne h.1)
            (fun hq => hq) fun b₁ hb₁ id' hp => ?_, ?_, fun hq => ?_⟩
        · dsimp only
          split_ifs with heq
          · rw [heq.1, heq.2]
            exact hle
          · exact le_rfl
        · rw [hb₀] at hb₁
          cases hb₁
          simp only [CanBus.step, hport, hid, hname, CanBus.get, true_and] at hp ⊢
          rcases eq_or_ne id' id with rfl | hne
          · rw [if_pos rfl]
            exact hn
          · rw [if_neg hne]
            exact hp.parse_ne hne
        · simp only [Option.map_some, Option.elim_some, and_self, if_true, hport₀]
          exact congrArg Readings.reading hn.cached
        · simp only [Option.map_some, Option.elim_some, and_self, if_true]
          exact hnewest hq

theorem apply (h : Dated w₀ received w age) (e : Event K) :
    ∃ age', (∀ ref id, age ref id ≤ age' ref id) ∧
      Dated w₀ (received ++ e.frames) (w.apply e) age' := by
  have hwiring := SameWiring.apply w e
  cases e with
  | receive interface f => exact ⟨age, fun _ _ => le_rfl, h.receive interface f⟩
  | sender interface =>
    refine ⟨age, fun _ _ => le_rfl, h.wiring.trans hwiring, h.found, ?_⟩
    simp only [Event.frames, List.append_nil]
    exact h.dated
  | controlLoop ref =>
    refine ⟨age, fun _ _ => le_rfl, ?_⟩
    simp only [Event.frames, List.append_nil, XyberController.apply] at hwiring ⊢
    split_ifs at hwiring ⊢
    · exact h.onPort_same ref hwiring (fun p => (slots_transmitAll p).1) fun p => (slots_transmitAll p).2
    · exact h
  | get name =>
    obtain ⟨age', hle, hget, -, -⟩ := h.get name
    refine ⟨age', hle, ?_⟩
    simpa only [Event.frames, List.append_nil] using hget
  | setMitCmd name pos vel effort kp kd =>
    refine ⟨age, fun _ _ => le_rfl, ?_⟩
    simp only [Event.frames, List.append_nil, XyberController.apply, setMitCmd] at hwiring ⊢
    cases href : w.findBus name with
    | none => exact h
    | some ref =>
      simp only [href] at hwiring ⊢
      refine h.onPort_same ref hwiring (fun p => ?_) fun p id => ?_
      · simp only [CanBus.step]
        split <;> rfl
      · simp only [CanBus.step]
        split <;> rfl

end Dated
end Apply
end XyberController
end MybipedalDeploy.JointDriver
