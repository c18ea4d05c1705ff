import MybipedalDeploy.JointDriver.Routing
import MybipedalDeploy.JointDriver.SocketCan
import MybipedalDeploy.Library.Relay

/-!
# The order of the frames of one actuator

`SendOnce` lets go of the mutex before it queues the frame it has captured, while
the cyclic transmission queues what is in the slots under the mutex. The relay
stamps what is written into each slot; its outlet is the transmit queue.
-/

namespace MybipedalDeploy.JointDriver
open Relay (State Item)
open Runs (Run Along)

/-- One bus among any number of threads: who waits to queue a captured frame, and
which slots a transmission that holds the mutex has still to look at. -/
structure Line (K : Type*) where
  bus : CanBus K
  socket : SocketCan
  cycle : Option (List CanId)
  relay : State CanId CanFrame

namespace Line
variable {K : Type*}

inductive Action (K : Type*)
  | capture (name : String) (c : OneShot)
  | transmit (thread : ℕ)
  | setPeriodic (name : String) (c : Periodic K)
  | lock
  | next
  | sender

def writes : OneShot → Bool
  | .setMode mode => decide mode.Defined
  | _ => true

def start (bus : CanBus K) (socket : SocketCan) : Line K := ⟨bus, socket, none, .new⟩

def Queues (s : Line K) (id : CanId) : Prop :=
  (s.bus.sendSlot id).canId ≠ 0 ∧ s.socket.accepts = true

instance (s : Line K) (id : CanId) : Decidable (s.Queues id) := inferInstanceAs (Decidable (_ ∧ _))

def capture (s : Line K) (id : CanId) (c : OneShot) : Line K :=
  let written := if writes c then s.relay.write id else s.relay
  { s with
    bus := (s.bus.sendOnce id c).1
    relay := written.take id (s.bus.sendOnce id c).2 }

def transmit (s : Line K) (i : ℕ) (a : Item CanId CanFrame) : Line K :=
  { s with
    socket := s.socket.transmit a.payload
    relay := if s.socket.accepts then s.relay.pass i a else s.relay.drop i }

def next (s : Line K) (id : CanId) (rest : List CanId) : Line K :=
  if (s.bus.sendSlot id).canId = 0 then { s with cycle := some rest }
  else
    { s with
      cycle := some rest
      socket := s.socket.transmit (s.bus.sendSlot id)
      relay := if s.socket.accepts then s.relay.copy id (s.bus.sendSlot id) else s.relay }

theorem next_cycle (s : Line K) (id : CanId) (rest : List CanId) :
    (s.next id rest).cycle = some rest := by
  unfold next
  split_ifs <;> rfl

theorem next_bus (s : Line K) (id : CanId) (rest : List CanId) : (s.next id rest).bus = s.bus := by
  unfold next
  split_ifs <;> rfl

variable [Field K] [LinearOrder K] [FloorSemiring K]

def setPeriodic (s : Line K) (id : CanId) (c : Periodic K) : Line K :=
  { s with bus := s.bus.setPeriodic id c, relay := s.relay.write id }

def step (s : Line K) : Action K → Option (Line K)
  | .capture name c =>
    if s.cycle.isSome then none else (s.bus.registry.getActuator name).map fun id => s.capture id c
  | .transmit i => (s.relay.waiting[i]?).map fun a => s.transmit i a
  | .setPeriodic name c =>
    if s.cycle.isSome then none
    else (s.bus.registry.getActuator name).map fun id => s.setPeriodic id c
  | .lock => if s.cycle.isSome then none else some { s with cycle := some s.bus.registry.actuatorById }
  | .next =>
    match s.cycle with
    | none => none
    | some [] => some { s with cycle := none }
    | some (id :: rest) => some (s.next id rest)
  | .sender => some { s with socket := s.socket.pop }

/-- Nothing passes a frame of the same actuator that was captured and not yet queued. -/
def InTurn (s : Line K) : Action K → Prop
  | .transmit i =>
    match s.relay.waiting[i]? with
    | none => True
    | some a => s.socket.accepts = true → ∀ b ∈ s.relay.waiting, b.key = a.key → a.stamp ≤ b.stamp
  | .next =>
    match s.cycle with
    | some (id :: _) => s.Queues id → ∀ b ∈ s.relay.waiting, b.key ≠ id
    | _ => True
  | _ => True

instance (s : Line K) (a : Action K) : Decidable (s.InTurn a) := by
  unfold InTurn
  split
  · split <;> infer_instance
  · split <;> infer_instance
  · infer_instance

def InOrder (s : Line K) : Prop := s.relay.InOrder

instance (s : Line K) : Decidable s.InOrder :=
  inferInstanceAs (Decidable (List.Pairwise _ _))

inductive Effect (s t : Line K) : Action K → Prop
  | rest {a : Action K} (hin : s.InTurn a) (hrelay : t.relay = s.relay)
      (hsocket : t.socket = s.socket ∨ t.socket = s.socket.pop) : Effect s t a
  | write {a : Action K} (hin : s.InTurn a) (id : CanId) (hrelay : t.relay = s.relay.write id)
      (hsocket : t.socket = s.socket) : Effect s t a
  | take {a : Action K} (hin : s.InTurn a) (id : CanId) (f : CanFrame)
      (hrelay : t.relay = s.relay.take id f ∨ t.relay = (s.relay.write id).take id f)
      (hsocket : t.socket = s.socket) : Effect s t a
  | pass (i : ℕ) (b : Item CanId CanFrame) (hi : s.relay.waiting[i]? = some b)
      (hroom : s.socket.accepts = true) (hrelay : t.relay = s.relay.pass i b)
      (hsocket : t.socket = s.socket.transmit b.payload) : Effect s t (.transmit i)
  | drop (i : ℕ) (hin : s.InTurn (.transmit i)) (hrelay : t.relay = s.relay.drop i) (hsocket : t.socket = s.socket) :
      Effect s t (.transmit i)
  | copy (id : CanId) (rest : List CanId) (hcycle : s.cycle = some (id :: rest)) (hqueues : s.Queues id)
      (hrelay : t.relay = s.relay.copy id (s.bus.sendSlot id))
      (hsocket : t.socket = s.socket.transmit (s.bus.sendSlot id)) : Effect s t .next

theorem step_effect {s t : Line K} {a : Action K} (h : s.step a = some t) : Effect s t a := by
  cases a with
  | capture name c =>
    simp only [step] at h
    split_ifs at h
    obtain ⟨id, -, rfl⟩ := Option.map_eq_some_iff.mp h
    refine .take trivial id (s.bus.sendOnce id c).2 ?_ rfl
    simp only [capture]
    split_ifs
    · exact .inr rfl
    · exact .inl rfl
  | transmit i =>
    obtain ⟨b, hi, rfl⟩ := Option.map_eq_some_iff.mp h
    by_cases hroom : s.socket.accepts = true
    · exact .pass i b hi hroom (if_pos hroom) rfl
    · refine .drop i ?_ (if_neg hroom) (if_neg hroom)
      simp only [InTurn, hi]
      exact fun h => absurd h hroom
  | setPeriodic name c =>
    simp only [step] at h
    split_ifs at h
    obtain ⟨id, -, rfl⟩ := Option.map_eq_some_iff.mp h
    exact .write trivial id rfl rfl
  | lock =>
    simp only [step] at h
    split_ifs at h
    cases h
    exact .rest trivial rfl (.inl rfl)
  | next =>
    simp only [step] at h
    split at h
    · cases h
    next hcycle =>
      cases h
      exact .rest (by simp [InTurn, hcycle]) rfl (.inl rfl)
    next id rest hcycle =>
      cases h
      have hin : ¬ s.Queues id → s.InTurn .next := by
        simp only [InTurn, hcycle]
        exact fun hno hqueues => absurd hqueues hno
      by_cases hzero : (s.bus.sendSlot id).canId = 0
      · simp only [next, if_pos hzero]
        exact .rest (hin fun h => h.1 hzero) rfl (.inl rfl)
      · simp only [next, if_neg hzero]
        by_cases hroom : s.socket.accepts = true
        · exact .copy id rest hcycle ⟨hzero, hroom⟩ (if_pos hroom) rfl
        · exact .rest (hin fun h => hroom h.2) (if_neg hroom) (.inl (if_neg hroom))
  | sender =>
    cases h
    exact .rest trivial rfl (.inr rfl)

theorem sound_step {s t : Line K} {a : Action K} (hs : s.relay.Sound) (h : s.step a = some t) :
    t.relay.Sound := by
  cases step_effect h with
  | rest _ hrelay => exact hrelay ▸ hs
  | write _ id hrelay => exact hrelay ▸ hs.write id
  | take _ id f hrelay =>
    rcases hrelay with hrelay | hrelay
    · exact hrelay ▸ hs.take id f
    · exact hrelay ▸ (hs.write id).take id f
  | pass i b hi _ hrelay => exact hrelay ▸ hs.pass hi
  | drop i _ hrelay => exact hrelay ▸ hs.drop i
  | copy id rest _ _ hrelay => exact hrelay ▸ hs.copy id _

theorem timely_step {s t : Line K} {a : Action K} (hs : s.relay.Sound) (ht : s.relay.Timely)
    (hg : s.InTurn a) (h : s.step a = some t) : t.relay.Timely := by
  cases step_effect h with
  | rest _ hrelay => exact hrelay ▸ ht
  | write _ id hrelay => exact hrelay ▸ ht.write id
  | take _ id f hrelay =>
    rcases hrelay with hrelay | hrelay
    · exact hrelay ▸ ht.take hs id f
    · exact hrelay ▸ (ht.write id).take (hs.write id) id f
  | pass i b hi hroom hrelay =>
    simp only [InTurn, hi] at hg
    exact hrelay ▸ ht.pass hi (hg hroom)
  | drop i _ hrelay => exact hrelay ▸ ht.drop i
  | copy id rest hcycle hqueues hrelay =>
    simp only [InTurn, hcycle] at hg
    exact hrelay ▸ ht.copy hs _ (hg hqueues)

theorem sound_run {bus : CanBus K} {socket : SocketCan} {as : List (Action K)} {s : Line K}
    (h : Run step (start bus socket) as s) : s.relay.Sound :=
  h.invariant (fun s => s.relay.Sound) .new fun _ _ _ hs hstep => sound_step hs hstep

theorem exec_next (ids : List CanId) {s : Line K} (hs : s.cycle = some ids) :
    ∃ t, Runs.exec step s (List.replicate (ids.length + 1) .next) = some t ∧ t.cycle = none ∧
      t.socket = (ids.filterMap fun id => if (s.bus.sendSlot id).canId = 0 then none
        else some (s.bus.sendSlot id)).foldl SocketCan.transmit s.socket := by
  induction ids generalizing s with
  | nil => exact ⟨{ s with cycle := none }, by simp [Runs.exec, step, hs], rfl, rfl⟩
  | cons id ids ih =>
    obtain ⟨t, hexec, hdone, hsocket⟩ := ih (s.next_cycle id ids)
    refine ⟨t, ?_, hdone, ?_⟩
    · rw [List.length_cons, List.replicate_succ]
      simp only [Runs.exec, step, hs, Option.bind_some]
      exact hexec
    · rw [hsocket, next_bus, List.filterMap_cons]
      by_cases hzero : (s.bus.sendSlot id).canId = 0
      · simp only [if_pos hzero, next]
      · simp only [if_neg hzero, next, List.foldl_cons]

theorem transmitAll_alone (s : Line K) (h : s.cycle = none) :
    ∃ t, Runs.exec step s (.lock ::
        List.replicate (s.bus.registry.actuatorById.length + 1) .next) = some t ∧
      t.cycle = none ∧ t.socket = s.bus.transmitAll.foldl SocketCan.transmit s.socket := by
  obtain ⟨t, hexec, hdone, hsocket⟩ := exec_next s.bus.registry.actuatorById
    (s := { s with cycle := some s.bus.registry.actuatorById }) rfl
  refine ⟨t, ?_, hdone, hsocket⟩
  simpa [Runs.exec, step, h] using hexec

theorem txQueue_suffix {bus : CanBus K} {socket : SocketCan} (hempty : socket.txQueue = [])
    {as : List (Action K)} {s : Line K} (h : Run step (start bus socket) as s) :
    s.socket.txQueue <:+ s.relay.sent.map Item.payload := by
  refine h.invariant (fun s => s.socket.txQueue <:+ s.relay.sent.map Item.payload) ?_ ?_
  · simp [start, State.new, hempty]
  intro s a t hs hstep
  have hsend : ∀ (id : CanId) (n : ℕ) (f : CanFrame), s.socket.accepts = true →
      (s.socket.transmit f).txQueue <:+
        (s.relay.sent ++ [(⟨id, n, f⟩ : Item CanId CanFrame)]).map Item.payload := by
    intro id n f hroom
    simp only [SocketCan.transmit, if_pos hroom, List.map_append]
    exact List.suffix_append_self_iff.mpr hs
  cases step_effect hstep with
  | rest _ hrelay hsocket =>
    rw [hrelay]
    rcases hsocket with hsocket | hsocket
    · exact hsocket ▸ hs
    · exact hsocket ▸ (List.tail_suffix _).trans hs
  | write _ id hrelay hsocket => exact hrelay ▸ hsocket ▸ hs
  | take _ id f hrelay hsocket =>
    rw [hsocket]
    rcases hrelay with hrelay | hrelay
    · exact hrelay ▸ hs
    · exact hrelay ▸ hs
  | pass i b _ hroom hrelay hsocket => exact hrelay ▸ hsocket ▸ hsend b.key b.stamp b.payload hroom
  | drop i _ hrelay hsocket => exact hrelay ▸ hsocket ▸ hs
  | copy id rest _ hqueues hrelay hsocket => exact hrelay ▸ hsocket ▸ hsend _ _ _ hqueues.2

theorem inOrder_of_inTurn (bus : CanBus K) (socket : SocketCan) {as : List (Action K)} {s : Line K}
    (h : Run step (start bus socket) as s) (hg : Along step InTurn (start bus socket) as) :
    s.InOrder := by
  have hinv : s.relay.Sound ∧ s.relay.Timely :=
    h.guarded InTurn (fun _ s => s.relay.Sound ∧ s.relay.Timely) ⟨.new, .new⟩
      (fun _ _ _ _ hs hin hstep => ⟨sound_step hs.1 hstep, timely_step hs.1 hs.2 hin hstep⟩) hg
  exact hinv.2.inOrder

theorem exists_not_inOrder {t : Line K} {a b : Item CanId CanFrame} (ha : a ∈ t.relay.sent)
    (hb : b ∈ t.relay.waiting) (hkey : a.key = b.key) (hnewer : b.stamp < a.stamp)
    (hroom : t.socket.accepts = true) : ∃ i u, t.step (.transmit i) = some u ∧ ¬ u.InOrder := by
  obtain ⟨i, hi⟩ := List.mem_iff_getElem?.mp hb
  refine ⟨i, t.transmit i b, by simp [step, hi], ?_⟩
  simp only [InOrder, transmit, if_pos hroom]
  exact State.not_inOrder_of_passed ha hkey hnewer

/-- A frame that was passed breaks the order as soon as it finds room in the queue. -/
theorem not_inOrder_of_not_inTurn {bus : CanBus K} {socket : SocketCan} {as : List (Action K)}
    {s t : Line K} {a : Action K} (h : Run step (start bus socket) as s) (hstep : s.step a = some t)
    (hg : ¬ s.InTurn a) (hroom : t.socket.accepts = true) :
    ∃ i u, t.step (.transmit i) = some u ∧ ¬ u.InOrder := by
  cases step_effect hstep with
  | pass i a hi _ hrelay =>
    simp only [InTurn, hi] at hg
    push Not at hg
    obtain ⟨-, b, hb, hkey, hnewer⟩ := hg
    obtain ⟨j, hj⟩ := List.mem_iff_getElem?.mp hb
    have hne : j ≠ i := by
      rintro rfl
      rw [Option.some.inj (hj.symm.trans hi)] at hnewer
      omega
    refine exists_not_inOrder (a := a) (b := b) ?_ ?_ hkey.symm hnewer hroom
    · rw [hrelay]
      exact List.mem_append_right _ (List.mem_singleton_self a)
    · rw [hrelay]
      exact List.mem_eraseIdx_iff_getElem?.mpr ⟨j, hne, hj⟩
  | copy id rest hcycle _ hrelay =>
    simp only [InTurn, hcycle] at hg
    push Not at hg
    obtain ⟨-, b, hb, rfl⟩ := hg
    refine exists_not_inOrder (a := ⟨b.key, s.relay.latest b.key, s.bus.sendSlot b.key⟩) (b := b) ?_ ?_
      rfl ((sound_run h).waiting_lt b hb) hroom
    · rw [hrelay]
      exact List.mem_append_right _ (List.mem_singleton_self _)
    · rw [hrelay]
      exact hb
  | rest hin => exact absurd hin hg
  | write hin => exact absurd hin hg
  | take hin => exact absurd hin hg
  | drop i hin => exact absurd hin hg

def disableFirst : List (Action ℚ) :=
  [.capture "knee_left" (.requestState .stateEnable), .capture "knee_left" (.requestState .stateDisable),
    .transmit 1, .transmit 0]

def inTurn : List (Action ℚ) :=
  [.capture "knee_left" (.requestState .stateEnable), .transmit 0,
    .setPeriodic "knee_left" (.setVelocity 7), .lock, .next, .next, .next,
    .capture "knee_left" (.requestState .stateDisable), .transmit 0]

def kneeLine : Line ℚ := start CanBus.kneeBus .new

theorem disableFirst_runs : (Runs.exec step kneeLine disableFirst).isSome = true := by decide +kernel
theorem inTurn_runs : (Runs.exec step kneeLine inTurn).isSome = true := by decide +kernel

theorem inOrder_inTurn : ((Runs.exec step kneeLine inTurn).get inTurn_runs).InOrder :=
  inOrder_of_inTurn CanBus.kneeBus .new (Runs.run_of_exec inTurn (Option.some_get _).symm)
    (Runs.along_of_guardsHold (by decide +kernel))

theorem enable_after_disable :
    ¬ ∀ (bus : CanBus ℚ) (socket : SocketCan) (as : List (Action ℚ)) (s : Line ℚ),
      Run step (start bus socket) as s → s.InOrder := by
  intro h
  have horder := h CanBus.kneeBus .new disableFirst _
    (Runs.run_of_exec disableFirst (Option.some_get disableFirst_runs).symm)
  revert horder
  decide +kernel

end Line
end MybipedalDeploy.JointDriver
