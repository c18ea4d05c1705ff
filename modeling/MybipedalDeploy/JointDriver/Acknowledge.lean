import MybipedalDeploy.JointDriver.Feedback
import MybipedalDeploy.JointDriver.SocketCan

/-!
# When a request counts as acknowledged

The polling loop reads the decoded feedback, which is neither cleared nor
stamped when the request is sent. A power state that is neither cached nor in
the receive slot can only come from new feedback; one that is already there at
the first round is taken for an answer.
-/

namespace MybipedalDeploy.JointDriver.Port
open Threads (Thread Outcome)

section Refusal
variable {K : Type*} [Field K]

theorem powerState_eq (p : Port K) (id : CanId) :
    p.powerState id = if (p.bus.recvSlot id).isFeedback then (p.bus.recvSlot id).feedbackPower
      else (p.bus.actuator id).val.powerState := by
  rw [powerState, CanBus.get_readings]
  exact RobstrideMotor.parseFeedback_powerState _ _

structure Refuses (want : ActuatorState) (id : CanId) (p : Port K) : Prop where
  attached : id ∈ p.bus.registry.actuatorById
  cached : (p.bus.actuator id).val.powerState ≠ want
  shown : p.powerState id ≠ want

def Confirms (want : ActuatorState) (id : CanId) (f : CanFrame) : Prop :=
  f.isFeedback = true ∧ f.keyExtractor = id.key ∧ f.feedbackPower = want

variable {want : ActuatorState} {id : CanId} {p : Port K}

theorem Refuses.of_same {q : Port K} (h : p.Refuses want id)
    (hreg : q.bus.registry = p.bus.registry) (hslot : q.bus.recvSlot id = p.bus.recvSlot id)
    (hcache : (q.bus.actuator id).val.powerState = (p.bus.actuator id).val.powerState) :
    q.Refuses want id := by
  refine ⟨hreg ▸ h.attached, hcache ▸ h.cached, ?_⟩
  rw [powerState_eq, hslot, hcache, ← powerState_eq]
  exact h.shown

theorem refuses_parse (hid : id ∈ p.bus.registry.actuatorById) (h : p.powerState id ≠ want) :
    (p.parse id).Refuses want id := by
  have hcache : ((p.parse id).bus.actuator id).val.powerState = p.powerState id := by
    rw [powerState_eq, Port.parse, CanBus.actuator_parse, if_pos rfl,
      RobstrideMotor.parseFeedback_powerState]
  refine ⟨hid, hcache ▸ h, ?_⟩
  rw [powerState_eq, hcache, powerState_eq]
  rw [powerState_eq] at h
  simp only [Port.parse, CanBus.recvSlot_parse]
  split_ifs with hf <;> simpa [hf] using h

theorem Refuses.parse (id' : CanId) (h : p.Refuses want id) : (p.parse id').Refuses want id := by
  rcases eq_or_ne id id' with rfl | hne
  · exact refuses_parse h.attached h.shown
  · refine h.of_same rfl rfl ?_
    rw [Port.parse, CanBus.actuator_parse, if_neg hne]

theorem Refuses.capture (id' : CanId) (c : OneShot) (h : p.Refuses want id) :
    (p.capture id' c).Refuses want id := by
  refine h.of_same rfl rfl ?_
  obtain ⟨mode, hmode⟩ := p.bus.actuator_sendOnce id' id c
  have hpower := congrArg RobstrideMotor.powerState hmode
  exact hpower

theorem Refuses.transmit (origin : Origin) (f : CanFrame) (h : p.Refuses want id) :
    (p.transmit origin f).Refuses want id :=
  h.of_same (by simp) (by simp) (by simp)

theorem Refuses.transmitAll (h : p.Refuses want id) : p.transmitAll.Refuses want id := by
  unfold Port.transmitAll
  generalize p.bus.transmitAll = fs
  induction fs generalizing p with
  | nil => exact h
  | cons f fs ih => exact ih (h.transmit .cyclic f)

theorem Refuses.receive {f : CanFrame} (hf : ¬ Confirms want id f) (h : p.Refuses want id) :
    (p.receive f).Refuses want id := by
  have hslot := p.bus.recvSlot_receive f h.attached
  by_cases hkey : id.key = f.keyExtractor
  · -- The frame lands in the slot of `id`, so it is what the next round decodes.
    rw [if_pos hkey] at hslot
    refine ⟨?_, ?_, ?_⟩
    · simpa [Port.receive] using h.attached
    · simpa [Port.receive] using h.cached
    · rw [powerState_eq]
      simp only [Port.receive, hslot, CanBus.receive_actuator]
      split_ifs with hfb
      · exact fun hpower => hf ⟨hfb, hkey.symm, hpower⟩
      · exact h.cached
  · rw [if_neg hkey] at hslot
    exact h.of_same (by simp [Port.receive]) hslot (by simp [Port.receive])

end Refusal

section Confirmation
variable {K : Type*} {want : ActuatorState} {id : CanId}

def Confirmed (events : ℕ → List (Event K)) (want : ActuatorState) (id : CanId) (a b : ℕ) : Prop :=
  ∃ k, a ≤ k ∧ k < b ∧ ∃ f, .op (.receive f) ∈ events k ∧ Confirms want id f

theorem Confirmed.mono {events : ℕ → List (Event K)} {a b a' b' : ℕ}
    (h : Confirmed events want id a b) (ha : a' ≤ a) (hb : b ≤ b') :
    Confirmed events want id a' b' := by
  obtain ⟨k, hak, hkb, hf⟩ := h
  exact ⟨k, by omega, by omega, hf⟩

end Confirmation

section Others
variable {K : Type*} [Field K] [LinearOrder K] [FloorSemiring K]
variable {want : ActuatorState} {id : CanId}

theorem Refuses.apply {p : Port K} (h : p.Refuses want id) {e : Event K}
    (he : ∀ f, e = .op (.receive f) → ¬ Confirms want id f) : (p.apply e).Refuses want id := by
  rcases e with (⟨name, c⟩ | ⟨name, c⟩ | _ | f | name) | _
  · simp only [Port.apply]
    split
    · exact (h.capture _ c).transmit _ _
    · exact h
  · simp only [Port.apply, CanBus.step]
    split <;> exact h.of_same rfl rfl rfl
  · exact h.transmitAll
  · exact h.receive (he f rfl)
  · simp only [Port.apply, CanBus.step]
    split
    · exact h.parse _
    · exact h.of_same rfl rfl rfl
  · exact h.of_same rfl rfl rfl

theorem Refuses.others {events : ℕ → List (Event K)} {n : ℕ}
    (hn : ¬ Confirmed events want id n (n + 1)) {p : Port K} (h : p.Refuses want id) :
    (Port.others events n p).Refuses want id := by
  have hnone : ∀ e ∈ events n, ∀ f, e = .op (.receive f) → ¬ Confirms want id f := by
    rintro e he f rfl hf
    exact hn ⟨n, le_refl _, by omega, f, he, hf⟩
  unfold Port.others
  generalize events n = es at hnone
  induction es generalizing p with
  | nil => exact h
  | cons e es ih =>
    exact ih (h.apply (hnone e (by simp))) fun e' he' => hnone e' (by simp [he'])

theorem run_poll_confirmed (events : ℕ → List (Event K)) (m : ℕ) {last : ActuatorState}
    (hlast : last ≠ want) (n : ℕ) {p : Port K} (hp : p.Refuses want id) :
    let r := (Thread.poll (fun p : Port K => p.parse id) (fun p => p.powerState id) want m
      last).run (others events) n p
    r.value = want → Confirmed events want id n r.tick := by
  induction m generalizing last n p with
  | zero => exact fun h => absurd h hlast
  | succ m ih =>
    intro r hr
    by_cases hn : Confirmed events want id n (n + 1)
    · exact hn.mono (le_refl n) (Thread.le_run_tick _ _ (n + 1) _)
    · have hq := hp.others hn
      simp only [r, Thread.poll, Thread.run, if_neg hq.shown] at hr ⊢
      exact (ih hq.shown (n + 1) (hq.parse id) hr).mono (Nat.le_succ n) (le_refl _)

variable (events : ℕ → List (Event K))

def requested (want : ActuatorState) (id : CanId) (n : ℕ) (p : Port K) : Port K :=
  let q := others events n p
  (others events (n + 1) (q.capture id (.requestState want))).transmit .once
    (q.bus.sendOnce id (.requestState want)).2

def atFirstPoll (want : ActuatorState) (id : CanId) (n : ℕ) (p : Port K) : Port K :=
  others events (n + 2) (requested events want id n p)

@[simp] theorem others_registry (n : ℕ) (p : Port K) :
    (others events n p).bus.registry = p.bus.registry := by
  unfold others
  generalize events n = es
  induction es generalizing p with
  | nil => rfl
  | cons e es ih => exact (ih (p.apply e)).trans (p.apply_registry e)

theorem atFirstPoll_registry (n : ℕ) (p : Port K) :
    (atFirstPoll events want id n p).bus.registry = p.bus.registry := by
  simp [atFirstPoll, requested]

theorem run_requestPower_first (other : ActuatorState) {name : String} {p : Port K}
    (hname : p.bus.registry.getActuator name = some id) (n : ℕ) :
    (requestPower want other name).run (others events) n p =
      let q := atFirstPoll events want id n p
      let r := (Thread.poll (fun p : Port K => p.parse id) (fun p => p.powerState id) want 99
        (q.powerState id)).run (others events) (n + 3) (q.parse id)
      if q.powerState id = want then ⟨true, n + 3, q.parse id⟩
      else ⟨decide (r.value = want), r.tick, r.state⟩ := by
  rw [run_requestPower _ _ _ hname]
  change (let r := (Thread.poll (fun p : Port K => p.parse id) (fun p => p.powerState id) want
    (99 + 1) other).run (others events) (n + 2) (requested events want id n p)
    (⟨decide (r.value = want), r.tick, r.state⟩ : Outcome (Port K) Bool)) = _
  rw [Thread.run_poll_succ]
  by_cases hfirst : (atFirstPoll events want id n p).powerState id = want
  · simp only [hfirst, if_true]
    rw [if_pos (by exact hfirst)]
    simp
    rfl
  · simp only [hfirst, if_false]
    rw [if_neg (by exact hfirst)]
    rfl

/-- A successful outcome of a call rests on feedback received after its capture. -/
def FreshAck (want : ActuatorState) (name : String) (n : ℕ) (p : Port K)
    (r : Outcome (Port K) Bool) : Prop :=
  r.value = true → ∃ id, p.bus.registry.getActuator name = some id ∧
    Confirmed events want id (n + 1) r.tick

def StaleAck (want : ActuatorState) (name : String) (n : ℕ) (p : Port K) : Prop :=
  ∃ id, p.bus.registry.getActuator name = some id ∧
    (atFirstPoll events want id n p).powerState id = want ∧
    ¬ Confirmed events want id (n + 1) (n + 3)

theorem requestPower_fresh_iff (other : ActuatorState) (name : String) (n : ℕ) (p : Port K) :
    FreshAck events want name n p ((requestPower want other name).run (others events) n p) ↔
      ¬ StaleAck events want name n p := by
  unfold FreshAck StaleAck
  cases hname : p.bus.registry.getActuator name with
  | none => simp [requestPower, Thread.run, hname]
  | some id =>
    rw [run_requestPower_first events other hname n]
    simp only [Option.some.injEq, exists_eq_left']
    by_cases hfirst : (atFirstPoll events want id n p).powerState id = want
    · simp [hfirst]
    · simp only [hfirst, if_false, false_and, not_false_eq_true, iff_true, decide_eq_true_eq]
      intro hr
      have hattached : id ∈ (atFirstPoll events want id n p).bus.registry.actuatorById := by
        rw [atFirstPoll_registry, Registry.mem_actuatorById]
        exact ⟨name, hname⟩
      have hparse := refuses_parse hattached hfirst
      exact (run_poll_confirmed events 99 hfirst (n + 3) hparse hr).mono (by omega) (le_refl _)

/-- Both requests report success on fresh feedback exactly where the first round
does not find the wanted state already. -/
theorem acknowledgement_fresh_iff (name : String) (n : ℕ) (p : Port K) :
    (FreshAck events .stateEnable name n p ((enableActuator name).run (others events) n p) ↔
      ¬ StaleAck events .stateEnable name n p) ∧
    (FreshAck events .stateDisable name n p ((disableActuator name).run (others events) n p) ↔
      ¬ StaleAck events .stateDisable name n p) :=
  ⟨requestPower_fresh_iff events .stateDisable name n p,
    requestPower_fresh_iff events .stateEnable name n p⟩

def kneePort : Port ℚ := ⟨CanBus.kneeBus, .new⟩

def runningPort : Port ℚ := kneePort.receive RobstrideMotor.runningFeedback

def noEvents : ℕ → List (Event ℚ) := fun _ => []

/-- With no frame at all, a first stop and an enable of a running motor both succeed. -/
theorem acknowledgement_not_fresh :
    ¬ FreshAck noEvents .stateDisable "knee_left" 0 kneePort
      ((disableActuator "knee_left").run (others noEvents) 0 kneePort) ∧
    ¬ FreshAck noEvents .stateEnable "knee_left" 0 runningPort
      ((enableActuator "knee_left").run (others noEvents) 0 runningPort) := by
  have hnone : ∀ want id a b, ¬ Confirmed noEvents want id a b := by
    rintro want id a b ⟨k, -, -, f, hf, -⟩
    simp [noEvents] at hf
  constructor <;> intro h
  · obtain ⟨id, -, hconf⟩ := h (by decide)
    exact hnone _ _ _ _ hconf
  · obtain ⟨id, -, hconf⟩ := h (by decide)
    exact hnone _ _ _ _ hconf

end Others
end MybipedalDeploy.JointDriver.Port
