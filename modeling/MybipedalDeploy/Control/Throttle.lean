import Mathlib.Algebra.Field.Rat
import MybipedalDeploy.Control.ControlModule
import MybipedalDeploy.Library.Runs

/-!
# The throttler of the triggers

The throttler notes the time of an event before the state machine may refuse it.
An event that could be taken is therefore swallowed within a second of a refused
one, and only then: otherwise the refused events leave no trace.
-/

namespace MybipedalDeploy.Control
open ControlModule
open Runs (Run Along)

abbrev TriggerEvent := ℤ × String

namespace ControlModule
variable {K : Type*} (m : ControlModule K)

def Hears (e : TriggerEvent) : Prop := e.2 ∈ m.triggerTopics ∧ throttler e.1 m.lastTriggerTime = true

def event (e : TriggerEvent) : ControlModule K := (m.onTrigger e.1 e.2).1

def accepted (e : TriggerEvent) : Option (List String) := (m.onTrigger e.1 e.2).2

theorem event_taken {e : TriggerEvent} {t : State} (hears : m.Hears e)
    (ht : m.stateMachine.target e.2 = some t) :
    m.accepted e = some t.controllers ∧
      m.event e = { m with lastTriggerTime := e.1, stateMachine := m.stateMachine.enter t } := by
  have hev : m.stateMachine.onEvent e.2 = some (m.stateMachine.enter t) := by
    simp [StateMachine.onEvent, ht]
  constructor
  · simp only [accepted, onTrigger, if_pos (show _ ∧ _ from hears), hev, StateMachine.enter]
  · simp only [event, onTrigger, if_pos (show _ ∧ _ from hears), hev]

theorem onTrigger_cases (e : TriggerEvent) :
    (∃ t, m.Hears e ∧ m.stateMachine.target e.2 = some t ∧ m.accepted e = some t.controllers ∧
      m.event e = { m with lastTriggerTime := e.1, stateMachine := m.stateMachine.enter t }) ∨
    (m.Hears e ∧ m.stateMachine.target e.2 = none ∧ m.accepted e = none ∧
      m.event e = { m with lastTriggerTime := e.1 }) ∨
    (¬ m.Hears e ∧ m.accepted e = none ∧ m.event e = m) := by
  by_cases hears : m.Hears e
  · cases ht : m.stateMachine.target e.2 with
    | none =>
      have hev : m.stateMachine.onEvent e.2 = none := by simp [StateMachine.onEvent, ht]
      refine .inr (.inl ⟨hears, rfl, ?_, ?_⟩)
      · simp only [accepted, onTrigger, if_pos (show _ ∧ _ from hears), hev]
      · simp only [event, onTrigger, if_pos (show _ ∧ _ from hears), hev]
    | some t =>
      obtain ⟨hacc, hev⟩ := m.event_taken hears ht
      exact .inl ⟨t, hears, rfl, hacc, hev⟩
  · refine .inr (.inr ⟨hears, ?_, ?_⟩)
    · simp only [accepted, onTrigger, if_neg (show ¬ (_ ∧ _) from hears)]
    · simp only [event, onTrigger, if_neg (show ¬ (_ ∧ _) from hears)]

theorem event_congr {m n : ControlModule K} {e : TriggerEvent} (hears : m.Hears e ↔ n.Hears e)
    (hsame : m.stateMachine = n.stateMachine) :
    m.accepted e = n.accepted e ∧ (m.event e).stateMachine = (n.event e).stateMachine := by
  obtain ⟨t, hm, ht, hacc, hev⟩ | ⟨hm, ht, hacc, hev⟩ | ⟨hm, hacc, hev⟩ := m.onTrigger_cases e <;>
    obtain ⟨u, hn, hu, hacc', hev'⟩ | ⟨hn, hu, hacc', hev'⟩ | ⟨hn, hacc', hev'⟩ :=
      n.onTrigger_cases e <;>
    simp_all

theorem event_of_target_none {m : ControlModule K} {e : TriggerEvent}
    (h : m.stateMachine.target e.2 = none) :
    m.accepted e = none ∧ (m.event e).stateMachine = m.stateMachine := by
  obtain ⟨t, _, ht, _, _⟩ | ⟨_, _, hacc, hev⟩ | ⟨_, hacc, hev⟩ := m.onTrigger_cases e
  · rw [h] at ht
    cases ht
  · exact ⟨hacc, by rw [hev]⟩
  · exact ⟨hacc, by rw [hev]⟩

structure Configured (states : List State) : Prop where
  topics : m.triggerTopics = (states.map State.triggerTopic).dedup
  stands : ∃ u, StateMachine.At states u m.stateMachine

variable {m} in
theorem Configured.event {states : List State} (h : m.Configured states) (e : TriggerEvent) :
    (m.event e).Configured states := by
  obtain ⟨t, _, ht, _, hm⟩ | ⟨_, _, _, hm⟩ | ⟨_, _, hm⟩ := m.onTrigger_cases e
  · obtain ⟨u, hu⟩ := h.stands
    rw [hm]
    exact ⟨h.topics, t, hu.enter ((StateMachine.target_eq_some_iff hu).mp ht).mem⟩
  · rw [hm]
    exact ⟨h.topics, h.stands⟩
  · rw [hm]
    exact h

theorem configured_at_start [Field K] {firstEntry : List String → ℕ} {now : ℤ} {conf : Config K}
    {m : ControlModule K} (hm : initializeModule firstEntry now conf = some m) :
    m.Configured conf.robotStates ∧ m.lastTriggerTime = now := by
  obtain ⟨machine, hmachine, hm⟩ := Option.bind_eq_some_iff.mp hm
  obtain ⟨controllers, _, rfl⟩ := Option.map_eq_some_iff.mp hm
  refine ⟨⟨rfl, ?_⟩, rfl⟩
  cases hstates : conf.robotStates with
  | nil =>
    rw [hstates] at hmachine
    cases hmachine
  | cons first rest =>
    obtain ⟨machine', hinit, hat⟩ := StateMachine.init_at first rest
    rw [hstates, hinit] at hmachine
    cases hmachine
    exact ⟨first, hat⟩

theorem Configured.target_isSome_iff {states : List State} {m : ControlModule K}
    (h : m.Configured states) (topic : String) :
    (m.stateMachine.target topic).isSome ↔
      ∃ t ∈ states, t.triggerTopic = topic ∧ m.stateMachine.currentStateName ∈ t.preStates := by
  obtain ⟨u, hu⟩ := h.stands
  simp [StateMachine.target, hu.map, StateMachine.triggered, List.find?_isSome]

end ControlModule

/-- A run of trigger events: when the state last changed, when the state machine last
refused an event since then, and the events it took. -/
structure Timed (K : Type*) where
  module : ControlModule K
  lastChange : ℤ
  lastRefused : Option ℤ
  taken : List TriggerEvent

namespace Timed
variable {K : Type*}

def boot (m : ControlModule K) (now : ℤ) : Timed K := ⟨m, now, none, []⟩

def event (s : Timed K) (e : TriggerEvent) : Timed K :=
  match s.module.accepted e with
  | some _ => ⟨s.module.event e, e.1, none, s.taken ++ [e]⟩
  | none =>
    { s with
      module := s.module.event e
      lastRefused :=
        if e.2 ∈ s.module.triggerTopics ∧ throttler e.1 s.module.lastTriggerTime then some e.1
        else s.lastRefused }

def step (s : Timed K) (e : TriggerEvent) : Option (Timed K) := some (s.event e)

/-- The same module had only the events it took come. -/
def undisturbed (m : ControlModule K) (s : Timed K) : ControlModule K :=
  s.taken.foldl ControlModule.event m

variable (states : List State) (s : Timed K) (e : TriggerEvent)

def Valid : Prop :=
  ∃ t ∈ states, t.triggerTopic = e.2 ∧ s.module.stateMachine.currentStateName ∈ t.preStates

def Timely : Prop := 1000 * 1000000 ≤ e.1 - s.lastChange

def Performs : Prop :=
  ∃ u t, StateMachine.At states u s.module.stateMachine ∧ State.Successor states u e.2 t ∧
    StateMachine.At states t (s.module.event e).stateMachine ∧
    s.module.accepted e = some t.controllers

structure Prompt (m : ControlModule K) : Prop where
  performs : s.Valid states e → s.Timely e → s.Performs states e
  unaffected : s.module.accepted e = (s.undisturbed m).accepted e ∧
    (s.module.event e).stateMachine = ((s.undisturbed m).event e).stateMachine

/-- An event that could be taken does not follow a refused one within a second. -/
def Unhindered : Prop :=
  s.Valid states e → s.Timely e → ∀ r ∈ s.lastRefused, 1000 * 1000000 ≤ e.1 - r

instance : Decidable (s.Valid states e) := inferInstanceAs (Decidable (∃ t ∈ states, _))

instance : Decidable (s.Timely e) := inferInstanceAs (Decidable (_ ≤ _))

instance : Decidable (s.Unhindered states e) := inferInstanceAs (Decidable (_ → _ → _))

structure Inv (m : ControlModule K) : Prop where
  configured : s.module.Configured states
  noted : s.module.lastTriggerTime = s.lastRefused.getD s.lastChange
  later : ∀ r ∈ s.lastRefused, s.lastChange ≤ r
  machine : (s.undisturbed m).stateMachine = s.module.stateMachine
  topics : (s.undisturbed m).triggerTopics = s.module.triggerTopics
  changed : (s.undisturbed m).lastTriggerTime = s.lastChange

variable {states s e} {m : ControlModule K}

theorem Inv.valid_iff (h : s.Inv states m) :
    s.Valid states e ↔ (s.module.stateMachine.target e.2).isSome :=
  (h.configured.target_isSome_iff e.2).symm

theorem Inv.valid_topic (h : s.Inv states m) (hv : s.Valid states e) :
    e.2 ∈ s.module.triggerTopics := by
  obtain ⟨t, ht, htopic, _⟩ := hv
  rw [h.configured.topics]
  exact List.mem_dedup.mpr (List.mem_map.mpr ⟨t, ht, htopic⟩)

theorem Inv.undisturbed_hears_iff (h : s.Inv states m) :
    (s.undisturbed m).Hears e ↔ e.2 ∈ s.module.triggerTopics ∧ s.Timely e := by
  unfold Hears throttler Timely
  rw [h.topics, h.changed, decide_eq_true_iff]

theorem Inv.undisturbed_hears (h : s.Inv states m) (hears : s.module.Hears e) :
    (s.undisturbed m).Hears e := by
  obtain ⟨htopic, hquiet⟩ := hears
  refine h.undisturbed_hears_iff.mpr ⟨htopic, ?_⟩
  have hlong := of_decide_eq_true hquiet
  rw [h.noted] at hlong
  unfold Timely
  cases hr : s.lastRefused with
  | none => simpa [hr] using hlong
  | some r =>
    have hle := h.later r hr
    simp only [hr, Option.getD_some] at hlong
    omega

theorem Inv.hears_iff (h : s.Inv states m) (hv : s.Valid states e) (ht : s.Timely e) :
    s.module.Hears e ↔ ∀ r ∈ s.lastRefused, 1000 * 1000000 ≤ e.1 - r := by
  unfold Hears throttler
  rw [h.noted, decide_eq_true_iff]
  cases hr : s.lastRefused with
  | none => simpa [h.valid_topic hv, Timely] using ht
  | some r => simp [h.valid_topic hv]

theorem inv_boot {now : ℤ} (h : m.Configured states) (hnow : m.lastTriggerTime = now) :
    (boot m now).Inv states m where
  configured := h
  noted := hnow
  later := by simp [boot]
  machine := rfl
  topics := rfl
  changed := hnow

theorem Inv.taken {t : State} (h : s.Inv states m) (hears : s.module.Hears e)
    (ht : s.module.stateMachine.target e.2 = some t) : (s.event e).Inv states m := by
  obtain ⟨hacc, hev⟩ := s.module.event_taken hears ht
  have ht' : (s.undisturbed m).stateMachine.target e.2 = some t := h.machine ▸ ht
  have hundisturbed := ((s.undisturbed m).event_taken (h.undisturbed_hears hears) ht').2
  rw [h.machine] at hundisturbed
  have hs : s.event e = ⟨s.module.event e, e.1, none, s.taken ++ [e]⟩ := by
    simp only [Timed.event, hacc]
  have hlast : (s.event e).undisturbed m = (s.undisturbed m).event e := by
    simp [hs, undisturbed, List.foldl_append]
  have hm : (s.event e).module = s.module.event e := by rw [hs]
  refine ⟨hm ▸ h.configured.event e, ?_, ?_, ?_, ?_, ?_⟩
  · simp [hs, hev]
  · simp [hs]
  · rw [hlast, hundisturbed, hm, hev]
  · rw [hlast, hundisturbed, hm, hev]
    exact h.topics
  · rw [hlast, hundisturbed, hs]

theorem Inv.refused (h : s.Inv states m) (hears : s.module.Hears e)
    (hacc : s.module.accepted e = none)
    (hev : s.module.event e = { s.module with lastTriggerTime := e.1 }) :
    (s.event e).Inv states m := by
  have hs : s.event e = { s with module := s.module.event e, lastRefused := some e.1 } := by
    simp only [Timed.event, hacc, if_pos (show _ ∧ _ from hears)]
  have hchange : s.lastChange ≤ e.1 := by
    have htimely : s.Timely e := (h.undisturbed_hears_iff.mp (h.undisturbed_hears hears)).2
    unfold Timely at htimely
    omega
  refine ⟨?_, ?_, ?_, ?_, ?_, ?_⟩
  · rw [hs]
    exact h.configured.event e
  · simp [hs, hev]
  · simpa [hs] using hchange
  · rw [hs, hev]
    exact h.machine
  · rw [hs, hev]
    exact h.topics
  · rw [hs]
    exact h.changed

theorem Inv.event (h : s.Inv states m) (e : TriggerEvent) : (s.event e).Inv states m := by
  obtain ⟨t, hears, ht, _, _⟩ | ⟨hears, _, hacc, hev⟩ | ⟨hears, hacc, hev⟩ :=
    s.module.onTrigger_cases e
  · exact h.taken hears ht
  · exact h.refused hears hacc hev
  · have hs : s.event e = s := by
      simp only [Timed.event, hacc, hev, if_neg (show ¬ (_ ∧ _) from hears)]
    exact hs.symm ▸ h

theorem Inv.performs (h : s.Inv states m) (hv : s.Valid states e) (hears : s.module.Hears e) :
    s.Performs states e := by
  obtain ⟨u, hu⟩ := h.configured.stands
  obtain ⟨t, ht⟩ := Option.isSome_iff_exists.mp (h.valid_iff.mp hv)
  obtain ⟨hacc, hev⟩ := s.module.event_taken hears ht
  have hsucc := (StateMachine.target_eq_some_iff hu).mp ht
  refine ⟨u, t, hu, hsucc, ?_, hacc⟩
  rw [hev]
  exact hu.enter hsucc.mem

theorem Inv.prompt_iff_unhindered (h : s.Inv states m) : s.Prompt states e m ↔ s.Unhindered states e := by
  constructor
  · intro hp hv ht
    obtain ⟨_, _, _, _, _, hacc⟩ := hp.performs hv ht
    obtain ⟨_, hears, _⟩ | ⟨_, _, hnone, _⟩ | ⟨_, hnone, _⟩ := s.module.onTrigger_cases e
    · exact (h.hears_iff hv ht).mp hears
    · rw [hnone] at hacc
      cases hacc
    · rw [hnone] at hacc
      cases hacc
  · intro hu
    refine ⟨fun hv ht => h.performs hv ((h.hears_iff hv ht).mpr (hu hv ht)), ?_⟩
    by_cases hv : s.Valid states e
    · -- the throttler hears the event exactly if it had heard it undisturbed
      refine ControlModule.event_congr ⟨h.undisturbed_hears, fun hears => ?_⟩ h.machine.symm
      have ht := (h.undisturbed_hears_iff.mp hears).2
      exact (h.hears_iff hv ht).mpr (hu hv ht)
    · have hnone : s.module.stateMachine.target e.2 = none := by
        rw [h.valid_iff] at hv
        simpa using hv
      have hreal := ControlModule.event_of_target_none hnone
      rw [← h.machine] at hnone
      have hundisturbed := ControlModule.event_of_target_none hnone
      rw [hreal.1, hreal.2, hundisturbed.1, hundisturbed.2]
      exact ⟨rfl, h.machine.symm⟩

theorem inv_of_run [Field K] {firstEntry : List String → ℕ} {now : ℤ} {conf : Config K}
    (hm : ControlModule.initializeModule firstEntry now conf = some m) {es : List TriggerEvent}
    (h : Run step (boot m now) es s) : s.Inv conf.robotStates m := by
  obtain ⟨hconf, hnow⟩ := ControlModule.configured_at_start hm
  refine h.invariant (fun s => s.Inv conf.robotStates m) (inv_boot hconf hnow) fun s e t hs ht => ?_
  cases ht
  exact hs.event e

section Presses

def twoModes : Config ℚ :=
  let pd : ControllerNode ℚ := ⟨["knee"], [0], [80], [2], none, none⟩
  { robotStates := [⟨"idle", "/idle_mode", ["zero"], ["pd_idle"]⟩,
      ⟨"zero", "/zero_mode", ["idle"], ["pd_zero"]⟩]
    controllers := [("pd_idle", pd), ("pd_zero", pd)]
    jointList := ["knee"]
    jointOffset := [] }

theorem twoModes_initializes :
    (ControlModule.initializeModule (fun _ => 0) 0 twoModes).isSome = true := by
  decide +kernel

def pressed : ControlModule ℚ :=
  (ControlModule.initializeModule (fun _ => 0) 0 twoModes).get twoModes_initializes

end Presses

end Timed
end MybipedalDeploy.Control
