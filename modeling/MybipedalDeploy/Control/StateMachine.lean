import Mathlib.Data.List.Nodup
import MybipedalDeploy.Library.Runs

/-!
# The state machine of the control module

A state names the topic that triggers it, the states it may follow and the
controllers it runs. An event moves to the first state of its topic that may
follow the current one. The code regroups the states by topic; the abstract
machine has the configuration alone and knows no map.
-/

namespace MybipedalDeploy.Control

structure State where
  stateName : String
  triggerTopic : String
  preStates : List String
  controllers : List String

structure StateMachine where
  currentStateName : String
  triggerStateMap : String → List State
  controllers : List String

namespace StateMachine

def triggered (states : List State) (topic : String) : List State :=
  states.filter fun s => s.triggerTopic == topic

/-- The first state is the initial one; its controllers are those of the first
state of its topic. An empty configuration is an exception. -/
def init (states : List State) : Option StateMachine :=
  states.head?.bind fun first =>
    (triggered states first.triggerTopic).head?.map fun s =>
      { currentStateName := first.stateName
        triggerStateMap := triggered states
        controllers := s.controllers }

variable (m : StateMachine)

def enter (s : State) : StateMachine :=
  { m with currentStateName := s.stateName, controllers := s.controllers }

def target (topic : String) : Option State :=
  (m.triggerStateMap topic).find? fun s => s.preStates.contains m.currentStateName

/-- `none` is the event that is refused. -/
def onEvent (topic : String) : Option StateMachine := (m.target topic).map m.enter

def event (topic : String) : StateMachine := (m.onEvent topic).getD m

def after (topics : List String) : StateMachine := topics.foldl event m

end StateMachine

namespace State

def MayFollow (s : State) (topic : String) (t : State) : Prop :=
  t.triggerTopic = topic ∧ s.stateName ∈ t.preStates

def Successor (states : List State) (s : State) (topic : String) (t : State) : Prop :=
  s.MayFollow topic t ∧ ∃ earlier later, states = earlier ++ t :: later ∧
    ∀ u ∈ earlier, ¬ s.MayFollow topic u

theorem eq_of_stateName {states : List State} (hnd : (states.map stateName).Nodup) {s t : State}
    (hs : s ∈ states) (ht : t ∈ states) (h : s.stateName = t.stateName) : s = t :=
  List.inj_on_of_nodup_map hnd hs ht h

theorem Successor.mem {states : List State} {s t : State} {topic : String}
    (h : Successor states s topic t) : t ∈ states := by
  obtain ⟨_, earlier, later, rfl, _⟩ := h
  simp

end State

namespace StateMachine

structure At (states : List State) (s : State) (m : StateMachine) : Prop where
  configured : s ∈ states
  name : m.currentStateName = s.stateName
  controllers : m.controllers = s.controllers
  map : m.triggerStateMap = triggered states

theorem target_eq_some_iff {states : List State} {s t : State} {m : StateMachine} {topic : String}
    (h : At states s m) : m.target topic = some t ↔ State.Successor states s topic t := by
  have hfind : m.target topic =
      states.find? fun u => u.triggerTopic == topic && u.preStates.contains s.stateName := by
    simp only [target, h.map, h.name, triggered, List.find?_filter, Bool.decide_and,
      Bool.decide_eq_true]
  have hpass (u : State) : (u.triggerTopic == topic && u.preStates.contains s.stateName) = true ↔
      s.MayFollow topic u := by
    simp [State.MayFollow]
  rw [hfind, List.find?_eq_some_iff_append]
  simp only [hpass, State.Successor, Bool.not_eq_true', ← Bool.not_eq_true]

theorem target_eq_none_iff {states : List State} {s : State} {m : StateMachine} {topic : String}
    (h : At states s m) : m.target topic = none ↔ ∀ t, ¬ State.Successor states s topic t := by
  constructor
  · intro hnone t ht
    rw [(target_eq_some_iff h).mpr ht] at hnone
    cases hnone
  · intro hno
    cases ht : m.target topic with
    | none => rfl
    | some t => exact absurd ((target_eq_some_iff h).mp ht) (hno t)

theorem At.enter {states : List State} {s t : State} {m : StateMachine} (h : At states s m)
    (ht : t ∈ states) : At states t (m.enter t) :=
  ⟨ht, rfl, rfl, h.map⟩

theorem At.event {states : List State} {s : State} {m : StateMachine} (h : At states s m)
    (topic : String) : ∃ t, At states t (m.event topic) := by
  unfold StateMachine.event onEvent
  cases ht : m.target topic with
  | none => exact ⟨s, h⟩
  | some t => exact ⟨t, h.enter ((target_eq_some_iff h).mp ht).mem⟩

theorem At.after {states : List State} {s : State} {m : StateMachine} (h : At states s m)
    (topics : List String) : ∃ t, At states t (m.after topics) := by
  refine Runs.foldl_invariant StateMachine.event (fun m => ∃ t, At states t m) ⟨s, h⟩ ?_ topics
  rintro m topic ⟨t, ht⟩
  exact ht.event topic

theorem init_at (first : State) (rest : List State) :
    ∃ m, init (first :: rest) = some m ∧ At (first :: rest) first m := by
  have hhead : (triggered (first :: rest) first.triggerTopic).head? = some first := by
    simp [triggered]
  refine ⟨⟨first.stateName, triggered (first :: rest), first.controllers⟩, ?_, ?_⟩
  · simp [init, hhead]
  · exact ⟨List.mem_cons_self, rfl, rfl, rfl⟩

/-- The machine is in one configured state, and every event takes it where the
configuration says, or nowhere. -/
def Refines (states : List State) (m : StateMachine) : Prop :=
  ∃ s, At states s m ∧ ∀ topic,
    (∀ t, (∃ m', m.onEvent topic = some m' ∧ At states t m') ↔ State.Successor states s topic t) ∧
    (∀ t, State.Successor states s topic t → At states t (m.event topic)) ∧
    ((∀ t, ¬ State.Successor states s topic t) →
      m.onEvent topic = none ∧ m.event topic = m)

theorem At.refines {states : List State} (hnd : (states.map State.stateName).Nodup) {s : State}
    {m : StateMachine} (h : At states s m) : Refines states m := by
  refine ⟨s, h, fun topic => ⟨fun t => ⟨?_, ?_⟩, ?_, ?_⟩⟩
  · rintro ⟨m', hm', ht⟩
    obtain ⟨u, hu, rfl⟩ := Option.map_eq_some_iff.mp hm'
    have hsucc := (target_eq_some_iff h).mp hu
    have hname : u.stateName = t.stateName := ht.name
    rwa [← State.eq_of_stateName hnd hsucc.mem ht.configured hname]
  · intro hsucc
    have ht := (target_eq_some_iff h).mpr hsucc
    exact ⟨m.enter t, by simp [onEvent, ht], h.enter hsucc.mem⟩
  · intro t hsucc
    have ht := (target_eq_some_iff h).mpr hsucc
    simpa [StateMachine.event, onEvent, ht] using h.enter hsucc.mem
  · intro hno
    have hnone := (target_eq_none_iff h).mpr hno
    simp [StateMachine.event, onEvent, hnone]

theorem transitions_refine (first : State) (rest : List State)
    (hnd : ((first :: rest).map State.stateName).Nodup) :
    ∃ m₀, init (first :: rest) = some m₀ ∧ At (first :: rest) first m₀ ∧
      ∀ topics, Refines (first :: rest) (m₀.after topics) := by
  obtain ⟨m₀, hinit, hat⟩ := init_at first rest
  refine ⟨m₀, hinit, hat, fun topics => ?_⟩
  obtain ⟨s, hs⟩ := hat.after topics
  exact hs.refines hnd

section Walker

def idle : State := ⟨"idle", "/idle_mode", ["zero", "stand"], ["pd_idle"]⟩

def walkerStates : List State :=
  [⟨"zero", "/zero_mode", ["idle", "stand"], ["pd_zero"]⟩,
    ⟨"stand", "/stand_mode", ["zero", "walk"], ["pd_zero", "pd_stand"]⟩,
    ⟨"walk", "/walk_mode", ["stand"], ["pd_zero", "pd_stand", "rl_walk"]⟩]

theorem walker_transitions :
    ∃ m₀, init (idle :: walkerStates) = some m₀ ∧ At (idle :: walkerStates) idle m₀ ∧
      ∀ topics, Refines (idle :: walkerStates) (m₀.after topics) :=
  transitions_refine idle walkerStates (by decide)

end Walker

end StateMachine
end MybipedalDeploy.Control
