import MybipedalDeploy.JointDriver.PublishLoop

/-!
# Readings taken one component at a time

What a message says when its components were read after so many frames of the actuator,
and what is known of an actuator in the middle of its three calls.
-/

namespace MybipedalDeploy.JointDriver
open LastWrite (lastHit)
open Msg (JointState)

/-- How many frames of the actuator each component was read after. -/
structure Ages where
  effort : ℕ
  velocity : ℕ
  position : ℕ

def Ages.Ordered (a : Ages) : Prop := a.effort ≤ a.velocity ∧ a.velocity ≤ a.position

namespace XyberController
variable {K : Type*} (w : XyberController K)

theorem framesOf_append (received more : List (String × CanFrame)) (name : String) :
    (w.framesOf received name).length ≤ (w.framesOf (received ++ more) name).length := by
  unfold framesOf
  cases w.place name with
  | none => exact le_rfl
  | some at_ =>
    simp only [Option.elim_some, heard_append, List.length_append]
    exact Nat.le_add_right _ _

theorem framesOf_take (received : List (String × CanFrame)) {m n : ℕ} (h : m ≤ n) (name : String) :
    (w.framesOf (received.take m) name).length ≤ (w.framesOf (received.take n) name).length := by
  have hsplit : received.take n = received.take m ++ (received.take n).drop m := by
    conv_lhs => rw [← List.take_append_drop m (received.take n)]
    rw [List.take_take, min_eq_left h]
  rw [hsplit]
  exact w.framesOf_append _ _ name

variable [Field K]

def sampled (received : List (String × CanFrame)) (name : String) (a : Ages) : Reading K where
  effort := (w.stated received name a.effort).effort
  velocity := (w.stated received name a.velocity).velocity
  position := (w.stated received name a.position).position

variable {w}

theorem stated_append {received : List (String × CanFrame)} {name : String} {n : ℕ}
    (h : n ≤ (w.framesOf received name).length) (more : List (String × CanFrame)) :
    w.stated (received ++ more) name n = w.stated received name n := by
  unfold framesOf at h
  unfold stated
  cases hplace : w.place name with
  | none => rfl
  | some at_ =>
    simp only [hplace, Option.elim_some] at h
    refine congrArg Readings.reading ?_
    rw [heard_append, RobstrideMotor.said_append _ h]

theorem sampled_append {received : List (String × CanFrame)} {name : String} {a : Ages}
    (ha : a.Ordered) (h : a.position ≤ (w.framesOf received name).length)
    (more : List (String × CanFrame)) :
    w.sampled (received ++ more) name a = w.sampled received name a := by
  obtain ⟨heffort, hvelocity⟩ := ha
  unfold sampled
  rw [stated_append h, stated_append (hvelocity.trans h),
    stated_append (heffort.trans (hvelocity.trans h))]

theorem Dated.ageOf_le {w₀ : XyberController K} {received : List (String × CanFrame)}
    {age : BusRef → CanId → ℕ} (h : Dated w₀ received w age) (name : String) :
    w₀.ageOf age name ≤ (w₀.framesOf received name).length := by
  unfold ageOf framesOf
  cases hplace : w₀.place name with
  | none => exact le_rfl
  | some at_ =>
    unfold place at hplace
    obtain ⟨ref, -, hat⟩ := Option.bind_eq_some_iff.mp hplace
    obtain ⟨id, hid, rfl⟩ := Option.map_eq_some_iff.mp hat
    obtain ⟨b₀, hb₀, -⟩ := Option.bind_eq_some_iff.mp hid
    obtain ⟨b, hb, -⟩ := h.wiring.bus hb₀
    exact (h.dated ref b₀ b hb₀ hb id).le

end XyberController

namespace JointDriverModule
variable {K : Type*}

theorem only_bindTransmission (node : TransmissionConfig K) (s : JointDriverModule K) :
    ∃ ts, (bindTransmission node s).2 = { s with transmission := ts } := by
  unfold bindTransmission
  split
  · split_ifs with htype
    · split
      · split_ifs with hbound
        · exact ⟨_, rfl⟩
        · exact ⟨s.transmission, rfl⟩
      · exact ⟨s.transmission, rfl⟩
    · exact ⟨s.transmission, rfl⟩
  · exact ⟨s.transmission, rfl⟩

theorem only_bindTransmissions (nodes : List (TransmissionConfig K)) (s : JointDriverModule K) :
    ∃ ts, (bindTransmissions nodes s).2 = { s with transmission := ts } := by
  induction nodes generalizing s with
  | nil => exact ⟨s.transmission, rfl⟩
  | cons node nodes ih =>
    obtain ⟨ts, hnode⟩ := only_bindTransmission node s
    simp only [bindTransmissions]
    generalize bindTransmission node s = r at hnode
    obtain ⟨error, s'⟩ := r
    simp only at hnode
    cases error with
    | none =>
      obtain ⟨ts', hrest⟩ := ih s'
      exact ⟨ts', by rw [hrest, hnode]⟩
    | some e => exact ⟨ts, hnode⟩

variable [Field K]

/-- The transmission of a joint that comes last, if it has one; else the joint is at rest. -/
def jointReading (s : JointDriverModule K) (reading : String → Reading K) (joint : String) :
    Reading K :=
  (lastHit (fun t => if t.joint = joint then
    some (t.transformActuatorToJoint (reading t.actuator)) else none) s.transmission).getD ⟨0, 0, 0⟩

def telling (s : JointDriverModule K) (actuatorDebug : Bool) (reading : String → Reading K) :
    Published K where
  jointStates := jointState s.jointNameList (s.jointReading reading)
  actuatorStates := if actuatorDebug then some (jointState s.actuatorNameList reading) else none

section Ready

/-- What the start relies on, as `InitTransmission` leaves it. -/
structure Ready (s : JointDriverModule K) : Prop extends s.Bound where
  rest : ∀ joint, DataSpace.readingAt s.jointDataSpace joint = ⟨0, 0, 0⟩
  jointNames : ∀ name ∈ s.jointNameList, name ∈ DataSpace.names s.jointDataSpace
  actuatorNames : ∀ name ∈ s.actuatorNameList, name ∈ DataSpace.names s.actuatorDataSpace

theorem mem_createData (names : List String) (data : List (String × DataSpace K)) (name : String)
    (h : name ∈ names ∨ name ∈ DataSpace.names data) :
    name ∈ DataSpace.names (createData names data) := by
  unfold createData
  induction names generalizing data with
  | nil => exact h.resolve_left List.not_mem_nil
  | cons first names ih =>
    refine ih _ ?_
    rw [List.mem_cons, or_assoc] at h
    rcases h with rfl | h | h
    · refine .inr ?_
      dsimp only
      split_ifs with hmem
      · exact hmem
      · simp [DataSpace.names]
    · exact .inl h
    · refine .inr ?_
      dsimp only
      split_ifs
      · exact h
      · rw [DataSpace.names, List.map_append]
        exact List.mem_append_left _ h

theorem readingAt_of_zero {data : List (String × DataSpace K)} (hzero : ∀ e ∈ data, e.2 = .zero)
    (name : String) : DataSpace.readingAt data name = ⟨0, 0, 0⟩ := by
  unfold DataSpace.readingAt
  cases hd : DataSpace.find data name with
  | none => rfl
  | some d =>
    have hd := hzero _ (AssociationList.mem_of_lookup hd)
    simp only at hd
    rw [hd]
    rfl

theorem tables_initTransmission (w : XyberController K) (joints actuators : List String)
    (nodes : List (TransmissionConfig K)) :
    ∃ ts, (initTransmission nodes (unbound w joints actuators)).2 =
      ⟨w, false, joints, actuators, createData joints [], createData actuators [], ts⟩ :=
  only_bindTransmissions nodes _

theorem ready_initTransmission (w : XyberController K) (joints actuators : List String)
    (nodes : List (TransmissionConfig K)) :
    (initTransmission nodes (unbound w joints actuators)).2.Ready := by
  have hbound := bound_initTransmission w joints actuators nodes
  obtain ⟨ts, hts⟩ := tables_initTransmission w joints actuators nodes
  rw [hts] at hbound ⊢
  exact ⟨hbound, readingAt_of_zero (createData_zero joints).1,
    fun name hname => mem_createData joints [] name (.inl hname),
    fun name hname => mem_createData actuators [] name (.inl hname)⟩

end Ready

theorem readingAt_transformActuatorToJoint {s : JointDriverModule K} {joint : String}
    (hbound : ∀ t ∈ s.transmission, t.actuator ∈ DataSpace.names s.actuatorDataSpace)
    (hjoint : joint ∈ DataSpace.names s.jointDataSpace)
    (hrest : (∀ t ∈ s.transmission, t.joint ≠ joint) →
      DataSpace.readingAt s.jointDataSpace joint = ⟨0, 0, 0⟩) :
    DataSpace.readingAt s.transformActuatorToJoint.jointDataSpace joint =
      s.jointReading (DataSpace.readingAt s.actuatorDataSpace) joint := by
  have hfold := LastWrite.view_foldl _ pullActuator
    (fun s => DataSpace.readingAt s.jointDataSpace joint) s.OnlyReads
    (fun _ u h => onlyReads_pullActuator h u)
    (fun _ u h => readingAt_pullActuator h hjoint u) s.transmission ⟨⟨rfl, rfl⟩, fun _ => rfl⟩
  have hhit : ∀ t ∈ s.transmission, fromActuator s.actuatorDataSpace joint t =
      if t.joint = joint then
        some (t.transformActuatorToJoint (DataSpace.readingAt s.actuatorDataSpace t.actuator))
      else none := by
    intro t ht
    obtain ⟨d, hd⟩ := DataSpace.find_of_mem_names (hbound t ht)
    simp [fromActuator, DataSpace.readingAt, hd]
  rw [LastWrite.lastHit_congr hhit] at hfold
  refine hfold.trans ?_
  unfold jointReading
  cases hlast : lastHit (fun t : SimpleTransmission K => if t.joint = joint then
      some (t.transformActuatorToJoint (DataSpace.readingAt s.actuatorDataSpace t.actuator))
      else none) s.transmission with
  | some r => rfl
  | none =>
    refine hrest fun t ht heq => ?_
    simpa [heq] using (LastWrite.lastHit_eq_none_iff _).mp hlast t ht

theorem jointReading_congr {s : JointDriverModule K} {r r' : String → Reading K}
    (h : ∀ t ∈ s.transmission, r t.actuator = r' t.actuator) (joint : String) :
    s.jointReading r joint = s.jointReading r' joint := by
  unfold jointReading
  rw [LastWrite.lastHit_congr fun t ht => by rw [h t ht]]

theorem jointReading_rest {s : JointDriverModule K} {joint : String}
    (h : ∀ t ∈ s.transmission, t.joint ≠ joint) (r : String → Reading K) :
    s.jointReading r joint = ⟨0, 0, 0⟩ := by
  unfold jointReading
  rw [(LastWrite.lastHit_eq_none_iff _).mpr fun t ht => if_neg (h t ht)]
  rfl

end JointDriverModule

theorem jointState_congr {K : Type*} {names : List String} {r r' : String → Reading K}
    (h : ∀ name ∈ names, r name = r' name) : jointState names r = jointState names r' := by
  simp only [jointState, JointState.mk.injEq, true_and]
  exact ⟨List.map_congr_left fun name hname => by rw [h name hname],
    List.map_congr_left fun name hname => by rw [h name hname],
    List.map_congr_left fun name hname => by rw [h name hname]⟩

def Getter.stage : Getter → ℕ
  | .effort => 0
  | .velocity => 1
  | .position => 2

namespace Publisher

def stage (p : Publisher) (name : String) : ℕ :=
  match p with
  | .test | .finished => 0
  | .next todo => if name ∈ todo then 0 else 3
  | .get g first todo => if name = first then g.stage else if name ∈ todo then 0 else 3
  | .transform | .publish => 3

def Listed (names : List String) : Publisher → Prop
  | .next todo => todo.Nodup ∧ ∀ name ∈ todo, name ∈ names
  | .get _ first todo => (first :: todo).Nodup ∧ ∀ name ∈ first :: todo, name ∈ names
  | _ => True

theorem stage_andThen (g : Getter) {name : String} {todo : List String} (h : name ∉ todo) :
    (g.andThen name todo).stage name = g.stage + 1 := by
  cases g <;> simp [Getter.andThen, stage, Getter.stage, h]

theorem stage_andThen_ne (g : Getter) {name other : String} (hne : other ≠ name)
    (todo : List String) : (g.andThen name todo).stage other = (get g name todo).stage other := by
  cases g <;> simp [Getter.andThen, stage, hne]

theorem listed_andThen {names : List String} {g : Getter} {name : String} {todo : List String}
    (h : (get g name todo).Listed names) : (g.andThen name todo).Listed names := by
  cases g with
  | position => exact ⟨(List.nodup_cons.mp h.1).2, fun n hn => h.2 n (List.mem_cons_of_mem name hn)⟩
  | _ => exact h

end Publisher

structure Partly {K : Type*} [Field K] (w : XyberController K) (received : List (String × CanFrame))
    (name : String) (before since now stage : ℕ) (r : Reading K) (a : Ages) : Prop where
  effort : 1 ≤ stage → r.effort = (w.stated received name a.effort).effort ∧ before ≤ a.effort ∧
    a.effort ≤ now ∧ (XyberController.OnlyFeedback received → since ≤ a.effort)
  velocity : 2 ≤ stage → r.velocity = (w.stated received name a.velocity).velocity ∧
    a.effort ≤ a.velocity ∧ a.velocity ≤ now
  position : 3 ≤ stage → r.position = (w.stated received name a.position).position ∧
    a.velocity ≤ a.position ∧ a.position ≤ now

namespace Partly
variable {K : Type*} [Field K] {w : XyberController K} {received : List (String × CanFrame)}
  {name : String} {before since now stage : ℕ} {r : Reading K} {a : Ages}

theorem none (r : Reading K) (a : Ages) : Partly w received name before since now 0 r a :=
  ⟨by simp, by simp, by simp⟩

theorem less (h : Partly w received name before since now stage r a) {stage' : ℕ}
    (hle : stage' ≤ stage) : Partly w received name before since now stage' r a :=
  ⟨fun hs => h.effort (hs.trans hle), fun hs => h.velocity (hs.trans hle),
    fun hs => h.position (hs.trans hle)⟩

theorem later (h : Partly w received name before since now stage r a)
    (hframes : now ≤ (w.framesOf received name).length) (more : List (String × CanFrame)) {now' : ℕ}
    (hnow : now ≤ now') : Partly w (received ++ more) name before since now' stage r a := by
  have hstated {n : ℕ} (hn : n ≤ now) := XyberController.stated_append (hn.trans hframes) more
  refine ⟨fun hs => ?_, fun hs => ?_, fun hs => ?_⟩
  · obtain ⟨heq, hbefore, hle, hsince⟩ := h.effort hs
    rw [hstated hle]
    exact ⟨heq, hbefore, hle.trans hnow, fun hq => hsince fun e he => hq e (List.mem_append_left _ he)⟩
  · obtain ⟨heq, horder, hle⟩ := h.velocity hs
    rw [hstated hle]
    exact ⟨heq, horder, hle.trans hnow⟩
  · obtain ⟨heq, horder, hle⟩ := h.position hs
    rw [hstated hle]
    exact ⟨heq, horder, hle.trans hnow⟩

theorem call {g : Getter} (h : Partly w received name before since now g.stage r a)
    (hbefore : before ≤ now) (hsince : XyberController.OnlyFeedback received → since ≤ now) :
    ∃ a', Partly w received name before since now (g.stage + 1)
      (g.put (w.stated received name now) r) a' := by
  cases g with
  | effort =>
    exact ⟨{ a with effort := now }, fun _ => ⟨rfl, hbefore, le_rfl, hsince⟩,
      fun hs => by simp [Getter.stage] at hs, fun hs => by simp [Getter.stage] at hs⟩
  | velocity =>
    exact ⟨{ a with velocity := now }, fun _ => h.effort le_rfl,
      fun _ => ⟨rfl, (h.effort le_rfl).2.2.1, le_rfl⟩, fun hs => by simp [Getter.stage] at hs⟩
  | position =>
    exact ⟨{ a with position := now }, fun _ => h.effort (by simp [Getter.stage]),
      fun _ => h.velocity le_rfl, fun _ => ⟨rfl, (h.velocity le_rfl).2.2, le_rfl⟩⟩

theorem sampled (h : Partly w received name before since now 3 r a) :
    r = w.sampled received name a := by
  obtain ⟨effort, velocity, position⟩ := r
  simp only [XyberController.sampled, Reading.mk.injEq]
  exact ⟨(h.effort (by simp)).1, (h.velocity (by simp)).1, (h.position (by simp)).1⟩

theorem ordered (h : Partly w received name before since now 3 r a) : a.Ordered :=
  ⟨(h.velocity (by simp)).2.1, (h.position (by simp)).2.1⟩

end Partly
end MybipedalDeploy.JointDriver
