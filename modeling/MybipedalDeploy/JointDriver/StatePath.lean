import MybipedalDeploy.JointDriver.Sampling
import MybipedalDeploy.JointDriver.StopAll

/-!
# The path of a reading

Every message of the publisher says, joint by joint, what frames of the actuators said in
the direction of the transmission. The three components may come from different frames,
but no component is older than the one before it, nor than the message before.
-/

namespace MybipedalDeploy.JointDriver
open JointDriverModule (Ready SameNames SameReadings initTransmission unbound)
open Runs (Run)
open XyberController (OnlyFeedback)

namespace PublishSystem
variable {K : Type*} [Field K]

structure Following (s₀ : JointDriverModule K) (actuatorDebug : Bool) (v : ℕ → String → Ages)
    (before : String → ℕ) (cut : ℕ) (age : BusRef → CanId → ℕ) (c : PublishSystem K) : Prop where
  same : s₀.SameNames c.driver
  debug : c.actuatorDebug = actuatorDebug
  dated : XyberController.Dated s₀.ctrl c.received c.driver.ctrl age
  rest : ∀ joint, (∀ t ∈ s₀.transmission, t.joint ≠ joint) →
    DataSpace.readingAt c.driver.jointDataSpace joint = ⟨0, 0, 0⟩
  listed : c.publisher.Listed (DataSpace.names s₀.actuatorDataSpace)
  partly : ∀ name ∈ DataSpace.names s₀.actuatorDataSpace, ∃ a,
    Partly s₀.ctrl c.received name (before name)
      (s₀.ctrl.framesOf (c.received.take cut) name).length (s₀.ctrl.ageOf age name)
      (c.publisher.stage name) (DataSpace.readingAt c.driver.actuatorDataSpace name) a
  carried : c.publisher = .publish → ∀ joint ∈ DataSpace.names s₀.jointDataSpace,
    DataSpace.readingAt c.driver.jointDataSpace joint =
      s₀.jointReading (DataSpace.readingAt c.driver.actuatorDataSpace) joint
  told : ∀ k e, c.published[k]? = some e → e.2 ≤ cut ∧
    (e.1 = s₀.telling actuatorDebug fun name => s₀.ctrl.sampled c.received name (v k name)) ∧
    ∀ name, (v k name).Ordered ∧ (v k name).position ≤ before name
  apart : ∀ j k e, j < k → k < c.published.length → c.published[j]? = some e →
    ∀ name ∈ DataSpace.names s₀.actuatorDataSpace, (v j name).position ≤ (v k name).effort ∧
      (OnlyFeedback c.received →
        (s₀.ctrl.framesOf (c.received.take e.2) name).length ≤ (v k name).effort)
  before : ∀ name, before name ≤ s₀.ctrl.ageOf age name
  cut : cut ≤ c.received.length

namespace Following
variable {s₀ : JointDriverModule K} {actuatorDebug : Bool} {v : ℕ → String → Ages}
  {before : String → ℕ} {cut : ℕ} {age : BusRef → CanId → ℕ} {c : PublishSystem K}

theorem environment (h : Following s₀ actuatorDebug v before cut age c) {d : JointDriverModule K}
    (callback : Callback K) (hsame : c.driver.SameReadings d) (more : List (String × CanFrame))
    {age' : BusRef → CanId → ℕ} (hage : ∀ ref id, age ref id ≤ age' ref id)
    (hdated : XyberController.Dated s₀.ctrl (c.received ++ more) d.ctrl age') :
    Following s₀ actuatorDebug v before cut age'
      { c with driver := d, callback := callback, received := c.received ++ more } := by
  have hnow := s₀.ctrl.ageOf_mono hage
  have htake {n : ℕ} (hn : n ≤ cut) : (c.received ++ more).take n = c.received.take n :=
    List.take_append_of_le_length (hn.trans h.cut)
  have honly : OnlyFeedback (c.received ++ more) → OnlyFeedback c.received :=
    fun hq e he => hq e (List.mem_append_left more he)
  constructor
  case same => exact h.same.trans hsame.toSameNames
  case debug => exact h.debug
  case dated => exact hdated
  case rest =>
    intro joint hjoint
    rw [hsame.joint]
    exact h.rest joint hjoint
  case listed => exact h.listed
  case partly =>
    intro name hname
    obtain ⟨a, ha⟩ := h.partly name hname
    rw [hsame.actuator, htake le_rfl]
    exact ⟨a, ha.later (h.dated.ageOf_le name) more (hnow name)⟩
  case carried =>
    intro hp joint hjoint
    rw [hsame.joint, h.carried hp joint hjoint]
    exact JointDriverModule.jointReading_congr (fun t _ => (hsame.actuator t.actuator).symm) joint
  case told =>
    intro k e he
    obtain ⟨hcut, htelling, hbound⟩ := h.told k e he
    refine ⟨hcut, ?_, hbound⟩
    rw [htelling]
    refine congrArg (s₀.telling actuatorDebug) (funext fun name => ?_)
    exact (XyberController.sampled_append (hbound name).1
      ((hbound name).2.trans ((h.before name).trans (h.dated.ageOf_le name))) more).symm
  case apart =>
    intro j k e hjk hk he name hname
    obtain ⟨horder, hfresh⟩ := h.apart j k e hjk hk he name hname
    rw [htake (h.told j e he).1]
    exact ⟨horder, fun hq => hfresh (honly hq)⟩
  case before => exact fun name => (h.before name).trans (hnow name)
  case cut =>
    rw [List.length_append]
    exact h.cut.trans (Nat.le_add_right _ _)

theorem silent (h : Following s₀ actuatorDebug v before cut age c) {d : JointDriverModule K}
    (callback : Callback K) (hsame : c.driver.SameReadings d) {age' : BusRef → CanId → ℕ}
    (hage : ∀ ref id, age ref id ≤ age' ref id)
    (hdated : XyberController.Dated s₀.ctrl c.received d.ctrl age') :
    Following s₀ actuatorDebug v before cut age' { c with driver := d, callback := callback } := by
  have henv := h.environment callback hsame [] hage (by rwa [List.append_nil])
  rwa [List.append_nil] at henv

theorem goTo (h : Following s₀ actuatorDebug v before cut age c) {p : Publisher}
    (hlisted : p.Listed (DataSpace.names s₀.actuatorDataSpace))
    (hstage : ∀ name ∈ DataSpace.names s₀.actuatorDataSpace, p.stage name ≤ c.publisher.stage name)
    (hpublish : p ≠ .publish) :
    Following s₀ actuatorDebug v before cut age { c with publisher := p } :=
  { h with
    listed := hlisted
    partly := fun name hname =>
      (h.partly name hname).imp fun _ ha => ha.less (hstage name hname)
    carried := fun hp => absurd hp hpublish }

theorem transform (h : Following s₀ actuatorDebug v before cut age c) (hs₀ : s₀.Ready)
    (hp : c.publisher = .transform) : Following s₀ actuatorDebug v before cut age
      { c with driver := c.driver.transformActuatorToJoint, publisher := .publish } := by
  obtain ⟨⟨hpull, hjoints⟩, -⟩ := JointDriverModule.onlyReads_transform c.driver
  have hactuators : c.driver.transformActuatorToJoint.actuatorDataSpace = c.driver.actuatorDataSpace := by
    rw [hpull]
  have htransmission := h.same.transmission
  have hbound : ∀ t ∈ c.driver.transmission,
      t.actuator ∈ DataSpace.names c.driver.actuatorDataSpace := by
    intro t ht
    rw [h.same.actuators]
    exact (hs₀.bound t (htransmission ▸ ht)).2
  have hcarried : ∀ joint ∈ DataSpace.names s₀.jointDataSpace,
      DataSpace.readingAt c.driver.transformActuatorToJoint.jointDataSpace joint =
        s₀.jointReading (DataSpace.readingAt c.driver.actuatorDataSpace) joint := by
    intro joint hjoint
    rw [← h.same.joints] at hjoint
    rw [JointDriverModule.readingAt_transformActuatorToJoint hbound hjoint fun hrest =>
      h.rest joint (htransmission ▸ hrest)]
    unfold JointDriverModule.jointReading
    rw [htransmission]
  refine { h with
    same := ⟨?_, ?_, ?_, hjoints.trans h.same.joints, ?_⟩
    dated := ?_
    rest := fun joint hjoint => ?_
    listed := trivial
    partly := fun name hname => ?_
    carried := fun _ joint hjoint => ?_ }
  · rw [hpull]
    exact htransmission
  · rw [hpull]
    exact h.same.jointNameList
  · rw [hpull]
    exact h.same.actuatorNameList
  · rw [hactuators]
    exact h.same.actuators
  · rw [hpull]
    exact h.dated
  · by_cases hmem : joint ∈ DataSpace.names s₀.jointDataSpace
    · rw [hcarried joint hmem]
      exact JointDriverModule.jointReading_rest hjoint _
    · rw [← h.same.joints, ← hjoints] at hmem
      exact DataSpace.readingAt_of_notMem hmem
  · have hpartly := h.partly name hname
    rw [hp] at hpartly
    rw [hactuators]
    exact hpartly
  · rw [hactuators]
    exact hcarried joint hjoint

theorem exists_round (h : Following s₀ actuatorDebug v before cut age c)
    (hp : c.publisher = .publish) : ∃ round : String → Ages,
      (∀ name ∈ DataSpace.names s₀.actuatorDataSpace, Partly s₀.ctrl c.received name (before name)
        (s₀.ctrl.framesOf (c.received.take cut) name).length (s₀.ctrl.ageOf age name) 3
        (DataSpace.readingAt c.driver.actuatorDataSpace name) (round name)) ∧
      ∀ name ∉ DataSpace.names s₀.actuatorDataSpace, round name = ⟨0, 0, 0⟩ := by
  have hpartly := h.partly
  rw [hp] at hpartly
  have hall : ∀ name, ∃ a, (name ∈ DataSpace.names s₀.actuatorDataSpace →
      Partly s₀.ctrl c.received name (before name)
        (s₀.ctrl.framesOf (c.received.take cut) name).length (s₀.ctrl.ageOf age name) 3
        (DataSpace.readingAt c.driver.actuatorDataSpace name) a) ∧
      (name ∉ DataSpace.names s₀.actuatorDataSpace → a = ⟨0, 0, 0⟩) := by
    intro name
    by_cases hname : name ∈ DataSpace.names s₀.actuatorDataSpace
    · obtain ⟨a, ha⟩ := hpartly name hname
      exact ⟨a, fun _ => ha, fun hnot => absurd hname hnot⟩
    · exact ⟨⟨0, 0, 0⟩, fun hmem => absurd hmem hname, fun _ => rfl⟩
  choose round hround using hall
  exact ⟨round, fun name hname => (hround name).1 hname, fun name hname => (hround name).2 hname⟩

theorem message_eq (h : Following s₀ actuatorDebug v before cut age c) (hs₀ : s₀.Ready)
    (hp : c.publisher = .publish) {round : String → Ages}
    (hround : ∀ name ∈ DataSpace.names s₀.actuatorDataSpace,
      DataSpace.readingAt c.driver.actuatorDataSpace name =
        s₀.ctrl.sampled c.received name (round name)) :
    c.driver.message c.actuatorDebug =
      s₀.telling actuatorDebug fun name => s₀.ctrl.sampled c.received name (round name) := by
  have hjoint : jointState s₀.jointNameList (DataSpace.readingAt c.driver.jointDataSpace) =
      jointState s₀.jointNameList
        (s₀.jointReading fun name => s₀.ctrl.sampled c.received name (round name)) := by
    refine jointState_congr fun joint hjoint => ?_
    rw [h.carried hp joint (hs₀.jointNames joint hjoint)]
    exact JointDriverModule.jointReading_congr
      (fun t ht => hround t.actuator (hs₀.bound t ht).2) joint
  have hactuator : jointState s₀.actuatorNameList (DataSpace.readingAt c.driver.actuatorDataSpace) =
      jointState s₀.actuatorNameList fun name => s₀.ctrl.sampled c.received name (round name) :=
    jointState_congr fun name hname => hround name (hs₀.actuatorNames name hname)
  unfold JointDriverModule.message JointDriverModule.telling
  rw [h.same.jointNameList, h.same.actuatorNameList, h.debug, hjoint, hactuator]

theorem publish (h : Following s₀ actuatorDebug v before cut age c) (hs₀ : s₀.Ready)
    (hp : c.publisher = .publish) : ∃ v' before', Following s₀ actuatorDebug v' before'
      c.received.length age { c with
        published := c.published ++ [(c.driver.message c.actuatorDebug, c.received.length)]
        publisher := .test } := by
  obtain ⟨round, hround, hrest⟩ := h.exists_round hp
  have hmessage := h.message_eq hs₀ hp fun name hname => (hround name hname).sampled
  set n := c.published.length with hn
  -- nothing is asked of the names the module does not have
  let before' := fun name =>
    if name ∈ DataSpace.names s₀.actuatorDataSpace then (round name).position else before name
  have hordered : ∀ name, (round name).Ordered ∧ (round name).position ≤ before' name := by
    intro name
    by_cases hname : name ∈ DataSpace.names s₀.actuatorDataSpace
    · simp only [before', if_pos hname]
      exact ⟨(hround name hname).ordered, le_rfl⟩
    · rw [hrest name hname]
      exact ⟨⟨le_rfl, le_rfl⟩, Nat.zero_le _⟩
  have hbefore : ∀ name, before name ≤ before' name := by
    intro name
    dsimp only [before']
    split_ifs with hname
    · obtain ⟨heffort, hvelocity⟩ := (hround name hname).ordered
      exact ((hround name hname).effort (by simp)).2.1.trans (heffort.trans hvelocity)
    · exact le_rfl
  have hv : ∀ k, k < n → Function.update v n round k = v k := fun k hk =>
    Function.update_of_ne (Nat.ne_of_lt hk) round v
  refine ⟨Function.update v n round, before', { h with
    listed := trivial
    partly := fun name _ => ⟨round name, .none _ _⟩
    carried := fun hp => by cases hp
    told := fun k e he => ?_
    apart := fun j k e hjk hk he name hname => ?_
    before := fun name => ?_
    cut := le_rfl }⟩
  · rcases Nat.lt_or_ge k n with hk | hk
    · rw [List.getElem?_append_left hk] at he
      obtain ⟨hcut, htelling, hbound⟩ := h.told k e he
      rw [hv k hk]
      exact ⟨hcut.trans h.cut, htelling, fun name =>
        ⟨(hbound name).1, (hbound name).2.trans (hbefore name)⟩⟩
    · rw [List.getElem?_append_right hk, List.getElem?_singleton] at he
      split_ifs at he with hzero
      cases he
      obtain rfl : k = n := by omega
      rw [Function.update_self]
      exact ⟨le_rfl, hmessage, hordered⟩
  · rw [List.length_append, List.length_singleton] at hk
    have hj : j < n := by omega
    rw [List.getElem?_append_left hj] at he
    rw [hv j hj]
    rcases Nat.lt_or_ge k n with hkn | hkn
    · rw [hv k hkn]
      exact h.apart j k e hjk hkn he name hname
    · obtain rfl : k = n := by omega
      obtain ⟨hcut, -, hbound⟩ := h.told j e he
      obtain ⟨-, heffort, -, hfresh⟩ := (hround name hname).effort (by simp)
      rw [Function.update_self]
      exact ⟨(hbound name).2.trans heffort, fun hq =>
        (s₀.ctrl.framesOf_take c.received hcut name).trans (hfresh hq)⟩
  · dsimp only [before']
    split_ifs with hname
    · exact ((hround name hname).position (by simp)).2.2
    · exact h.before name

variable [LinearOrder K] [FloorSemiring K]

theorem call (h : Following s₀ actuatorDebug v before cut age c) {g : Getter} {name : String}
    {todo : List String} (hp : c.publisher = .get g name todo) : ∃ age',
      Following s₀ actuatorDebug v before cut age'
        { c with driver := c.driver.refresh g name, publisher := g.andThen name todo } := by
  obtain ⟨age', hage, hdated, hreading, hnewest⟩ := h.dated.get name
  have hlisted := h.listed
  rw [hp] at hlisted
  have hmem := hlisted.2 name List.mem_cons_self
  have hnow := s₀.ctrl.ageOf_mono hage
  refine ⟨age', { h with
    same := ⟨h.same.transmission, h.same.jointNameList, h.same.actuatorNameList, h.same.joints, ?_⟩
    dated := hdated
    listed := Publisher.listed_andThen hlisted
    partly := fun other hother => ?_
    carried := fun hpublish => by cases g <;> cases hpublish
    before := fun other => (h.before other).trans (hnow other) }⟩
  · exact (DataSpace.names_modifyState _ _ _).trans h.same.actuators
  · obtain ⟨a, ha⟩ := h.partly other hother
    have hlater := ha.later (h.dated.ageOf_le other) [] (hnow other)
    rw [List.append_nil] at hlater
    rw [hp] at hlater
    have htable := h.same.actuators.symm ▸ hother
    unfold JointDriverModule.refresh
    rcases eq_or_ne other name with rfl | hne
    · have hstage : (Publisher.get g other todo).stage other = g.stage := if_pos rfl
      rw [hstage] at hlater
      obtain ⟨a', ha'⟩ := hlater.call ((h.before other).trans (hnow other)) fun hq => by
        rw [hnewest hq]
        have hframes := s₀.ctrl.framesOf_take c.received h.cut other
        rwa [List.take_length] at hframes
      refine ⟨a', ?_⟩
      rw [Publisher.stage_andThen g (List.nodup_cons.mp hlisted.1).1,
        DataSpace.readingAt_store htable, hreading]
      exact ha'
    · refine ⟨a, ?_⟩
      rw [Publisher.stage_andThen_ne g hne, DataSpace.readingAt_store_ne htable hne]
      exact hlater

theorem publisherStep (h : Following s₀ actuatorDebug v before cut age c) (hs₀ : s₀.Ready) :
    ∃ v' before' cut' age', Following s₀ actuatorDebug v' before' cut' age' c.publisherStep := by
  have hlisted := h.listed
  unfold PublishSystem.publisherStep
  split
  next hp =>
    split_ifs
    · rw [h.same.actuators]
      exact ⟨v, before, cut, age, h.goTo ⟨hs₀.actuators, fun _ hname => hname⟩
        (fun name hname => by simp [Publisher.stage, hname]) (by simp)⟩
    · exact ⟨v, before, cut, age, h.goTo trivial (fun name _ => Nat.zero_le _) (by simp)⟩
  next hp =>
    exact ⟨v, before, cut, age, h.goTo trivial (fun name _ => by simp [hp, Publisher.stage]) (by simp)⟩
  next name todo hp =>
    rw [hp] at hlisted
    refine ⟨v, before, cut, age, h.goTo hlisted (fun other _ => ?_) (by simp)⟩
    rw [hp]
    simp only [Publisher.stage, Getter.stage, List.mem_cons]
    split_ifs <;> simp_all
  next g name todo hp =>
    obtain ⟨age', hcall⟩ := h.call hp
    exact ⟨v, before, cut, age', hcall⟩
  next hp => exact ⟨v, before, cut, age, h.transform hs₀ hp⟩
  next hp =>
    obtain ⟨v', before', hpublish⟩ := h.publish hs₀ hp
    exact ⟨v', before', c.received.length, age, hpublish⟩
  next hp => exact ⟨v, before, cut, age, h⟩

theorem step (h : Following s₀ actuatorDebug v before cut age c) (hs₀ : s₀.Ready) {a : Action K}
    {c' : PublishSystem K} (hc : c.step a = some c') :
    ∃ v' before' cut' age', Following s₀ actuatorDebug v' before' cut' age' c' := by
  cases a with
  | event e =>
    cases hc
    obtain ⟨age', hage, hdated⟩ := h.dated.apply e
    exact ⟨v, before, cut, age',
      h.environment c.callback ((SameReadings.refl _).withCtrl _) e.frames hage hdated⟩
  | message msg =>
    simp only [PublishSystem.step] at hc
    split at hc
    · cases hc
      exact ⟨v, before, cut, age, h.silent _ (.refl _) (fun _ _ => le_rfl) h.dated⟩
    · cases hc
  | callback =>
    cases hc
    obtain ⟨hsame, hctrl | ⟨e, hframes, hctrl⟩⟩ := c.callback.step_sameReadings c.driver
    · exact ⟨v, before, cut, age, h.silent _ hsame (fun _ _ => le_rfl) (hctrl ▸ h.dated)⟩
    · obtain ⟨age', hage, hdated⟩ := h.dated.apply e
      rw [hframes, ← hctrl, List.append_nil] at hdated
      exact ⟨v, before, cut, age', h.silent _ hsame hage hdated⟩
  | publisher => cases hc; exact h.publisherStep hs₀
  | stop =>
    cases hc
    have hsame : c.driver.SameReadings { c.driver with isRunning := false } :=
      ⟨⟨rfl, rfl, rfl, rfl, rfl⟩, fun _ => rfl, fun _ => rfl⟩
    exact ⟨v, before, cut, age, h.silent c.callback hsame (fun _ _ => le_rfl) h.dated⟩

end Following

theorem following_start {s₀ : JointDriverModule K} (hs₀ : s₀.Ready) (actuatorDebug : Bool) :
    Following s₀ actuatorDebug (fun _ _ => ⟨0, 0, 0⟩) (fun _ => 0) 0 (fun _ _ => 0)
      (started s₀ actuatorDebug) where
  same := ⟨rfl, rfl, rfl, rfl, rfl⟩
  debug := rfl
  dated := XyberController.dated_start s₀.ctrl
  rest := fun joint _ => hs₀.rest joint
  listed := trivial
  partly := fun _ _ => ⟨⟨0, 0, 0⟩, .none _ _⟩
  carried := fun hp => by cases hp
  told := fun k e he => by simp [started] at he
  apart := fun j k e _ hk => by simp [started] at hk
  before := fun _ => Nat.zero_le _
  cut := le_rfl

variable [LinearOrder K] [FloorSemiring K]

theorem following_run {s₀ : JointDriverModule K} (hs₀ : s₀.Ready) {actuatorDebug : Bool}
    {as : List (Action K)} {c : PublishSystem K}
    (h : Run PublishSystem.step (started s₀ actuatorDebug) as c) :
    ∃ v before cut age, Following s₀ actuatorDebug v before cut age c :=
  h.invariant (fun c => ∃ v before cut age, Following s₀ actuatorDebug v before cut age c)
    ⟨_, _, _, _, following_start hs₀ actuatorDebug⟩
    (fun _ _ _ ⟨_, _, _, _, hs⟩ ht => hs.step hs₀ ht)

/-- Whatever the threads do in between, the `k`-th messages are about readings of ages
`v k`: in order within a message and from one to the next, and while only feedback is
received not older than what had arrived at any message before. -/
theorem state_path (w : XyberController K) (joints actuators : List String)
    (nodes : List (TransmissionConfig K)) {s₀ : JointDriverModule K}
    (hinit : initTransmission nodes (unbound w joints actuators) = (none, s₀)) (actuatorDebug : Bool)
    {as : List (Action K)} {c : PublishSystem K}
    (h : Run PublishSystem.step (started s₀ actuatorDebug) as c) :
    ∃ v : ℕ → String → Ages,
      (∀ k e, c.published[k]? = some e →
        (e.1 = s₀.telling actuatorDebug fun name => w.sampled c.received name (v k name)) ∧
        ∀ name, (v k name).Ordered ∧ (v k name).position ≤ (w.framesOf c.received name).length) ∧
      ∀ j k e, j < k → k < c.published.length → c.published[j]? = some e →
        ∀ name ∈ actuators, (v j name).position ≤ (v k name).effort ∧
          (OnlyFeedback c.received →
            (w.framesOf (c.received.take e.2) name).length ≤ (v k name).effort) := by
  have hs₀ : s₀.Ready := by
    have hready := JointDriverModule.ready_initTransmission w joints actuators nodes
    rwa [hinit] at hready
  obtain ⟨ts, htables⟩ := JointDriverModule.tables_initTransmission w joints actuators nodes
  rw [hinit] at htables
  have hctrl : s₀.ctrl = w := congrArg JointDriverModule.ctrl htables
  have hnames : s₀.actuatorNameList = actuators := congrArg JointDriverModule.actuatorNameList htables
  obtain ⟨v, before, cut, age, hc⟩ := following_run hs₀ h
  rw [← hctrl]
  refine ⟨v, fun k e he => ?_, fun j k e hjk hk he name hname => ?_⟩
  · obtain ⟨-, htelling, hbound⟩ := hc.told k e he
    exact ⟨htelling, fun name => ⟨(hbound name).1,
      (hbound name).2.trans ((hc.before name).trans (hc.dated.ageOf_le name))⟩⟩
  · exact hc.apart j k e hjk hk he name (hs₀.actuatorNames name (hnames ▸ hname))

section Knee
open XyberController (silentKnees leftListedFirst)

def pairedKnees : XyberController ℚ :=
  silentKnees leftListedFirst

def mirroredKnee : List (TransmissionConfig ℚ) :=
  [⟨some "left", some "SimpleTransmission", some (-1), some "left_knee", some "knee_left"⟩]

def kneeLink : JointDriverModule ℚ :=
  (initTransmission mirroredKnee (unbound pairedKnees ["left_knee"] ["knee_left"])).2

def tornRound : List (Action ℚ) :=
  List.replicate 3 .publisher ++ [.event (.receive "can0" ⟨0x828001FD#32, #v[0, 0, 0, 0, 0, 0, 1, 0]⟩)] ++
    List.replicate 13 .publisher

theorem state_path_tornRound :
    ∃ c, Run PublishSystem.step (started kneeLink true) tornRound c ∧ c.published.length = 2 ∧
      ∃ v : ℕ → String → Ages,
        (∀ k e, c.published[k]? = some e →
          (e.1 = kneeLink.telling true fun name => pairedKnees.sampled c.received name (v k name)) ∧
          ∀ name, (v k name).Ordered ∧
            (v k name).position ≤ (pairedKnees.framesOf c.received name).length) ∧
        ∀ j k e, j < k → k < c.published.length → c.published[j]? = some e →
          ∀ name ∈ ["knee_left"], (v j name).position ≤ (v k name).effort ∧
            (OnlyFeedback c.received →
              (pairedKnees.framesOf (c.received.take e.2) name).length ≤ (v k name).effort) :=
  ⟨_, Runs.run_of_exec tornRound rfl, by decide +kernel, state_path pairedKnees ["left_knee"]
    ["knee_left"] mirroredKnee (show _ = (none, kneeLink) from rfl) true (Runs.run_of_exec tornRound rfl)⟩

end Knee

end PublishSystem
end MybipedalDeploy.JointDriver
