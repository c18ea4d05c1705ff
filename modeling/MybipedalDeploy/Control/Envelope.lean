import MybipedalDeploy.Control.History
import MybipedalDeploy.Control.Offsets
import MybipedalDeploy.Control.Overshoot
import MybipedalDeploy.Control.ProjectedGravity

/-!
# The envelope of the commands

The networks may answer anything. Their actions are clipped and filtered, the position
controllers move between what was measured and their target, and the offsets are added:
the commands that are published stay within what the configuration and the measured
positions allow.
-/

namespace MybipedalDeploy.Control
open Msg (Twist JointState JointCommand)
open Runs (Run)

section Lists

def largest {K : Type*} [Field K] [LinearOrder K] (v : List K) : K :=
  v.foldr (fun x m => max |x| m) 0

variable {v : List ℝ} {R : ℝ}

theorem abs_le_largest {x : ℝ} (hx : x ∈ v) : |x| ≤ largest v := by
  induction v with
  | nil => cases hx
  | cons y v ih =>
    rcases List.mem_cons.mp hx with rfl | hx
    · exact le_max_left _ _
    · exact (ih hx).trans (le_max_right _ _)

theorem largest_nonneg (v : List ℝ) : 0 ≤ largest v := by
  cases v with
  | nil => exact le_rfl
  | cons y v => exact (abs_nonneg y).trans (le_max_left _ _)

theorem getD_of_forall {K : Type*} [Zero K] {P : K → Prop} {v : List K} (hv : ∀ x ∈ v, P x)
    (h0 : P 0) (i : ℕ) : P (v.getD i 0) := by
  rw [List.getD_eq_getElem?_getD]
  cases hi : v[i]? with
  | none => exact h0
  | some x => exact hv x (List.mem_of_getElem? hi)

theorem readN_of_forall {K : Type*} [Zero K] {P : K → Prop} {v : List K} (hv : ∀ x ∈ v, P x)
    (h0 : P 0) (n : ℕ) : ∀ x ∈ readN n v, P x := by
  intro x hx
  obtain ⟨i, _, rfl⟩ := List.mem_map.mp hx
  exact getD_of_forall hv h0 i

theorem readAt_of_forall {K : Type*} [Zero K] {P : K → Prop} {v : List K} (hv : ∀ x ∈ v, P x)
    (h0 : P 0) (i : ℤ) : P (readAt v i) := by
  unfold readAt
  split_ifs
  · exact getD_of_forall hv h0 _
  · exact h0

theorem set_of_forall {α : Type*} {P : α → Prop} {v : List α} (hv : ∀ x ∈ v, P x) {y : α}
    (hy : P y) (i : ℕ) : ∀ x ∈ v.set i y, P x := by
  intro x hx
  rcases List.mem_or_eq_of_mem_set hx with hx | rfl
  · exact hv x hx
  · exact hy

theorem exists_of_mem_zipWith {α β γ : Type*} {f : α → β → γ} {xs : List α} {ys : List β} {z : γ}
    (hz : z ∈ List.zipWith f xs ys) : ∃ x ∈ xs, ∃ y ∈ ys, f x y = z := by
  rw [← List.map_uncurry_zip_eq_zipWith] at hz
  obtain ⟨e, he, rfl⟩ := List.mem_map.mp hz
  obtain ⟨hx, hy⟩ := List.of_mem_zip he
  exact ⟨e.1, hx, e.2, hy, rfl⟩

theorem writeAt_of_forall {α : Type*} {P : α → Prop} {v : List α} (hv : ∀ x ∈ v, P x) {y : α}
    (hy : P y) (i : ℤ) : ∀ x ∈ writeAt v i y, P x := by
  unfold writeAt
  split_ifs
  · exact set_of_forall hv hy _
  · exact hv

end Lists

section Reach
variable {K : Type*} [Field K] [LinearOrder K]

def RLConf.driveRange (conf : RLConf K) (initState : List K) (Q : K) : K :=
  max Q (|conf.actionsClip| * |conf.actionScale| + largest initState)

def Config.offsetSum (conf : Config K) : K := (conf.jointOffset.map fun e => |e.2|).sum

end Reach

noncomputable def ControllerNode.reach (node : ControllerNode ℝ) (Q : ℝ) : ℝ :=
  max (max Q (largest node.initState)) (node.walk.elim 0 fun conf =>
    DigitalLpFilter.overshoot conf.lpfWc conf.lpfTs * conf.driveRange node.initState Q)

noncomputable def Config.reach (conf : Config ℝ) (Q : ℝ) : ℝ :=
  largest (conf.controllers.map fun e => e.2.reach (Q + conf.offsetSum)) + conf.offsetSum

structure ControllerBase.Contained (Q : ℝ) (node : ControllerNode ℝ) (b : ControllerBase ℝ) :
    Prop where
  initState : b.initState = node.initState
  stiffness : b.stiffness = node.stiffness
  damping : b.damping = node.damping
  measured : ∀ x ∈ b.jointStateData.position, |x| ≤ Q

structure PDController.Contained (Q : ℝ) (c : PDController ℝ) : Prop where
  started : ∀ x ∈ c.startJointAngles, |x| ≤ Q
  percent_nonneg : 0 ≤ c.transModePercent
  percent_le_one : c.transModePercent ≤ 1

structure RLController.Contained (C : ℝ) (conf : RLConf ℝ) (c : RLController ℝ) : Prop where
  sameConf : c.conf = conf
  actions : ∀ x ∈ c.actions, |x| ≤ |conf.actionsClip|
  filters : ∀ f ∈ c.lowPassFilters, f.Within conf.lpfWc conf.lpfTs C
    (DigitalLpFilter.ceiling conf.lpfWc conf.lpfTs C)

def Controller.Contained (Q : ℝ) (node : ControllerNode ℝ) : Controller ℝ → Prop
  | .pd c => c.base.Contained Q node ∧ c.Contained Q
  | .rl c => c.base.Contained Q node ∧
      ∃ conf, node.walk = some conf ∧ c.Contained (conf.driveRange node.initState Q) conf

def Config.Contains (conf : Config ℝ) (Q : ℝ) (c : Controller ℝ) : Prop :=
  ∃ e ∈ conf.controllers, c.Contained Q e.2

/-- Positions within `R`, neither velocities nor efforts, and gains of the configuration. -/
structure CommandWithin (nodes : List (ControllerNode ℝ)) (R : ℝ) (cmd : JointCommand ℝ) : Prop where
  position : ∀ x ∈ cmd.position, |x| ≤ R
  velocity : ∀ x ∈ cmd.velocity, x = 0
  effort : ∀ x ∈ cmd.effort, x = 0
  stiffness : ∀ x ∈ cmd.stiffness, x = 0 ∨ ∃ node ∈ nodes, x ∈ node.stiffness
  damping : ∀ x ∈ cmd.damping, x = 0 ∨ ∃ node ∈ nodes, x ∈ node.damping

def RLConf.Tuned (conf : RLConf ℝ) : Prop := 0 < conf.lpfWc ∧ 0 < conf.lpfTs

namespace ControllerBase
variable {Q : ℝ} {node : ControllerNode ℝ} {b : ControllerBase ℝ}

theorem contained_new (hQ : 0 ≤ Q) (node : ControllerNode ℝ) :
    (ControllerBase.new node.jointList node.initState node.stiffness node.damping).Contained Q
      node := by
  refine ⟨rfl, rfl, rfl, fun x hx => ?_⟩
  rw [List.eq_of_mem_replicate hx, abs_zero]
  exact hQ

theorem Contained.storeJoint (h : b.Contained Q node) (hQ : 0 ≤ Q) {msg : JointState ℝ}
    (hmsg : ∀ x ∈ msg.position, |x| ≤ Q) (ii : ℕ) (index : ℤ) :
    (b.storeJoint msg ii index).Contained Q node := by
  refine ⟨h.initState, h.stiffness, h.damping, set_of_forall h.measured ?_ ii⟩
  exact readAt_of_forall (P := fun x => |x| ≤ Q) hmsg (by rwa [abs_zero]) index

theorem Contained.setJointStateData (h : b.Contained Q node) (hQ : 0 ≤ Q) {msg : JointState ℝ}
    (hmsg : ∀ x ∈ msg.position, |x| ≤ Q) (indices : IndexMap) :
    (b.setJointStateData msg indices).2.Contained Q node := by
  unfold ControllerBase.setJointStateData
  generalize b.jointNames.zipIdx = joints
  induction joints generalizing b with
  | nil => exact h
  | cons joint joints ih =>
    simp only [storeJoints]
    cases indices.at? joint.1 with
    | none => exact h
    | some index => exact ih (h.storeJoint hQ hmsg joint.2 index)

end ControllerBase

namespace PDController
variable {Q : ℝ} {c : PDController ℝ}

theorem Contained.update (h : c.Contained Q) : c.update.Contained Q := by
  unfold PDController.update transModeDurationS
  split_ifs
  · exact h
  · refine ⟨h.started, le_min ?_ zero_le_one, min_le_right _ _⟩
    linarith [h.percent_nonneg]

theorem Contained.abs_posDes_le (h : c.Contained Q) (hQ : 0 ≤ Q) (ii : ℕ) :
    |c.posDes ii| ≤ max Q (largest c.base.initState) := by
  have hstart : |c.startJointAngles.getD ii 0| ≤ Q :=
    getD_of_forall (P := fun x => |x| ≤ Q) h.started (by rwa [abs_zero]) ii
  have htarget : |c.base.initState.getD ii 0| ≤ largest c.base.initState :=
    getD_of_forall (P := fun x => |x| ≤ largest c.base.initState) (fun _ => abs_le_largest)
      (by rw [abs_zero]; exact largest_nonneg _) ii
  unfold posDes
  split_ifs
  · exact hstart.trans (le_max_left _ _)
  · have hrest := sub_nonneg.mpr h.percent_le_one
    have hleft := mul_le_mul_of_nonneg_right (hstart.trans (le_max_left Q (largest c.base.initState)))
      hrest
    have hright := mul_le_mul_of_nonneg_right
      (htarget.trans (le_max_right Q (largest c.base.initState))) h.percent_nonneg
    calc |c.startJointAngles.getD ii 0 * (1 - c.transModePercent) +
          c.base.initState.getD ii 0 * c.transModePercent|
        ≤ |c.startJointAngles.getD ii 0| * (1 - c.transModePercent) +
          |c.base.initState.getD ii 0| * c.transModePercent := by
          refine (abs_add_le _ _).trans_eq ?_
          rw [abs_mul, abs_mul, abs_of_nonneg hrest, abs_of_nonneg h.percent_nonneg]
      _ ≤ max Q (largest c.base.initState) := by linarith

end PDController

namespace RLController
variable {C Q : ℝ} {conf : RLConf ℝ} {c : RLController ℝ}

theorem abs_clipAction_le (conf : RLConf ℝ) (x : ℝ) : |conf.clipAction x| ≤ |conf.actionsClip| := by
  rw [abs_le]
  constructor
  · exact (neg_le_neg (le_abs_self _)).trans (le_max_left _ _)
  · exact max_le (neg_le_abs _) ((min_le_left _ _).trans (le_abs_self _))

theorem driveRange_nonneg (hQ : 0 ≤ Q) (conf : RLConf ℝ) (initState : List ℝ) :
    0 ≤ conf.driveRange initState Q :=
  hQ.trans (le_max_left _ _)

theorem contained_new (hC : 0 ≤ C) (htuned : conf.Tuned) (base : ControllerBase ℝ) :
    (RLController.new base conf).Contained C conf := by
  refine ⟨rfl, fun x hx => ?_, fun f hf => ?_⟩
  · rw [List.eq_of_mem_replicate hx, abs_zero]
    exact abs_nonneg _
  · rw [List.eq_of_mem_replicate hf]
    exact DigitalLpFilter.within_new htuned.1 htuned.2 hC

theorem Contained.restartController (h : c.Contained C conf) :
    c.restartController.Contained C conf := by
  refine ⟨h.sameConf, fun x hx => ?_, h.filters⟩
  rw [List.eq_of_mem_replicate hx, abs_zero]
  exact abs_nonneg _

theorem Contained.reset (h : c.Contained C conf) (htuned : conf.Tuned) (hC : 0 ≤ C)
    (hpos : ∀ x ∈ c.propri.jointPos, |x| ≤ C) :
    ∀ f ∈ c.lowPassFilters.mapIdx fun ii f =>
        if ii < c.base.jointNames.length then
          DigitalLpFilter.init f (c.propri.jointPos.getD ii 0) else f,
      f.Within conf.lpfWc conf.lpfTs C (DigitalLpFilter.ceiling conf.lpfWc conf.lpfTs C) := by
  intro f hf
  obtain ⟨ii, hii, rfl⟩ := List.mem_mapIdx.mp hf
  have hold := h.filters _ (List.getElem_mem hii)
  split_ifs
  · exact hold.init htuned.1 htuned.2
      (getD_of_forall (P := fun x => |x| ≤ C) hpos (by rwa [abs_zero]) ii)
  · exact hold

theorem Contained.computeObservation (h : c.Contained C conf) (htuned : conf.Tuned)
    (io : Platform ℝ) (hC : 0 ≤ C) (hpos : ∀ x ∈ c.propri.jointPos, |x| ≤ C) (joy : Twist ℝ) :
    (c.computeObservation io joy).Contained C conf := by
  unfold RLController.computeObservation
  dsimp only
  split_ifs
  · exact ⟨h.sameConf, h.actions, h.reset htuned hC hpos⟩
  · exact ⟨h.sameConf, h.actions, h.filters⟩

theorem Contained.computeActions (h : c.Contained C conf) : c.computeActions.Contained C conf := by
  refine ⟨h.sameConf, fun x hx => ?_, h.filters⟩
  obtain ⟨y, _, rfl⟩ := List.mem_map.mp hx
  rw [← h.sameConf]
  exact abs_clipAction_le c.conf y

theorem Contained.update (h : c.Contained C conf) (htuned : conf.Tuned) (io : Platform ℝ)
    (hC : 0 ≤ C) (hmeasured : ∀ x ∈ c.base.jointStateData.position, |x| ≤ C) :
    (c.update io).Contained C conf := by
  have hestimated : (c.updateStateEstimation io c.base.imuData).Contained C conf :=
    ⟨h.sameConf, h.actions, h.filters⟩
  have hpos := readN_of_forall (P := fun x => |x| ≤ C) hmeasured (by rwa [abs_zero])
    c.conf.actionsSize
  have hcounted {d : RLController ℝ} (hd : d.Contained C conf) : d.countLoop.Contained C conf :=
    ⟨hd.sameConf, hd.actions, hd.filters⟩
  unfold RLController.update
  dsimp only
  split_ifs
  · exact hcounted (hestimated.computeObservation htuned io hC hpos _).computeActions
  · exact hcounted hestimated

theorem Contained.posDes (h : c.Contained (conf.driveRange c.base.initState Q) conf) {u : ℝ}
    (hu : u ∈ List.zipWith (fun a q₀ => a * c.conf.actionScale + q₀) c.actions c.base.initState) :
    |u| ≤ conf.driveRange c.base.initState Q := by
  obtain ⟨a, ha, q₀, hq₀, rfl⟩ := exists_of_mem_zipWith hu
  have hscaled := mul_le_mul_of_nonneg_right (h.actions a ha) (abs_nonneg c.conf.actionScale)
  have hsum := add_le_add hscaled (abs_le_largest hq₀)
  rw [← abs_mul, h.sameConf] at hsum
  rw [h.sameConf]
  exact (abs_add_le _ _).trans (hsum.trans (le_max_right _ _))

theorem Contained.filtered (h : c.Contained (conf.driveRange c.base.initState Q) conf)
    (htuned : conf.Tuned) (hQ : 0 ≤ Q) :
    c.getJointCmdData.2.Contained (conf.driveRange c.base.initState Q) conf ∧
      ∀ x ∈ c.getJointCmdData.1.position, |x| ≤
        DigitalLpFilter.overshoot conf.lpfWc conf.lpfTs * conf.driveRange c.base.initState Q := by
  have hC := driveRange_nonneg hQ conf c.base.initState
  have hstep : ∀ f ∈ c.getJointCmdData.2.lowPassFilters, f.Within conf.lpfWc conf.lpfTs
      (conf.driveRange c.base.initState Q) (DigitalLpFilter.ceiling conf.lpfWc conf.lpfTs
        (conf.driveRange c.base.initState Q)) ∧ f.lpfOut = f.lpfOutPrev0 := by
    intro f hf
    obtain ⟨g, hg, u, hu, rfl⟩ := exists_of_mem_zipWith hf
    exact ⟨(h.filters g hg).step htuned.1 htuned.2 (h.posDes hu), rfl⟩
  refine ⟨⟨h.sameConf, h.actions, fun f hf => (hstep f hf).1⟩, ?_⟩
  refine readN_of_forall (P := fun x => |x| ≤ _) (fun x hx => ?_) ?_ _
  · obtain ⟨f, hf, rfl⟩ := List.mem_map.mp hx
    obtain ⟨hwithin, hout⟩ := hstep f hf
    rw [hout]
    exact hwithin.abs_output_le htuned.1 htuned.2 hC
  · rw [abs_zero]
    exact mul_nonneg (DigitalLpFilter.overshoot_nonneg _ _) hC

end RLController

namespace Controller
variable {Q : ℝ} {node : ControllerNode ℝ} {c : Controller ℝ}

theorem Contained.base (h : c.Contained Q node) : c.base.Contained Q node := by
  cases c with
  | pd c => exact h.1
  | rl c => exact h.1

theorem Contained.withBase (h : c.Contained Q node) {f : ControllerBase ℝ → ControllerBase ℝ}
    (hf : (f c.base).Contained Q node) : (c.withBase f).Contained Q node := by
  cases c with
  | pd c => exact ⟨hf, h.2.started, h.2.percent_nonneg, h.2.percent_le_one⟩
  | rl c =>
    obtain ⟨conf, hwalk, hc⟩ := h.2
    exact ⟨hf, conf, hwalk, hc.sameConf, hc.actions, hc.filters⟩

theorem Contained.restartController (h : c.Contained Q node) :
    c.restartController.Contained Q node := by
  cases c with
  | pd c => exact ⟨h.1, h.1.measured, le_rfl, zero_le_one⟩
  | rl c =>
    obtain ⟨conf, hwalk, hc⟩ := h.2
    exact ⟨h.1, conf, hwalk, hc.restartController⟩

theorem Contained.commanded (h : c.Contained Q node) {nodes : List (ControllerNode ℝ)}
    (hnode : node ∈ nodes) {R : ℝ} (hposition : ∀ x ∈ c.getJointCmdData.1.position, |x| ≤ R) :
    CommandWithin nodes R c.getJointCmdData.1 := by
  have hstiffness : ∀ x ∈ c.base.stiffness, x = 0 ∨ ∃ node ∈ nodes, x ∈ node.stiffness :=
    fun x hx => .inr ⟨node, hnode, h.base.stiffness ▸ hx⟩
  have hdamping : ∀ x ∈ c.base.damping, x = 0 ∨ ∃ node ∈ nodes, x ∈ node.damping :=
    fun x hx => .inr ⟨node, hnode, h.base.damping ▸ hx⟩
  cases c with
  | pd c =>
    refine ⟨hposition, fun _ => List.eq_of_mem_replicate, fun _ => List.eq_of_mem_replicate, ?_, ?_⟩
    · exact readN_of_forall hstiffness (.inl rfl) _
    · exact readN_of_forall hdamping (.inl rfl) _
  | rl c =>
    refine ⟨hposition, fun _ => List.eq_of_mem_replicate, fun _ => List.eq_of_mem_replicate, ?_, ?_⟩
    · exact readN_of_forall (fun x hx => hstiffness x (List.mem_of_mem_take hx)) (.inl rfl) _
    · exact readN_of_forall (fun x hx => hdamping x (List.mem_of_mem_take hx)) (.inl rfl) _

variable (hQ : 0 ≤ Q) (htuned : ∀ conf, node.walk = some conf → conf.Tuned)
include hQ htuned

theorem contained_make {name : String} (h : make name node = some c) : c.Contained Q node := by
  have hbase := ControllerBase.contained_new hQ node
  unfold make at h
  split_ifs at h
  · obtain ⟨conf, hwalk, rfl⟩ := Option.map_eq_some_iff.mp h
    exact ⟨hbase, conf, hwalk, RLController.contained_new
      (RLController.driveRange_nonneg hQ conf node.initState) (htuned conf hwalk) _⟩
  · cases h
    refine ⟨hbase, fun x hx => ?_, le_rfl, zero_le_one⟩
    rw [List.eq_of_mem_replicate hx, abs_zero]
    exact hQ

theorem Contained.update (h : c.Contained Q node) (io : Platform ℝ) :
    (c.update io).Contained Q node := by
  have hbase : (c.update io).base.Contained Q node := by
    rw [base_update]
    exact h.base
  cases c with
  | pd c => exact ⟨hbase, h.2.update⟩
  | rl c =>
    obtain ⟨conf, hwalk, hc⟩ := h.2
    have hmeasured : ∀ x ∈ c.base.jointStateData.position, |x| ≤ conf.driveRange node.initState Q :=
      fun x hx => (h.1.measured x hx).trans (le_max_left _ _)
    exact ⟨hbase, conf, hwalk, hc.update (htuned conf hwalk) io
      (RLController.driveRange_nonneg hQ conf node.initState) hmeasured⟩

theorem Contained.getJointCmdData (h : c.Contained Q node) :
    c.getJointCmdData.2.Contained Q node ∧
      ∀ x ∈ c.getJointCmdData.1.position, |x| ≤ node.reach Q := by
  cases c with
  | pd c =>
    refine ⟨h, fun x hx => ?_⟩
    obtain ⟨ii, _, rfl⟩ := List.mem_map.mp hx
    have hpos := h.2.abs_posDes_le hQ ii
    rw [h.1.initState] at hpos
    exact hpos.trans (le_max_left _ _)
  | rl c =>
    obtain ⟨conf, hwalk, hc⟩ := h.2
    rw [← h.1.initState] at hc
    obtain ⟨hnext, hpos⟩ := hc.filtered (htuned conf hwalk) hQ
    rw [h.1.initState] at hnext hpos
    refine ⟨⟨h.1, conf, hwalk, hnext⟩, fun x hx => (hpos x hx).trans ?_⟩
    rw [ControllerNode.reach, hwalk]
    exact le_max_right _ _

end Controller

theorem CommandWithin.mergeEntry {nodes : List (ControllerNode ℝ)} {R o : ℝ}
    {into cmd : JointCommand ℝ} (hinto : CommandWithin nodes (R + o) into) (hcmd : CommandWithin nodes R cmd)
    (hR : 0 ≤ R) {offset : ℝ} (hoffset : |offset| ≤ o) (index ii : ℕ) (names : List String) :
    CommandWithin nodes (R + o)
      { name := names
        position := into.position.set index (cmd.position.getD ii 0 + offset)
        velocity := into.velocity.set index (cmd.velocity.getD ii 0)
        effort := into.effort.set index (cmd.effort.getD ii 0)
        stiffness := into.stiffness.set index (cmd.stiffness.getD ii 0)
        damping := into.damping.set index (cmd.damping.getD ii 0) } := by
  have hposition : |cmd.position.getD ii 0| ≤ R :=
    getD_of_forall (P := fun x => |x| ≤ R) hcmd.position (by rwa [abs_zero]) ii
  refine ⟨set_of_forall hinto.position ?_ index, set_of_forall hinto.velocity ?_ index,
    set_of_forall hinto.effort ?_ index, set_of_forall hinto.stiffness ?_ index,
    set_of_forall hinto.damping ?_ index⟩
  · exact (abs_add_le _ _).trans (add_le_add hposition hoffset)
  · exact getD_of_forall hcmd.velocity rfl ii
  · exact getD_of_forall hcmd.effort rfl ii
  · exact getD_of_forall hcmd.stiffness (.inl rfl) ii
  · exact getD_of_forall hcmd.damping (.inl rfl) ii

namespace ControlModule
variable {conf : Config ℝ} {Q : ℝ} {m n : ControlModule ℝ}

structure Contained (conf : Config ℝ) (Q : ℝ) (m : ControlModule ℝ) : Prop where
  controllers : m.Every fun _ => conf.Contains (Q + conf.offsetSum)
  offsets : (m.jointOffsetMap.map fun e => |e.2|).sum = conf.offsetSum
  cmdMsg : CommandWithin (conf.controllers.map Prod.snd) (conf.reach Q) m.cmdMsg

theorem offsetSum_nonneg (conf : Config ℝ) : 0 ≤ conf.offsetSum := by
  refine List.sum_nonneg fun x hx => ?_
  obtain ⟨e, _, rfl⟩ := List.mem_map.mp hx
  exact abs_nonneg _

theorem reach_nonneg (conf : Config ℝ) (Q : ℝ) : 0 ≤ conf.reach Q :=
  add_nonneg (largest_nonneg _) (offsetSum_nonneg conf)

theorem abs_offset_le (offsets : List (String × ℝ)) (name : String) :
    |(offsets.lookup name).getD 0| ≤ (offsets.map fun e => |e.2|).sum := by
  have hnonneg : ∀ x ∈ offsets.map fun e => |e.2|, 0 ≤ x := by
    intro x hx
    obtain ⟨e, _, rfl⟩ := List.mem_map.mp hx
    exact abs_nonneg _
  cases hlookup : offsets.lookup name with
  | none =>
    rw [Option.getD_none, abs_zero]
    exact List.sum_nonneg hnonneg
  | some offset =>
    have hmem := List.mem_map_of_mem (f := fun e : String × ℝ => |e.2|)
      (AssociationList.mem_of_lookup hlookup)
    exact List.single_le_sum hnonneg _ hmem

theorem Contained.mergeJoint (h : m.Contained conf Q) {cmd : JointCommand ℝ} {R : ℝ} (hR : 0 ≤ R)
    (hreach : R + conf.offsetSum = conf.reach Q)
    (hcmd : CommandWithin (conf.controllers.map Prod.snd) R cmd) (ii : ℕ) (name : String) :
    (m.mergeJoint cmd ii name).Contained conf Q := by
  refine ⟨h.controllers, ?_, ?_⟩
  · unfold ControlModule.mergeJoint
    dsimp only
    split_ifs
    · exact h.offsets
    · simp [h.offsets]
  · have hinto := h.cmdMsg
    rw [← hreach] at hinto ⊢
    exact hinto.mergeEntry hcmd hR ((abs_offset_le _ _).trans_eq h.offsets) _ ii _

theorem Contained.merge (h : m.Contained conf Q) {cmd : JointCommand ℝ} {R : ℝ} (hR : 0 ≤ R)
    (hreach : R + conf.offsetSum = conf.reach Q)
    (hcmd : CommandWithin (conf.controllers.map Prod.snd) R cmd) : (m.merge cmd).Contained conf Q :=
  Runs.foldl_invariant (mergeIndexed cmd) (ControlModule.Contained conf Q) h
    (fun _ e hm => hm.mergeJoint hR hreach hcmd e.2 e.1) cmd.name.zipIdx

theorem subtracted_of_forall {indices : IndexMap} {es : List (String × ℝ)} {msg msg' : JointState ℝ}
    (h : es.foldlM (subtractOne indices) msg = some msg') {Q : ℝ} (hQ : 0 ≤ Q)
    (hmsg : ∀ x ∈ msg.position, |x| ≤ Q) :
    ∀ x ∈ msg'.position, |x| ≤ Q + (es.map fun e => |e.2|).sum := by
  induction es generalizing msg Q with
  | nil =>
    cases h
    simpa using hmsg
  | cons e es ih =>
    rw [List.foldlM_cons] at h
    obtain ⟨msg₁, hsubtract, h⟩ := Option.bind_eq_some_iff.mp h
    obtain ⟨i, _, rfl⟩ := Option.map_eq_some_iff.mp hsubtract
    have hread : |readAt msg.position i| ≤ Q :=
      readAt_of_forall (P := fun x => |x| ≤ Q) hmsg (by rwa [abs_zero]) i
    have hlarger : ∀ x ∈ msg.position, |x| ≤ Q + |e.2| :=
      fun x hx => (hmsg x hx).trans (le_add_of_nonneg_right (abs_nonneg _))
    have hrest := ih h (add_nonneg hQ (abs_nonneg e.2)) <|
      writeAt_of_forall (P := fun x => |x| ≤ Q + |e.2|) hlarger
        ((abs_sub _ _).trans (add_le_add_left hread _)) i
    rw [List.map_cons, List.sum_cons, ← add_assoc]
    exact hrest

theorem contained_forwardJointState (hQ : 0 ≤ Q) {msg : JointState ℝ}
    (hmsg : ∀ x ∈ msg.position, |x| ≤ Q) (names : List String)
    (h : m.Every fun _ => conf.Contains Q) :
    (forwardJointState msg names m).Every fun _ => conf.Contains Q := by
  induction names generalizing m with
  | nil => exact h
  | cons name names ih =>
    simp only [ControlModule.forwardJointState]
    split
    · exact h
    next c hc =>
      obtain ⟨e, he, hcontained⟩ := h name c hc
      have hstored := hcontained.base.setJointStateData hQ hmsg m.jointStateIndexMap
      have hnext : (c.withBase fun _ =>
          (c.base.setJointStateData msg m.jointStateIndexMap).2).Contained Q e.2 :=
        hcontained.withBase hstored
      have hset : (m.setController name _).Every fun _ => conf.Contains Q :=
        h.setController ⟨e, he, hnext⟩ fun _ _ _ hother => hother
      split_ifs
      · exact ih hset
      · exact hset

theorem Contained.onJointState (h : m.Contained conf Q) (hQ : 0 ≤ Q) {msg : JointState ℝ}
    (hmsg : ∀ x ∈ msg.position, |x| ≤ Q) :
    (m.onJointState msg).Every fun _ => conf.Contains (Q + conf.offsetSum) := by
  have hnote : (m.noteIndices msg).controllerMap = m.controllerMap ∧
      (m.noteIndices msg).jointOffsetMap = m.jointOffsetMap := by
    unfold ControlModule.noteIndices
    dsimp only
    split_ifs <;> exact ⟨rfl, rfl⟩
  have hevery := h.controllers.of_map hnote.1
  unfold ControlModule.onJointState
  dsimp only
  cases hsubtract : (m.noteIndices msg).subtractOffsets msg with
  | none => exact hevery
  | some msg' =>
    rw [subtractOffsets_eq, hnote.2] at hsubtract
    have hmsg' := subtracted_of_forall hsubtract hQ hmsg
    rw [h.offsets] at hmsg'
    exact contained_forwardJointState (add_nonneg hQ (offsetSum_nonneg conf)) hmsg' _ hevery

def MeasuredWithin (Q : ℝ) : Reception.Callback ℝ → Prop
  | .jointState msg => ∀ x ∈ msg.position, |x| ≤ Q
  | _ => True

theorem Contained.handle (h : m.Contained conf Q) (hQ : 0 ≤ Q) {c : Reception.Callback ℝ}
    (hc : MeasuredWithin Q c) (hn : m.handle c = some n) : n.Contained conf Q := by
  have hsame := sameOutput_handle hn
  refine ⟨?_, hsame.offsets ▸ h.offsets, hsame.cmdMsg ▸ h.cmdMsg⟩
  cases c with
  | trigger now topic =>
    refine h.controllers.trigger (fun name c hcontained => ?_) hn
    obtain ⟨e, he, hcontained⟩ := hcontained
    exact ⟨e, he, hcontained.restartController⟩
  | cmdVel joy =>
    refine h.controllers.forEach (fun name c hcontained => ?_) hn
    obtain ⟨e, he, hcontained⟩ := hcontained
    have hbase := hcontained.base
    exact ⟨e, he, hcontained.withBase
      ⟨hbase.initState, hbase.stiffness, hbase.damping, hbase.measured⟩⟩
  | imu imu =>
    refine h.controllers.forEach (fun name c hcontained => ?_) hn
    obtain ⟨e, he, hcontained⟩ := hcontained
    have hbase := hcontained.base
    exact ⟨e, he, hcontained.withBase
      ⟨hbase.initState, hbase.stiffness, hbase.damping, hbase.measured⟩⟩
  | jointState msg =>
    cases hn
    exact h.onJointState hQ hc

theorem contained_at_start {firstEntry : List String → ℕ} {now : ℤ} (hQ : 0 ≤ Q)
    (htuned : ∀ e ∈ conf.controllers, ∀ walk, e.2.walk = some walk → walk.Tuned)
    (hm : initializeModule firstEntry now conf = some m) : m.Contained conf Q := by
  have hnonneg := add_nonneg hQ (offsetSum_nonneg conf)
  have hcontrollers : m.Every fun _ => conf.Contains (Q + conf.offsetSum) := by
    intro name c hc
    obtain ⟨node, hnode, hmake⟩ := made_at_start hm hc
    exact ⟨(name, node), hnode, Controller.contained_make hnonneg (htuned _ hnode) hmake⟩
  obtain ⟨machine, _, hm⟩ := Option.bind_eq_some_iff.mp hm
  obtain ⟨controllers, _, rfl⟩ := Option.map_eq_some_iff.mp hm
  refine ⟨hcontrollers, rfl, fun x hx => ?_, fun _ => List.eq_of_mem_replicate,
    fun _ => List.eq_of_mem_replicate, fun _ hx => .inl (List.eq_of_mem_replicate hx),
    fun _ hx => .inl (List.eq_of_mem_replicate hx)⟩
  rw [List.eq_of_mem_replicate hx, abs_zero]
  exact reach_nonneg conf Q

end ControlModule

namespace Cycling
variable {conf : Config ℝ} {Q : ℝ} {s t : Cycling ℝ}

structure Contained (conf : Config ℝ) (Q : ℝ) (s : Cycling ℝ) : Prop where
  module : s.module.Contained conf Q
  published : ∀ c ∈ s.cycles, CommandWithin (conf.controllers.map Prod.snd) (conf.reach Q) c.published

def MeasuredWithin (Q : ℝ) : Action ℝ → Prop
  | .callback c => ControlModule.MeasuredWithin Q c
  | _ => True

theorem Contained.step {io : Platform ℝ} (h : s.Contained conf Q) (hQ : 0 ≤ Q)
    (htuned : ∀ e ∈ conf.controllers, ∀ walk, e.2.walk = some walk → walk.Tuned) {a : Action ℝ}
    (ha : MeasuredWithin Q a) (hstep : s.step io a = some t) : t.Contained conf Q := by
  have hnonneg := add_nonneg hQ (ControlModule.offsetSum_nonneg conf)
  have hset {name : String} {c : Controller ℝ} (hc : conf.Contains (Q + conf.offsetSum) c) :
      (s.module.setController name c).Contained conf Q :=
    ⟨h.module.controllers.setController hc fun _ _ _ hother => hother, h.module.offsets,
      h.module.cmdMsg⟩
  cases a with
  | wake active =>
    obtain ⟨_, rfl⟩ := wake_cases hstep
    exact ⟨h.module, h.published⟩
  | callback c =>
    obtain ⟨n, hn, rfl⟩ := Option.map_eq_some_iff.mp hstep
    exact ⟨h.module.handle hQ ha hn, h.published⟩
  | loop =>
    obtain ⟨name, rest, c, _, hc, rfl⟩ | ⟨name, rest, c, _, hc, rfl⟩ | ⟨_, rfl⟩ := loop_cases hstep
    · obtain ⟨e, he, hcontained⟩ := h.module.controllers name c hc
      exact ⟨hset ⟨e, he, hcontained.update hnonneg (htuned e he) io⟩, h.published⟩
    · obtain ⟨e, he, hcontained⟩ := h.module.controllers name c hc
      obtain ⟨hnext, hposition⟩ := hcontained.getJointCmdData hnonneg (htuned e he)
      have hreach := (le_abs_self _).trans <| abs_le_largest <|
        List.mem_map_of_mem (f := fun e => e.2.reach (Q + conf.offsetSum)) he
      have hcmd := hcontained.commanded (List.mem_map_of_mem he) fun x hx =>
        (hposition x hx).trans hreach
      exact ⟨(hset ⟨e, he, hnext⟩).merge (largest_nonneg _) rfl hcmd, h.published⟩
    · refine ⟨⟨h.module.controllers, h.module.offsets, h.module.cmdMsg⟩, fun c hc => ?_⟩
      rcases List.mem_append.mp hc with hc | hc
      · exact h.published c hc
      · rw [List.mem_singleton.mp hc]
        exact h.module.cmdMsg

section Pacing

noncomputable def pacingConfig : Config ℝ :=
  let walk : RLConf ℝ :=
    { actionScale := 1, decimation := 1, swMode := false, cmdThreshold := 0, loopDt := 1
      angVelScale := 1, dofPosScale := 1, dofVelScale := 1, actionsSize := 1
      observationsSize := 15, numHist := 1, observationsClip := 1, actionsClip := 1
      estSize := 1, gaitFreq := 1, gaitOffset := 0, gaitDuration := 1, gaitSwingHeight := 0
      lpfWc := 1, lpfTs := 1, encoder := fun obs => [obs.sum]
      policy := fun obs => [obs.sum * obs.sum] }
  { robotStates := [⟨"walk", "/walk_mode", ["walk"], ["rl_walk"]⟩]
    controllers := [("rl_walk", ⟨["knee"], [1], [1], [1], none, some walk⟩)]
    jointList := ["knee"]
    jointOffset := [("knee", 1)] }

theorem pacing_initializes :
    (ControlModule.initializeModule (fun _ => 0) 0 pacingConfig).isSome = true := by
  decide +kernel

noncomputable def pacer : ControlModule ℝ :=
  (ControlModule.initializeModule (fun _ => 0) 0 pacingConfig).get pacing_initializes

noncomputable def pace : List (Action ℝ) :=
  [.callback (.jointState ⟨["knee"], [1], [0], [0]⟩), .wake ["rl_walk"], .loop, .loop, .loop]

theorem pace_runs : (Runs.exec (step Platform.real) (boot pacer) pace).isSome = true := by
  decide +kernel

end Pacing
end Cycling
end MybipedalDeploy.Control
