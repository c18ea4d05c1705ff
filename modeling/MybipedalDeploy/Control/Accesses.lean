import MybipedalDeploy.Control.History
import MybipedalDeploy.Control.JointStates

/-!
# What the controllers read and write

The entries each method of a controller touches, in its loops' own ranges, and the sizes
of the arrays. No method compares a size, so the entries lie inside exactly if the sizes
of the configuration fit each other.
-/

namespace MybipedalDeploy.Control
open Msg (Twist JointState)

/-- A controller that is called, or an entry of an array of so many. -/
inductive Access
  | controller (constructed : Bool)
  | entry (index : ℤ) (size : ℕ)
  deriving DecidableEq

namespace Access

def Valid : Access → Prop
  | .controller constructed => constructed = true
  | .entry index size => 0 ≤ index ∧ index < size

instance : (a : Access) → Decidable a.Valid
  | .controller constructed => inferInstanceAs (Decidable (constructed = true))
  | .entry index size => inferInstanceAs (Decidable (0 ≤ index ∧ index < size))

def entries (n size : ℕ) : List Access := (List.range n).map fun i : ℕ => .entry i size

def AllValid (as : List Access) : Prop := ∀ a ∈ as, a.Valid

instance (as : List Access) : Decidable (AllValid as) :=
  inferInstanceAs (Decidable (∀ a ∈ as, a.Valid))

@[simp] theorem allValid_nil : AllValid [] := fun _ ha => nomatch ha

@[simp] theorem allValid_append {as bs : List Access} :
    AllValid (as ++ bs) ↔ AllValid as ∧ AllValid bs :=
  List.forall_mem_append

@[simp] theorem allValid_cons {a : Access} {as : List Access} :
    AllValid (a :: as) ↔ a.Valid ∧ AllValid as :=
  List.forall_mem_cons

@[simp] theorem allValid_entries {n size : ℕ} : AllValid (entries n size) ↔ n ≤ size := by
  unfold AllValid entries
  rw [List.forall_mem_map]
  constructor
  · intro h
    by_contra hlt
    have hlast := (h size (List.mem_range.mpr (by omega))).2
    omega
  · intro h i hi
    have hlt := List.mem_range.mp hi
    exact ⟨by omega, by omega⟩

end Access

open Access (entries AllValid)

namespace PDController
variable {K : Type*}

def Allocated (c : PDController K) : Prop :=
  c.startJointAngles.length = c.base.jointNames.length

def commandAccesses (c : PDController K) : List Access :=
  let n := c.base.jointNames.length
  entries n c.startJointAngles.length ++
  (if c.isKeepController then [] else entries n c.base.initState.length) ++
  entries n c.base.stiffness.length ++ entries n c.base.damping.length

def CommandFits (c : PDController K) : Prop :=
  (c.isKeepController = false → c.base.jointNames.length ≤ c.base.initState.length) ∧
    c.base.jointNames.length ≤ c.base.stiffness.length ∧
    c.base.jointNames.length ≤ c.base.damping.length

theorem commandAccesses_valid_iff {c : PDController K} (h : c.Allocated) :
    AllValid c.commandAccesses ↔ c.CommandFits := by
  unfold commandAccesses CommandFits
  unfold Allocated at h
  cases hkeep : c.isKeepController with
  | true => simp [h]
  | false => simp [h]

end PDController

namespace RLController
variable {K : Type*}

/-- The sizes `Init` gives the arrays. -/
structure Allocated (c : RLController K) : Prop where
  actions : c.actions.length = c.conf.actionsSize
  lastActions : c.lastActions.length = c.conf.actionsSize
  singleObs : c.singleObs.length = c.conf.observationsSize
  encoderInput : c.encoderInput.length = c.conf.observationsSize * c.conf.numHist
  history : c.propriHistoryBuffer.length = c.conf.observationsSize * c.conf.numHist
  jointPos : c.propri.jointPos.length = c.conf.actionsSize
  jointVel : c.propri.jointVel.length = c.conf.actionsSize
  filters : c.lowPassFilters.length = c.conf.actionsSize

def estimationAccesses (c : RLController K) : List Access :=
  let n := c.conf.actionsSize
  entries n c.base.jointNames.length ++
  entries n c.propri.jointPos.length ++ entries n c.base.jointStateData.position.length ++
  entries n c.propri.jointVel.length ++ entries n c.base.jointStateData.velocity.length

def firstFrameAccesses (c : RLController K) : List Access :=
  let n := c.base.jointNames.length
  entries n c.lowPassFilters.length ++ entries n c.propri.jointPos.length ++
  entries (c.conf.observationsSize * c.conf.numHist) c.propriHistoryBuffer.length

def historyAccesses (c : RLController K) : List Access :=
  let size := c.propriHistoryBuffer.length
  ((List.range c.conf.observationsSize).map fun i : ℕ =>
    .entry ((size : ℤ) - c.conf.observationsSize + i) size) ++
  entries (c.conf.observationsSize * c.conf.numHist) size ++
  entries (c.conf.observationsSize * c.conf.numHist) c.encoderInput.length

section Field
variable [Field K] [LinearOrder K] (io : Platform K)

def observationAccesses (c : RLController K) : List Access :=
  let n := c.conf.actionsSize
  entries c.conf.frameSize c.singleObs.length ++
  entries n c.propri.jointPos.length ++ entries n c.base.initState.length ++
  entries n c.propri.jointVel.length ++ entries n c.lastActions.length ++
  (if c.isFirstFrame then c.firstFrameAccesses else []) ++ c.historyAccesses

def actionAccesses (c : RLController K) : List Access :=
  entries c.conf.observationsSize c.singleObs.length ++
  entries c.conf.actionsSize (c.conf.policy (c.update io).actorInput).length ++
  entries c.conf.actionsSize c.actions.length

def updateAccesses (c : RLController K) : List Access :=
  c.estimationAccesses ++
  if c.computes then c.observationAccesses ++ c.actionAccesses io else []

end Field

def traceAccesses (c : RLController K) : List Access :=
  let rest := c.conf.estSize + 3 + c.conf.actionsSize
  if c.computes then entries (c.conf.observationsSize + rest) (c.conf.frameSize + rest) else []

def TraceFits (c : RLController K) : Prop :=
  c.computes = true → c.conf.observationsSize ≤ c.conf.frameSize

theorem traceAccesses_valid_iff (c : RLController K) :
    AllValid c.traceAccesses ↔ c.TraceFits := by
  unfold traceAccesses TraceFits
  cases c.computes with
  | false => simp
  | true => simp

def commandAccesses (c : RLController K) : List Access :=
  let n := c.conf.actionsSize
  entries n c.actions.length ++ entries n c.base.initState.length ++
  entries n c.base.stiffness.length ++ entries n c.base.damping.length ++
  entries n c.lowPassFilters.length ++ entries n c.base.jointNames.length ++
  entries n c.lastActions.length

/-- The controller has a joint for each action and, when it makes an observation,
room for the frame, a history and enough actions of the policy. -/
def UpdateFits (c : RLController K) : Prop :=
  c.conf.actionsSize ≤ c.base.jointNames.length ∧
    (c.computes = true → c.conf.frameSize ≤ c.conf.observationsSize ∧
      c.conf.actionsSize ≤ c.base.initState.length ∧ 1 ≤ c.conf.numHist ∧
      (∀ x, c.conf.actionsSize ≤ (c.conf.policy x).length) ∧
      (c.isFirstFrame = true → c.base.jointNames.length ≤ c.conf.actionsSize))

def CommandFits (c : RLController K) : Prop :=
  c.conf.actionsSize ≤ c.base.initState.length ∧ c.conf.actionsSize ≤ c.base.stiffness.length ∧
    c.conf.actionsSize ≤ c.base.damping.length ∧ c.conf.actionsSize ≤ c.base.jointNames.length

theorem commandAccesses_valid_iff {c : RLController K} (h : c.Allocated) :
    AllValid c.commandAccesses ↔ c.CommandFits := by
  unfold commandAccesses CommandFits
  simp [h.actions, h.lastActions, h.filters]

theorem firstFrameAccesses_valid_iff {c : RLController K} (h : c.Allocated) :
    AllValid c.firstFrameAccesses ↔ c.base.jointNames.length ≤ c.conf.actionsSize := by
  unfold firstFrameAccesses
  simp [h.filters, h.jointPos, h.history]

theorem historyAccesses_valid_iff {c : RLController K} (h : c.Allocated)
    (hobs : 1 ≤ c.conf.observationsSize) : AllValid c.historyAccesses ↔ 1 ≤ c.conf.numHist := by
  unfold historyAccesses
  simp only [h.history, h.encoderInput, Access.allValid_append, Access.allValid_entries, le_refl,
    and_true]
  unfold AllValid
  rw [List.forall_mem_map]
  constructor
  · intro hall
    by_contra hlt
    obtain hzero : c.conf.numHist = 0 := by omega
    have hfirst := (hall 0 (List.mem_range.mpr hobs)).1
    rw [hzero] at hfirst
    omega
  · intro hhist i hi
    have hlt := List.mem_range.mp hi
    have hle : c.conf.observationsSize ≤ c.conf.observationsSize * c.conf.numHist :=
      Nat.le_mul_of_pos_right _ hhist
    constructor <;> omega

section Field
variable [Field K] {io : Platform K}

theorem length_historyOf {c : RLController K}
    (hhistory : c.propriHistoryBuffer.length = c.conf.observationsSize * c.conf.numHist)
    (hhist : 1 ≤ c.conf.numHist)
    (hunclipped : (c.unclipped io).length = c.conf.observationsSize) :
    (c.historyOf io).length = c.conf.observationsSize * c.conf.numHist := by
  have hbuffer : (if c.isFirstFrame then
      (List.replicate c.conf.numHist (c.unclipped io)).flatten else c.propriHistoryBuffer).length =
      c.conf.observationsSize * c.conf.numHist := by
    cases c.isFirstFrame with
    | true => simp [hunclipped, mul_comm]
    | false => exact hhistory
  have hle : c.conf.observationsSize ≤ c.conf.observationsSize * c.conf.numHist :=
    Nat.le_mul_of_pos_right _ hhist
  rw [historyOf, SlidingWindow.push, List.length_append, List.length_drop, hbuffer, hunclipped]
  omega

variable [LinearOrder K]

theorem updateAccesses_valid_iff {c : RLController K} (h : c.Allocated)
    (hshaped : c.base.Shaped c.base.jointNames)
    (hfixed : ∀ x y, (c.conf.policy x).length = (c.conf.policy y).length) :
    AllValid (c.updateAccesses io) ↔ c.UpdateFits := by
  have hestimation : AllValid c.estimationAccesses ↔
      c.conf.actionsSize ≤ c.base.jointNames.length := by
    unfold estimationAccesses
    simp [h.jointPos, h.jointVel, hshaped.position, hshaped.velocity]
  have haction : AllValid (c.actionAccesses io) ↔
      ∀ x, c.conf.actionsSize ≤ (c.conf.policy x).length := by
    unfold actionAccesses
    simp only [h.singleObs, h.actions, Access.allValid_append, Access.allValid_entries, le_refl,
      true_and, and_true]
    exact ⟨fun hle x => (hfixed x _).symm ▸ hle, fun hall => hall _⟩
  have hobservation : AllValid c.observationAccesses ↔
      c.conf.frameSize ≤ c.conf.observationsSize ∧
      c.conf.actionsSize ≤ c.base.initState.length ∧
      (c.isFirstFrame = true → c.base.jointNames.length ≤ c.conf.actionsSize) ∧
      AllValid c.historyAccesses := by
    unfold observationAccesses
    cases hfirst : c.isFirstFrame with
    | true =>
      simp [h.singleObs, h.jointPos, h.jointVel, h.lastActions, firstFrameAccesses_valid_iff h]
    | false => simp [h.singleObs, h.jointPos, h.jointVel, h.lastActions]
  unfold updateAccesses UpdateFits
  rw [Access.allValid_append, hestimation]
  apply and_congr_right
  intro _
  cases c.computes with
  | false => simp
  | true =>
    simp only [if_true, Access.allValid_append, hobservation, haction, true_implies]
    constructor
    · rintro ⟨⟨hframe, hinit, hfirst, hhistory⟩, hpolicy⟩
      have hobs : 1 ≤ c.conf.observationsSize := by
        unfold RLConf.frameSize at hframe
        omega
      exact ⟨hframe, hinit, (historyAccesses_valid_iff h hobs).mp hhistory, hpolicy, hfirst⟩
    · rintro ⟨hframe, hinit, hhist, hpolicy, hfirst⟩
      have hobs : 1 ≤ c.conf.observationsSize := by
        unfold RLConf.frameSize at hframe
        omega
      exact ⟨⟨hframe, hinit, hfirst, (historyAccesses_valid_iff h hobs).mpr hhist⟩, hpolicy⟩

theorem length_unclipped (io : Platform K) {c : RLController K} (h : c.Allocated)
    (hframe : c.conf.frameSize ≤ c.conf.observationsSize)
    (hinit : c.conf.actionsSize ≤ c.base.initState.length) :
    ((c.updateStateEstimation io c.base.imuData).unclipped io).length =
      c.conf.observationsSize := by
  have hlast : (if c.isFirstFrame then zeros c.conf.actionsSize else c.lastActions).length =
      c.conf.actionsSize := by
    cases c.isFirstFrame with
    | true => simp [zeros]
    | false => exact h.lastActions
  have hlength := length_frame io hinit hlast c.base.imuData
    ((c.updateStateEstimation io c.base.imuData).stepPhase io)
  have hsingle : (c.updateStateEstimation io c.base.imuData).singleObs.length =
      c.conf.observationsSize := h.singleObs
  unfold unclipped
  dsimp only
  rw [List.length_append, List.length_drop, hsingle]
  exact hlength.symm ▸ Nat.add_sub_of_le hframe

theorem Allocated.update {c : RLController K} (h : c.Allocated) (hfits : c.UpdateFits) :
    (c.update io).Allocated := by
  cases hc : c.computes with
  | false =>
    rw [update_unobserved io hc]
    exact ⟨h.actions, h.lastActions, h.singleObs, h.encoderInput, h.history,
      length_readN _ _, length_readN _ _, h.filters⟩
  | true =>
    obtain ⟨hframe, hinit, hhist, _⟩ := hfits.2 hc
    have hunclipped := length_unclipped io h hframe hinit
    have hhistory := length_historyOf (c := c.updateStateEstimation io c.base.imuData) h.history
      hhist hunclipped
    have hobs := (c.updateStateEstimation io c.base.imuData).observed_computeObservation io
      c.base.joyData
    rw [update_observed io (s := c.base.sample) (if_pos hc)]
    change Observed io _ ((c.updateStateEstimation io c.base.sample.imu).computeObservation io
      c.base.sample.velocity) c.base.joyData at hobs
    generalize (c.updateStateEstimation io c.base.sample.imu).computeObservation io
      c.base.sample.velocity = d at hobs ⊢
    have hconf : d.conf = c.conf := hobs.conf
    constructor
    · simp only [countLoop, computeActions, List.length_map, length_readN]
    · simp only [countLoop, computeActions, hconf, hobs.lastActions]
      exact h.lastActions
    · simp only [countLoop, computeActions, hconf, hobs.singleObs, List.length_map]
      exact hunclipped
    · simp only [countLoop, computeActions, hconf, hobs.encoderInput]
      exact hhistory
    · simp only [countLoop, computeActions, hconf, hobs.propriHistoryBuffer]
      exact hhistory
    · simp only [countLoop, computeActions, hconf, hobs.propri]
      exact length_readN _ _
    · simp only [countLoop, computeActions, hconf, hobs.propri]
      exact length_readN _ _
    · simp only [countLoop, computeActions, hconf, hobs.filters]
      exact h.filters

end Field

theorem Allocated.getJointCmdData [Field K] {c : RLController K} (h : c.Allocated)
    (hinit : c.conf.actionsSize ≤ c.base.initState.length) :
    c.getJointCmdData.2.Allocated where
  actions := h.actions
  lastActions := h.actions
  singleObs := h.singleObs
  encoderInput := h.encoderInput
  history := h.history
  jointPos := h.jointPos
  jointVel := h.jointVel
  filters := by
    simp only [RLController.getJointCmdData, List.length_zipWith, h.filters, h.actions,
      min_eq_left hinit, min_self]

theorem Allocated.restartController [Zero K] {c : RLController K} (h : c.Allocated) :
    c.restartController.Allocated where
  actions := List.length_replicate.trans h.actions
  lastActions := List.length_replicate.trans h.lastActions
  singleObs := h.singleObs
  encoderInput := h.encoderInput
  history := h.history
  jointPos := h.jointPos
  jointVel := h.jointVel
  filters := h.filters

theorem allocated_new [Field K] (base : ControllerBase K) (conf : RLConf K) :
    (RLController.new base conf).Allocated := by
  constructor <;> simp [RLController.new, zeros]

end RLController

namespace Controller
variable {K : Type*}

/-- As `Init` left it: arrays of their sizes, and a policy whose answers have one size. -/
structure Built (c : Controller K) : Prop where
  shaped : c.base.Shaped c.base.jointNames
  allocated : match c with
    | .pd c => c.Allocated
    | .rl c => c.Allocated ∧ ∀ x y, (c.conf.policy x).length = (c.conf.policy y).length

def commandAccesses : Controller K → List Access
  | .pd c => c.commandAccesses
  | .rl c => c.commandAccesses

def traceAccesses : Controller K → List Access
  | .pd _ => []
  | .rl c => c.traceAccesses

def TraceFits : Controller K → Prop
  | .pd _ => True
  | .rl c => c.TraceFits

def UpdateFits : Controller K → Prop
  | .pd _ => True
  | .rl c => c.UpdateFits

def CommandFits : Controller K → Prop
  | .pd c => c.CommandFits
  | .rl c => c.CommandFits

theorem commandAccesses_valid_iff {c : Controller K} (h : c.Built) :
    AllValid c.commandAccesses ↔ c.CommandFits := by
  cases c with
  | pd c => exact c.commandAccesses_valid_iff h.allocated
  | rl c => exact c.commandAccesses_valid_iff h.allocated.1

theorem traceAccesses_valid_iff (c : Controller K) :
    AllValid c.traceAccesses ↔ c.TraceFits := by
  cases c with
  | pd c => simp [traceAccesses, TraceFits]
  | rl c => exact c.traceAccesses_valid_iff

theorem Built.withBase {c : Controller K} (h : c.Built)
    {f : ControllerBase K → ControllerBase K} (hnames : (f c.base).jointNames = c.base.jointNames)
    (hshaped : (f c.base).Shaped c.base.jointNames) : (c.withBase f).Built where
  shaped := by
    rw [base_withBase, hnames]
    exact hshaped
  allocated := by
    have hallocated := h.allocated
    cases c with
    | pd c =>
      change c.startJointAngles.length = (f c.base).jointNames.length
      have hsame : (f c.base).jointNames = c.base.jointNames := hnames
      rw [hsame]
      exact hallocated
    | rl c =>
      obtain ⟨⟨h₁, h₂, h₃, h₄, h₅, h₆, h₇, h₈⟩, hfixed⟩ := hallocated
      exact ⟨⟨h₁, h₂, h₃, h₄, h₅, h₆, h₇, h₈⟩, hfixed⟩

theorem Built.restartController [Zero K] {c : Controller K} (h : c.Built) :
    c.restartController.Built where
  shaped := by
    rw [base_restartController]
    exact h.shaped
  allocated := by
    cases c with
    | pd c => exact h.shaped.position
    | rl c => exact ⟨h.allocated.1.restartController, h.allocated.2⟩

variable [Field K]

theorem built_make {name : String} {node : ControllerNode K} {c : Controller K}
    (h : make name node = some c)
    (hfixed : ∀ conf, node.walk = some conf → ∀ x y,
      (conf.policy x).length = (conf.policy y).length) : c.Built := by
  unfold make at h
  split_ifs at h
  · obtain ⟨conf, hconf, rfl⟩ := Option.map_eq_some_iff.mp h
    exact ⟨by constructor <;> simp [base, RLController.new, ControllerBase.new, zeros],
      RLController.allocated_new _ conf, hfixed conf hconf⟩
  · cases h
    refine ⟨?_, ?_⟩
    · constructor <;> simp [base, PDController.new, ControllerBase.new, zeros]
    · simp [PDController.new, PDController.Allocated, ControllerBase.new, zeros]

theorem Built.getJointCmdData {c : Controller K} (h : c.Built) (hfits : c.CommandFits) :
    c.getJointCmdData.2.Built where
  shaped := by
    rw [base_getJointCmdData]
    exact h.shaped
  allocated := by
    cases c with
    | pd c => exact h.allocated
    | rl c => exact ⟨h.allocated.1.getJointCmdData hfits.1, h.allocated.2⟩

variable [LinearOrder K] (io : Platform K)

def updateAccesses : Controller K → List Access
  | .pd _ => []
  | .rl c => c.updateAccesses io

theorem updateAccesses_valid_iff {c : Controller K} (h : c.Built) :
    AllValid (c.updateAccesses io) ↔ c.UpdateFits := by
  cases c with
  | pd c => simp [updateAccesses, UpdateFits]
  | rl c => exact c.updateAccesses_valid_iff h.allocated.1 h.shaped h.allocated.2

theorem Built.update {c : Controller K} (h : c.Built) (hfits : c.UpdateFits) :
    (c.update io).Built where
  shaped := by
    rw [base_update]
    exact h.shaped
  allocated := by
    cases c with
    | pd c =>
      have hkeeps : c.update.startJointAngles = c.startJointAngles ∧ c.update.base = c.base := by
        unfold PDController.update
        split_ifs <;> exact ⟨rfl, rfl⟩
      change c.update.startJointAngles.length = c.update.base.jointNames.length
      rw [hkeeps.1, hkeeps.2]
      exact h.allocated
    | rl c =>
      refine ⟨h.allocated.1.update hfits, ?_⟩
      rw [RLController.conf_update]
      exact h.allocated.2

end Controller
end MybipedalDeploy.Control
