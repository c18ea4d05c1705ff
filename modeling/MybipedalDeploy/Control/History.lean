import Mathlib.Data.Rat.Floor
import MybipedalDeploy.Control.LatestCommand
import MybipedalDeploy.Library.FractionalPart
import MybipedalDeploy.Library.SlidingWindow

/-!
# What the networks are given

Runs of the learned controller: messages, restarts and cycles of `MainLoop`, each an
update and the command taken after it. The inferences since the last restart are
recorded, and each was given the frames of those before it and nothing older.
-/

namespace MybipedalDeploy.Control
open Msg (Twist Imu JointState)
open Reception (forward)
open SlidingWindow (window push)
open FractionalPart (frac frac_zero frac_step)

inductive Message (K : Type*)
  | cmdVel (joy : Twist K)
  | imu (data : Imu K)
  | jointState (msg : JointState K) (indices : IndexMap)

def Message.store {K : Type*} [Zero K] (b : ControllerBase K) : Message K → ControllerBase K
  | .cmdVel joy => b.setCmdData joy
  | .imu data => b.setImuData data
  | .jointState msg indices => (b.setJointStateData msg indices).2

theorem Message.store_eq {K : Type*} [Zero K] (b : ControllerBase K) (msg : Message K) :
    ∃ joy imu data, msg.store b =
      { b with joyData := joy, imuData := imu, jointStateData := data } := by
  cases msg with
  | cmdVel joy => exact ⟨joy, b.imuData, b.jointStateData, rfl⟩
  | imu data => exact ⟨b.joyData, data, b.jointStateData, rfl⟩
  | jointState msg indices =>
    obtain ⟨data, hdata⟩ := ControllerBase.storeJoints_eq msg indices b.jointNames.zipIdx b
    exact ⟨b.joyData, b.imuData, data, hdata⟩

theorem Message.initState_store {K : Type*} [Zero K] (b : ControllerBase K) (msg : Message K) :
    (msg.store b).initState = b.initState := by
  obtain ⟨joy, imu, data, h⟩ := Message.store_eq b msg
  rw [h]

theorem Message.initState_foldl_store {K : Type*} [Zero K] (msgs : List (Message K))
    (b : ControllerBase K) : (msgs.foldl Message.store b).initState = b.initState := by
  induction msgs generalizing b with
  | nil => rfl
  | cons msg msgs ih => exact (ih _).trans (Message.initState_store b msg)

structure Inference (K : Type*) where
  cycle : ℕ
  base : ControllerBase K
  encoderInput : List K
  actorInput : List K
  actions : List K

/-- The cycles and inferences are those since the last restart. -/
structure Recording (K : Type*) where
  controller : RLController K
  cycles : ℕ
  inferences : List (Inference K)

namespace Recording
variable {K : Type*} [Field K] [LinearOrder K]

/-- Messages may arrive `late`, after the update and before the command is taken. -/
inductive Event (K : Type*)
  | message (msg : Message K)
  | restart
  | cycle (late : List (Message K))

def boot (base : ControllerBase K) (conf : RLConf K) : Recording K := ⟨.new base conf, 0, []⟩

def receive (c : RLController K) (msgs : List (Message K)) : RLController K :=
  { c with base := msgs.foldl Message.store c.base }

def inferred (io : Platform K) (s : Recording K) : Option (Inference K) :=
  if s.controller.computes then
    let c := s.controller.update io
    some ⟨s.cycles, s.controller.base, c.encoderInput, c.actorInput, c.actions⟩
  else none

def act (io : Platform K) (s : Recording K) : Event K → Recording K
  | .message msg => { s with controller := receive s.controller [msg] }
  | .restart => ⟨s.controller.restartController, 0, []⟩
  | .cycle late =>
    { controller := (receive (s.controller.update io) late).getJointCmdData.2
      cycles := s.cycles + 1
      inferences := s.inferences ++ (s.inferred io).toList }

end Recording

def RLController.withPhase {K : Type*} (c : RLController K) (phase : K) : RLController K :=
  { c with gaitIndices := phase }

namespace RLConf
variable {K : Type*} [Field K] [LinearOrder K]

def frameSize (conf : RLConf K) : ℕ := 12 + 3 * conf.actionsSize

def clipObservation (conf : RLConf K) (x : K) : K :=
  min (max x (-conf.observationsClip)) conf.observationsClip

def clipAction (conf : RLConf K) (x : K) : K := max (-conf.actionsClip) (min conf.actionsClip x)

/-- The sizes fit each other; a part of the observation behind the frame stays zero. -/
structure Fits (conf : RLConf K) (base : ControllerBase K) : Prop where
  decimation : 1 ≤ conf.decimation
  numHist : 1 ≤ conf.numHist
  initState : base.initState.length = conf.actionsSize
  observationsSize : conf.frameSize ≤ conf.observationsSize
  clip : conf.frameSize = conf.observationsSize ∨ 0 ≤ conf.observationsClip

def phase [FloorRing K] (conf : RLConf K) (n : ℕ) : K :=
  frac (n * (conf.gaitFreq * (conf.loopDt * conf.decimation)))

variable (io : Platform K) (conf : RLConf K)

def lastOf (infs : List (Inference K)) : ℕ → List K
  | 0 => zeros conf.actionsSize
  | i + 1 => (infs[i]?).elim [] Inference.actions

variable [FloorRing K]

/-- Frame `i`: what a new controller makes of the messages held then, with the actions
of the inference before and the phase of `i + 1` steps. -/
def frameOf (infs : List (Inference K)) (i : ℕ) : List K :=
  (infs[i]?).elim [] fun I =>
    let c := (RLController.new I.base conf).updateStateEstimation io I.base.imuData
    let f := (c.withPhase (conf.phase (i + 1))).frame io (conf.lastOf infs i)
    f ++ zeros (conf.observationsSize - f.length)

/-- What stands where in a frame: the measurements, the actions before it, the phase. -/
structure Entries (base : ControllerBase K) (last : List K) (phase : K) (f : List K) : Prop where
  length : f.length = conf.observationsSize
  angVel : f.take 3 = [base.imuData.angularVelocity.x, base.imuData.angularVelocity.y,
    base.imuData.angularVelocity.z].map (· * conf.angVelScale)
  gravity : (f.drop 3).take 3 = List.ofFn (io.projectedGravity base.imuData.orientation)
  jointPos : (f.drop 6).take conf.actionsSize =
    List.zipWith (fun q q₀ => (q - q₀) * conf.dofPosScale)
      (readN conf.actionsSize base.jointStateData.position) base.initState
  jointVel : (f.drop (6 + conf.actionsSize)).take conf.actionsSize =
    (readN conf.actionsSize base.jointStateData.velocity).map (· * conf.dofVelScale)
  lastActions : (f.drop (6 + 2 * conf.actionsSize)).take conf.actionsSize = last
  gait : (f.drop (6 + 3 * conf.actionsSize)).take 6 =
    [io.sin (2.0 * io.pi * phase), io.cos (2.0 * io.pi * phase), conf.gaitFreq, conf.gaitOffset,
      conf.gaitDuration, conf.gaitSwingHeight]
  rest : f.drop conf.frameSize = zeros (conf.observationsSize - conf.frameSize)

/-- Inference `n` took place in its cycle and was given the history of the frames. -/
structure Follows (infs : List (Inference K)) (n : ℕ) (I : Inference K) : Prop where
  cycle : (I.cycle : ℤ) = n * conf.decimation
  encoderInput : I.encoderInput = window (conf.frameOf io infs) conf.numHist n
  actorInput : I.actorInput = readN conf.estSize (conf.encoder I.encoderInput) ++
    (conf.frameOf io infs n).map conf.clipObservation ++
    RLController.commandOf io conf I.base.joyData
  actions : I.actions = (readN conf.actionsSize (conf.policy I.actorInput)).map conf.clipAction

end RLConf

/-- The inferences take place every `decimation` cycles, each as it follows from those
before, and their frames hold the actions of the inference before and the phase. -/
structure Recording.Right {K : Type*} [Field K] [LinearOrder K] [FloorRing K] (io : Platform K)
    (conf : RLConf K) (s : Recording K) : Prop where
  happens : ∀ n : ℕ, (n : ℤ) * conf.decimation < s.cycles ↔ n < s.inferences.length
  follows : ∀ (n : ℕ) I, s.inferences[n]? = some I → conf.Follows io s.inferences n I
  frames : ∀ (n : ℕ) I, s.inferences[n]? = some I →
    conf.Entries io I.base (conf.lastOf s.inferences n) (conf.phase (n + 1))
      (conf.frameOf io s.inferences n)

namespace RLController
variable {K : Type*} [Field K] (io : Platform K)

theorem frame_congr {c d : RLController K} (hpropri : c.propri = d.propri) (hconf : c.conf = d.conf)
    (hgait : c.gaitIndices = d.gaitIndices) (hinit : c.base.initState = d.base.initState)
    (last : List K) : c.frame io last = d.frame io last := by
  simp only [frame, hpropri, hconf, hgait, hinit]

theorem length_readN (n : ℕ) (v : List K) : (readN n v).length = n := by
  simp [readN]

def stepPhase (c : RLController K) : K :=
  io.fmod (c.gaitIndices + c.conf.gaitFreq * (c.conf.loopDt * c.conf.decimation)) 1

def unclipped (c : RLController K) : List K :=
  let f := (c.withPhase (c.stepPhase io)).frame io
    (if c.isFirstFrame then zeros c.conf.actionsSize else c.lastActions)
  f ++ c.singleObs.drop f.length

def historyOf (c : RLController K) : List K :=
  push c.conf.observationsSize
    (if c.isFirstFrame then (List.replicate c.conf.numHist (c.unclipped io)).flatten
      else c.propriHistoryBuffer) (c.unclipped io)

variable [LinearOrder K]

structure Observed (c d : RLController K) (joy : Twist K) : Prop where
  base : d.base = c.base
  conf : d.conf = c.conf
  loopCount : d.loopCount = c.loopCount
  lastActions : d.lastActions = c.lastActions
  isFirstFrame : d.isFirstFrame = false
  gaitIndices : d.gaitIndices = c.stepPhase io
  commands : d.commands = commandOf io c.conf joy
  encoderInput : d.encoderInput = c.historyOf io
  propriHistoryBuffer : d.propriHistoryBuffer = c.historyOf io
  singleObs : d.singleObs = (c.unclipped io).map c.conf.clipObservation
  propri : d.propri = c.propri
  filters : d.lowPassFilters.length = c.lowPassFilters.length

theorem observed_computeObservation (joy : Twist K) (c : RLController K) :
    c.Observed io (c.computeObservation io joy) joy := by
  obtain ⟨_, _, _, _, _, _, _, _, _, _, _, _, _, _, isFirstFrame⟩ := c
  cases isFirstFrame with
  | true => exact ⟨rfl, rfl, rfl, rfl, rfl, rfl, rfl, rfl, rfl, rfl, rfl, List.length_mapIdx⟩
  | false => constructor <;> rfl

theorem length_frame {c : RLController K} (hinit : c.conf.actionsSize ≤ c.base.initState.length)
    {last : List K} (hlast : last.length = c.conf.actionsSize) (imu : Imu K) (phase : K) :
    (((c.updateStateEstimation io imu).withPhase phase).frame io last).length =
      c.conf.frameSize := by
  simp only [frame, withPhase, updateStateEstimation, List.length_append, List.length_map,
    List.length_zipWith, List.length_ofFn, List.length_cons, List.length_nil, length_readN,
    min_eq_left hinit, hlast, RLConf.frameSize]
  omega

theorem update_unobserved {c : RLController K} (h : c.computes = false) :
    c.update io = (c.updateStateEstimation io c.base.imuData).countLoop := by
  have hest : (c.updateStateEstimation io c.base.imuData).computes = false := h
  simp only [update, hest]
  rfl

theorem loopCount_update (c : RLController K) : (c.update io).loopCount = c.loopCount + 1 := by
  cases h : c.computes with
  | true =>
    rw [update_observed io (s := c.base.sample) (if_pos h)]
    exact congrArg (· + 1) (observed_computeObservation io _ _).loopCount
  | false =>
    rw [update_unobserved io h]
    rfl

theorem conf_update (c : RLController K) : (c.update io).conf = c.conf := by
  cases h : c.computes with
  | true =>
    rw [update_observed io (s := c.base.sample) (if_pos h)]
    exact (observed_computeObservation io _ _).conf
  | false =>
    rw [update_unobserved io h]
    rfl

end RLController

theorem parts_append {α : Type*} {a g q v l e : List α} {n : ℕ} (z : List α) (ha : a.length = 3)
    (hg : g.length = 3) (hq : q.length = n) (hv : v.length = n) (hl : l.length = n)
    (he : e.length = 6) :
    let f := a ++ g ++ q ++ v ++ l ++ e ++ z
    f.length = 12 + 3 * n + z.length ∧ f.take 3 = a ∧ (f.drop 3).take 3 = g ∧
      (f.drop 6).take n = q ∧ (f.drop (6 + n)).take n = v ∧ (f.drop (6 + 2 * n)).take n = l ∧
      (f.drop (6 + 3 * n)).take 6 = e ∧ f.drop (12 + 3 * n) = z := by
  have hpart : ∀ (xs ys zs : List α) {k m : ℕ}, xs.length = k → ys.length = m →
      ((xs ++ (ys ++ zs)).drop k).take m = ys := by
    intro xs ys zs k m hxs hys
    rw [List.drop_left' hxs, List.take_left' hys]
  refine ⟨?_, ?_, ?_, ?_, ?_, ?_, ?_, ?_⟩
  · simp only [List.length_append, ha, hg, hq, hv, hl, he]
    omega
  · simp only [List.append_assoc]
    exact List.take_left' ha
  · have hat := hpart a g (q ++ v ++ l ++ e ++ z) ha hg
    simpa only [List.append_assoc] using hat
  · have hbefore : (a ++ g).length = 6 := by simp [ha, hg]
    have hat := hpart (a ++ g) q (v ++ l ++ e ++ z) hbefore hq
    simpa only [List.append_assoc] using hat
  · have hbefore : (a ++ g ++ q).length = 6 + n := by
      simp only [List.length_append, ha, hg, hq]
    have hat := hpart (a ++ g ++ q) v (l ++ e ++ z) hbefore hv
    simpa only [List.append_assoc] using hat
  · have hbefore : (a ++ g ++ q ++ v).length = 6 + 2 * n := by
      simp only [List.length_append, ha, hg, hq, hv]
      omega
    have hat := hpart (a ++ g ++ q ++ v) l (e ++ z) hbefore hl
    simpa only [List.append_assoc] using hat
  · have hbefore : (a ++ g ++ q ++ v ++ l).length = 6 + 3 * n := by
      simp only [List.length_append, ha, hg, hq, hv, hl]
      omega
    have hat := hpart (a ++ g ++ q ++ v ++ l) e z hbefore he
    simpa only [List.append_assoc] using hat
  · refine List.drop_left' ?_
    simp only [List.length_append, ha, hg, hq, hv, hl, he]
    omega

namespace RLConf
variable {K : Type*} [Field K] (io : Platform K) (conf : RLConf K)

theorem lastOf_append {infs : List (Inference K)} {i : ℕ} (hi : i ≤ infs.length)
    (later : List (Inference K)) : conf.lastOf (infs ++ later) i = conf.lastOf infs i := by
  cases i with
  | zero => rfl
  | succ i => simp only [lastOf, List.getElem?_append_left hi]

theorem lastOf_length_append (infs : List (Inference K)) (I : Inference K) :
    conf.lastOf (infs ++ [I]) (infs ++ [I]).length = I.actions := by
  simp [lastOf]

variable [LinearOrder K]

theorem map_clip_rest [IsStrictOrderedRing K]
    (hclip : conf.frameSize = conf.observationsSize ∨ 0 ≤ conf.observationsClip) :
    (zeros (conf.observationsSize - conf.frameSize)).map conf.clipObservation =
      zeros (conf.observationsSize - conf.frameSize) := by
  rcases hclip with heq | hnonneg
  · simp [heq, zeros]
  · have hzero : conf.clipObservation 0 = 0 := by
      rw [clipObservation, max_eq_left (by linarith), min_eq_left hnonneg]
    rw [zeros, List.map_replicate, hzero]

variable [FloorRing K]

theorem frameOf_append {infs : List (Inference K)} {i : ℕ} (hi : i < infs.length)
    (later : List (Inference K)) :
    conf.frameOf io (infs ++ later) i = conf.frameOf io infs i := by
  simp only [frameOf, List.getElem?_append_left hi, conf.lastOf_append hi.le later]

theorem frameOf_padded {infs : List (Inference K)} {i : ℕ} {I : Inference K}
    (hI : infs[i]? = some I) (hinit : I.base.initState.length = conf.actionsSize)
    (hlast : (conf.lastOf infs i).length = conf.actionsSize) :
    ∃ f, f.length = conf.frameSize ∧
      conf.frameOf io infs i = f ++ zeros (conf.observationsSize - conf.frameSize) := by
  have hframe := RLController.length_frame io (c := .new I.base conf) hinit.ge hlast I.base.imuData
    (conf.phase (i + 1))
  refine ⟨_, hframe, ?_⟩
  simp only [frameOf, hI, Option.elim_some, hframe]
  rfl

theorem frameOf_eq {infs : List (Inference K)} {i : ℕ} {I : Inference K} (hI : infs[i]? = some I)
    (hinit : I.base.initState.length = conf.actionsSize)
    (hlast : (conf.lastOf infs i).length = conf.actionsSize) :
    conf.frameOf io infs i =
      [I.base.imuData.angularVelocity.x, I.base.imuData.angularVelocity.y,
        I.base.imuData.angularVelocity.z].map (· * conf.angVelScale) ++
      List.ofFn (io.projectedGravity I.base.imuData.orientation) ++
      List.zipWith (fun q q₀ => (q - q₀) * conf.dofPosScale)
        (readN conf.actionsSize I.base.jointStateData.position) I.base.initState ++
      (readN conf.actionsSize I.base.jointStateData.velocity).map (· * conf.dofVelScale) ++
      conf.lastOf infs i ++
      [io.sin (2.0 * io.pi * conf.phase (i + 1)), io.cos (2.0 * io.pi * conf.phase (i + 1)),
        conf.gaitFreq, conf.gaitOffset, conf.gaitDuration, conf.gaitSwingHeight] ++
      zeros (conf.observationsSize - conf.frameSize) := by
  have hlength := RLController.length_frame io (c := .new I.base conf) hinit.ge hlast I.base.imuData
    (conf.phase (i + 1))
  simp only [frameOf, hI, Option.elim_some, hlength]
  rfl

theorem entries_frameOf {infs : List (Inference K)} {i : ℕ} {I : Inference K} (hI : infs[i]? = some I)
    (hinit : I.base.initState.length = conf.actionsSize)
    (hlast : (conf.lastOf infs i).length = conf.actionsSize)
    (hsize : conf.frameSize ≤ conf.observationsSize) :
    conf.Entries io I.base (conf.lastOf infs i) (conf.phase (i + 1)) (conf.frameOf io infs i) := by
  have hparts := parts_append (a := [I.base.imuData.angularVelocity.x,
      I.base.imuData.angularVelocity.y, I.base.imuData.angularVelocity.z].map (· * conf.angVelScale))
    (g := List.ofFn (io.projectedGravity I.base.imuData.orientation))
    (q := List.zipWith (fun q q₀ => (q - q₀) * conf.dofPosScale)
      (readN conf.actionsSize I.base.jointStateData.position) I.base.initState)
    (v := (readN conf.actionsSize I.base.jointStateData.velocity).map (· * conf.dofVelScale))
    (l := conf.lastOf infs i)
    (e := [io.sin (2.0 * io.pi * conf.phase (i + 1)), io.cos (2.0 * io.pi * conf.phase (i + 1)),
      conf.gaitFreq, conf.gaitOffset, conf.gaitDuration, conf.gaitSwingHeight])
    (zeros (conf.observationsSize - conf.frameSize)) rfl List.length_ofFn
    (by rw [List.length_zipWith, RLController.length_readN, hinit, min_self])
    (by rw [List.length_map, RLController.length_readN]) hlast rfl
  rw [← conf.frameOf_eq io hI hinit hlast] at hparts
  obtain ⟨hlength, ha, hg, hq, hv, hl, he, hz⟩ := hparts
  refine ⟨?_, ha, hg, hq, hv, hl, he, hz⟩
  rw [hlength, zeros, List.length_replicate, ← frameSize]
  omega

variable {io conf}

theorem Follows.append {infs : List (Inference K)} {n : ℕ} {I : Inference K}
    (h : conf.Follows io infs n I) (hn : n < infs.length) (later : List (Inference K)) :
    conf.Follows io (infs ++ later) n I where
  cycle := h.cycle
  encoderInput := h.encoderInput.trans <| SlidingWindow.window_congr
    (fun _ hi => (conf.frameOf_append io (hi.trans_lt hn) later).symm) _
  actorInput := by rw [h.actorInput, conf.frameOf_append io hn later]
  actions := h.actions

theorem Follows.length_actions {infs : List (Inference K)} {n : ℕ} {I : Inference K}
    (h : conf.Follows io infs n I) : I.actions.length = conf.actionsSize := by
  rw [h.actions, List.length_map, RLController.length_readN]

end RLConf

namespace Recording
variable {K : Type*} [Field K] [LinearOrder K] [FloorRing K] {io : Platform K} {conf : RLConf K}

structure Holds (io : Platform K) (conf : RLConf K) (infs : List (Inference K))
    (c : RLController K) : Prop where
  sameConf : c.conf = conf
  initState : c.base.initState.length = conf.actionsSize
  isFirstFrame : c.isFirstFrame = infs.isEmpty
  gaitIndices : c.gaitIndices = conf.phase infs.length
  actions : c.actions = conf.lastOf infs infs.length
  history : ∀ n, infs.length = n + 1 →
    c.propriHistoryBuffer = window (conf.frameOf io infs) conf.numHist n
  rest : c.singleObs.drop conf.frameSize = zeros (conf.observationsSize - conf.frameSize)

theorem Holds.receive {infs : List (Inference K)} {c : RLController K} (h : Holds io conf infs c)
    (msgs : List (Message K)) : Holds io conf infs (receive c msgs) where
  sameConf := h.sameConf
  initState := (congrArg List.length (Message.initState_foldl_store msgs c.base)).trans h.initState
  isFirstFrame := h.isFirstFrame
  gaitIndices := h.gaitIndices
  actions := h.actions
  history := h.history
  rest := h.rest

theorem Holds.getJointCmdData {infs : List (Inference K)} {c : RLController K}
    (h : Holds io conf infs c) : Holds io conf infs c.getJointCmdData.2 :=
  ⟨h.sameConf, h.initState, h.isFirstFrame, h.gaitIndices, h.actions, h.history, h.rest⟩

structure Inv (io : Platform K) (conf : RLConf K) (s : Recording K) : Prop where
  holds : Holds io conf s.inferences s.controller
  lastActions : s.controller.lastActions = s.controller.actions
  loopCount : s.controller.loopCount = s.cycles
  due : (s.cycles : ℤ) ≤ s.inferences.length * conf.decimation
  taken : s.inferences.length * conf.decimation < s.cycles + conf.decimation
  initState : ∀ I ∈ s.inferences, I.base.initState.length = conf.actionsSize
  follows : ∀ (n : ℕ) I, s.inferences[n]? = some I → conf.Follows io s.inferences n I

variable {s : Recording K}

theorem Inv.length_lastOf (h : s.Inv io conf) {i : ℕ} (hi : i ≤ s.inferences.length) :
    (conf.lastOf s.inferences i).length = conf.actionsSize := by
  cases i with
  | zero => simp [RLConf.lastOf, zeros]
  | succ i =>
    have hI := List.getElem?_eq_getElem hi
    simp only [RLConf.lastOf, hI, Option.elim_some]
    exact (h.follows i _ hI).length_actions

theorem Inv.length_frameOf (h : s.Inv io conf) (hsize : conf.frameSize ≤ conf.observationsSize)
    {i : ℕ} (hi : i < s.inferences.length) :
    (conf.frameOf io s.inferences i).length = conf.observationsSize := by
  obtain ⟨f, hf, hframe⟩ := conf.frameOf_padded io (List.getElem?_eq_getElem hi)
    (h.initState _ (List.getElem_mem hi)) (h.length_lastOf hi.le)
  rw [hframe, List.length_append, hf, zeros, List.length_replicate]
  omega

theorem Inv.next_padded (h : s.Inv io conf) {I : Inference K}
    (hbase : I.base = s.controller.base) :
    ∃ f, f.length = conf.frameSize ∧ conf.frameOf io (s.inferences ++ [I]) s.inferences.length =
      f ++ zeros (conf.observationsSize - conf.frameSize) := by
  apply conf.frameOf_padded io List.getElem?_concat_length
  · rw [hbase]
    exact h.holds.initState
  · rw [conf.lastOf_append le_rfl]
    exact h.length_lastOf le_rfl

theorem Inv.unclipped (h : s.Inv io conf) {I : Inference K} (hbase : I.base = s.controller.base)
    {c : RLController K} (hc : c = s.controller.updateStateEstimation io I.base.imuData)
    (hphase : c.stepPhase io = conf.phase (s.inferences.length + 1)) :
    c.unclipped io = conf.frameOf io (s.inferences ++ [I]) s.inferences.length := by
  have hconf : c.conf = conf := by rw [hc]; exact h.holds.sameConf
  have hlast : (if c.isFirstFrame then zeros c.conf.actionsSize else c.lastActions) =
      conf.lastOf s.inferences s.inferences.length := by
    have hfirst : c.isFirstFrame = s.inferences.isEmpty := by rw [hc]; exact h.holds.isFirstFrame
    have hactions : c.lastActions = conf.lastOf s.inferences s.inferences.length := by
      rw [hc]
      exact h.lastActions.trans h.holds.actions
    rw [hactions, hfirst, hconf]
    cases s.inferences with
    | nil => rfl
    | cons => rfl
  let fresh := (RLController.new I.base conf).updateStateEstimation io I.base.imuData
  have hframe : (c.withPhase (c.stepPhase io)).frame io
        (conf.lastOf s.inferences s.inferences.length) =
      (fresh.withPhase (conf.phase (s.inferences.length + 1))).frame io
        (conf.lastOf s.inferences s.inferences.length) := by
    apply RLController.frame_congr io
    · simp only [fresh, hc, RLController.withPhase, RLController.updateStateEstimation,
        RLController.new, h.holds.sameConf, hbase]
    · exact hconf
    · exact hphase
    · rw [hc]
      exact congrArg ControllerBase.initState hbase.symm
  have hlength := RLController.length_frame io (c := .new I.base conf)
    (by rw [hbase]; exact h.holds.initState.ge) (h.length_lastOf le_rfl) I.base.imuData
    (conf.phase (s.inferences.length + 1))
  have hrest : c.singleObs.drop conf.frameSize =
      zeros (conf.observationsSize - conf.frameSize) := by
    rw [hc]
    exact h.holds.rest
  have hread : (s.inferences ++ [I])[s.inferences.length]? = some I := List.getElem?_concat_length
  simp only [RLConf.frameOf, hread, Option.elim_some, conf.lastOf_append le_rfl, hlength,
    RLController.unclipped, hlast, hframe, fresh]
  exact congrArg _ hrest

theorem Inv.historyOf (h : s.Inv io conf) (hhist : 1 ≤ conf.numHist)
    (hsize : conf.frameSize ≤ conf.observationsSize) {I : Inference K}
    (hbase : I.base = s.controller.base) {c : RLController K}
    (hc : c = s.controller.updateStateEstimation io I.base.imuData)
    (hphase : c.stepPhase io = conf.phase (s.inferences.length + 1)) :
    c.historyOf io =
      window (conf.frameOf io (s.inferences ++ [I])) conf.numHist s.inferences.length := by
  have hconf : c.conf = conf := by rw [hc]; exact h.holds.sameConf
  have hfirst : c.isFirstFrame = s.inferences.isEmpty := by rw [hc]; exact h.holds.isFirstFrame
  have hnew := h.unclipped hbase hc hphase
  have hlength : (conf.frameOf io (s.inferences ++ [I]) s.inferences.length).length =
      conf.observationsSize := by
    obtain ⟨f, hf, hframe⟩ := h.next_padded hbase
    rw [hframe, List.length_append, hf, zeros, List.length_replicate]
    omega
  rw [RLController.historyOf, hnew, hfirst, hconf]
  cases hn : s.inferences.length with
  | zero =>
    obtain hnil := List.length_eq_zero_iff.mp hn
    rw [hn] at hlength
    rw [hnil] at hlength ⊢
    exact (SlidingWindow.push_replicate hhist hlength).trans
      (SlidingWindow.window_zero _ _).symm
  | succ n =>
    have hne : s.inferences.isEmpty = false := by
      rw [List.isEmpty_eq_false_iff]
      exact List.ne_nil_of_length_eq_add_one hn
    have hold : c.propriHistoryBuffer =
        window (conf.frameOf io (s.inferences ++ [I])) conf.numHist n := by
      rw [hc]
      refine (h.holds.history n hn).trans (SlidingWindow.window_congr ?_ _)
      intro i hi
      exact (conf.frameOf_append io (by omega) _).symm
    have hwidth : ∀ i ≤ n, (conf.frameOf io (s.inferences ++ [I]) i).length =
        conf.observationsSize := by
      intro i hi
      rw [conf.frameOf_append io (by omega)]
      exact h.length_frameOf hsize (by omega)
    rw [hne, SlidingWindow.window_succ hhist hwidth, hold]
    rfl

theorem Inv.computes_iff (h : s.Inv io conf) (hdec : 1 ≤ conf.decimation) :
    s.controller.computes = true ↔ (s.cycles : ℤ) = s.inferences.length * conf.decimation := by
  have hdvd : s.controller.computes = true ↔ conf.decimation ∣ (s.cycles : ℤ) := by
    rw [RLController.computes, beq_iff_eq, h.loopCount, h.holds.sameConf]
    exact Int.dvd_iff_tmod_eq_zero.symm
  rw [hdvd]
  constructor
  · rintro ⟨q, hq⟩
    have hdue := h.due
    have htaken := h.taken
    have hlow : q ≤ s.inferences.length := by
      by_contra hlt
      nlinarith
    have hhigh : (s.inferences.length : ℤ) ≤ q := by
      by_contra hlt
      nlinarith
    rw [hq, le_antisymm hlow hhigh, mul_comm]
  · intro heq
    exact ⟨_, heq.trans (mul_comm _ _)⟩

theorem Inv.message (h : s.Inv io conf) (msg : Message K) :
    (s.act io (.message msg)).Inv io conf where
  holds := h.holds.receive [msg]
  lastActions := h.lastActions
  loopCount := h.loopCount
  due := h.due
  taken := h.taken
  initState := h.initState
  follows := h.follows

theorem Inv.loopCount_cycle (h : s.Inv io conf) :
    (s.controller.update io).loopCount = s.cycles + 1 :=
  (RLController.loopCount_update io s.controller).trans (congrArg (· + 1) h.loopCount)

theorem Inv.waits (h : s.Inv io conf) (hdec : 1 ≤ conf.decimation)
    (hc : s.controller.computes = false) (late : List (Message K)) :
    (s.act io (.cycle late)).Inv io conf := by
  have hne : (s.cycles : ℤ) ≠ s.inferences.length * conf.decimation := by
    intro heq
    rw [(h.computes_iff hdec).mpr heq] at hc
    cases hc
  have hinferred : s.inferred io = none := if_neg (by simp [hc])
  have hupdate : s.controller.update io =
      (s.controller.updateStateEstimation io s.controller.base.imuData).countLoop :=
    RLController.update_unobserved io hc
  have hholds : Holds io conf s.inferences (s.controller.update io) := by
    rw [hupdate]
    exact ⟨h.holds.sameConf, h.holds.initState, h.holds.isFirstFrame, h.holds.gaitIndices,
      h.holds.actions, h.holds.history, h.holds.rest⟩
  simp only [act, hinferred, Option.toList_none, List.append_nil]
  constructor
  · exact (hholds.receive late).getJointCmdData
  · rfl
  · exact h.loopCount_cycle
  · have hdue := h.due
    push_cast
    omega
  · have htaken := h.taken
    push_cast
    omega
  · exact h.initState
  · exact h.follows

theorem Inv.right (h : s.Inv io conf) {base : ControllerBase K} (hfits : conf.Fits base) :
    s.Right io conf where
  happens := by
    intro n
    have hdec := hfits.decimation
    have hdue := h.due
    have htaken := h.taken
    constructor
    · intro hlt
      by_contra hge
      have hle : (s.inferences.length : ℤ) ≤ n := by omega
      nlinarith
    · intro hlt
      have hle : (n : ℤ) + 1 ≤ s.inferences.length := by omega
      nlinarith
  follows := h.follows
  frames := by
    intro n I hI
    have hn := (List.getElem?_eq_some_iff.mp hI).1
    exact conf.entries_frameOf io hI (h.initState I (List.mem_of_getElem? hI))
      (h.length_lastOf hn.le) hfits.observationsSize

variable [IsStrictOrderedRing K]

theorem Inv.stepPhase (h : s.Inv io conf) (hfmod : ∀ x, io.fmod x 1 = frac x) (imu : Imu K) :
    (s.controller.updateStateEstimation io imu).stepPhase io =
      conf.phase (s.inferences.length + 1) := by
  have hgait := h.holds.gaitIndices
  have hconf := h.holds.sameConf
  simp only [RLController.stepPhase, RLController.updateStateEstimation, hconf, hgait, hfmod,
    RLConf.phase]
  exact frac_step _ _

structure Observing (io : Platform K) (conf : RLConf K) (infs : List (Inference K))
    (I : Inference K) (d : RLController K) : Prop where
  sameConf : d.conf = conf
  isFirstFrame : d.isFirstFrame = false
  gaitIndices : d.gaitIndices = conf.phase (infs.length + 1)
  commands : d.commands = RLController.commandOf io conf I.base.joyData
  encoderInput : d.encoderInput = window (conf.frameOf io (infs ++ [I])) conf.numHist infs.length
  history : d.propriHistoryBuffer = window (conf.frameOf io (infs ++ [I])) conf.numHist infs.length
  singleObs : d.singleObs = (conf.frameOf io (infs ++ [I]) infs.length).map conf.clipObservation
  given : I.encoderInput = d.encoderInput
  actorInput : I.actorInput = d.computeActions.actorInput
  actions : I.actions = d.computeActions.actions

theorem Inv.observing (h : s.Inv io conf) {base : ControllerBase K} (hfits : conf.Fits base)
    (hfmod : ∀ x, io.fmod x 1 = frac x) {I : Inference K} (hI : s.inferred io = some I) :
    ∃ d, s.controller.update io = d.computeActions.countLoop ∧
      Observing io conf s.inferences I d := by
  unfold inferred at hI
  split_ifs at hI with hc
  let c := s.controller.updateStateEstimation io s.controller.base.imuData
  have hupdate : s.controller.update io =
      (c.computeObservation io s.controller.base.joyData).computeActions.countLoop :=
    RLController.update_observed io (s := s.controller.base.sample) (if_pos hc)
  have hbase : I.base = s.controller.base := by rw [← Option.some.inj hI]
  have hsame : c.conf = conf := h.holds.sameConf
  have hphase : c.stepPhase io = _ := h.stepPhase hfmod s.controller.base.imuData
  have hc : c = s.controller.updateStateEstimation io I.base.imuData := by rw [hbase]
  have hframe := h.unclipped hbase hc hphase
  have hhistory := h.historyOf hfits.numHist hfits.observationsSize hbase hc hphase
  have hobs := c.observed_computeObservation io s.controller.base.joyData
  refine ⟨_, hupdate, ?_⟩
  constructor
  · exact hobs.conf.trans hsame
  · exact hobs.isFirstFrame
  · exact hobs.gaitIndices.trans hphase
  · rw [hobs.commands, hsame, hbase]
  · exact hobs.encoderInput.trans hhistory
  · exact hobs.propriHistoryBuffer.trans hhistory
  · rw [hobs.singleObs, hframe, hsame]
  · rw [← Option.some.inj hI, hupdate]
    rfl
  · rw [← Option.some.inj hI, hupdate]
    rfl
  · rw [← Option.some.inj hI, hupdate]
    rfl

theorem Inv.holds_infer (h : s.Inv io conf) {base : ControllerBase K} (hfits : conf.Fits base)
    (hfmod : ∀ x, io.fmod x 1 = frac x) {I : Inference K} (hI : s.inferred io = some I)
    (hbase : I.base = s.controller.base) :
    Holds io conf (s.inferences ++ [I]) (s.controller.update io) := by
  obtain ⟨d, hupdate, hd⟩ := h.observing hfits hfmod hI
  obtain ⟨f, hf, hpadded⟩ := h.next_padded hbase
  constructor
  · rw [hupdate]
    exact hd.sameConf
  · rw [RLController.base_update]
    exact h.holds.initState
  · have hne : (s.inferences ++ [I]).isEmpty = false := by simp
    rw [hupdate, hne]
    exact hd.isFirstFrame
  · rw [hupdate, List.length_append]
    exact hd.gaitIndices
  · rw [conf.lastOf_length_append, hd.actions, hupdate]
    rfl
  · intro n hn
    have hlast : s.inferences.length = n := by simpa using hn
    rw [hupdate, ← hlast]
    exact hd.history
  · rw [hupdate]
    refine (congrArg (List.drop conf.frameSize) hd.singleObs).trans ?_
    rw [hpadded, List.map_append, List.drop_left' (by rw [List.length_map, hf])]
    exact conf.map_clip_rest hfits.clip

theorem Inv.follows_infer (h : s.Inv io conf) {base : ControllerBase K} (hfits : conf.Fits base)
    (hfmod : ∀ x, io.fmod x 1 = frac x) {I : Inference K} (hI : s.inferred io = some I)
    (hcycle : (I.cycle : ℤ) = s.inferences.length * conf.decimation) :
    conf.Follows io (s.inferences ++ [I]) s.inferences.length I := by
  obtain ⟨d, hupdate, hd⟩ := h.observing hfits hfmod hI
  constructor
  · exact hcycle
  · exact hd.given.trans hd.encoderInput
  · rw [hd.actorInput, hd.given]
    simp only [RLController.computeActions, hd.sameConf, hd.singleObs, hd.commands]
  · rw [hd.actions, hd.actorInput]
    simp only [RLController.computeActions, hd.sameConf]
    rfl

theorem inv_boot {base : ControllerBase K} (hfits : conf.Fits base) :
    (boot base conf).Inv io conf where
  holds :=
    { sameConf := rfl
      initState := hfits.initState
      isFirstFrame := rfl
      gaitIndices := by simp [boot, RLController.new, RLConf.phase, frac_zero]
      actions := rfl
      history := fun n hn => nomatch hn
      rest := by simp [boot, RLController.new, zeros] }
  lastActions := rfl
  loopCount := rfl
  due := by simp [boot]
  taken := by
    have hdec := hfits.decimation
    simp only [boot, List.length_nil]
    omega
  initState := fun I hI => nomatch hI
  follows := fun n I hI => nomatch hI

theorem Inv.restart (h : s.Inv io conf) (hdec : 1 ≤ conf.decimation) :
    (s.act io .restart).Inv io conf where
  holds :=
    { sameConf := h.holds.sameConf
      initState := h.holds.initState
      isFirstFrame := rfl
      gaitIndices := by simp [act, RLController.restartController, RLConf.phase, frac_zero]
      actions := by
        have hlength : s.controller.actions.length = conf.actionsSize := by
          rw [h.holds.actions]
          exact h.length_lastOf le_rfl
        exact congrArg zeros hlength
      history := fun n hn => nomatch hn
      rest := h.holds.rest }
  lastActions := congrArg (fun v : List K => zeros v.length) h.lastActions
  loopCount := rfl
  due := by simp [act]
  taken := by
    simp only [act, List.length_nil]
    omega
  initState := fun I hI => nomatch hI
  follows := fun n I hI => nomatch hI

theorem Inv.infers (h : s.Inv io conf) {base : ControllerBase K} (hfits : conf.Fits base)
    (hfmod : ∀ x, io.fmod x 1 = frac x) (hc : s.controller.computes = true)
    (late : List (Message K)) : (s.act io (.cycle late)).Inv io conf := by
  have hat := (h.computes_iff hfits.decimation).mp hc
  have hinferred : s.inferred io = some _ := if_pos hc
  have hholds := h.holds_infer hfits hfmod hinferred rfl
  have hfollows := h.follows_infer hfits hfmod hinferred hat
  simp only [act, hinferred, Option.toList_some]
  constructor
  · exact (hholds.receive late).getJointCmdData
  · rfl
  · exact h.loopCount_cycle
  · have hdec := hfits.decimation
    simp only [List.length_append, List.length_singleton]
    push_cast
    rw [add_mul, ← hat]
    omega
  · simp only [List.length_append, List.length_singleton]
    push_cast
    rw [add_mul, ← hat]
    omega
  · intro I hI
    rcases List.mem_append.mp hI with hold | hnew
    · exact h.initState I hold
    · rw [List.mem_singleton.mp hnew]
      exact h.holds.initState
  · intro n I hI
    rcases Nat.lt_trichotomy n s.inferences.length with hlt | heq | hgt
    · rw [List.getElem?_append_left hlt] at hI
      exact (h.follows n I hI).append hlt _
    · subst heq
      rw [List.getElem?_concat_length] at hI
      obtain rfl := Option.some.inj hI
      exact hfollows
    · rw [List.getElem?_eq_none (by simp; omega)] at hI
      cases hI

theorem Inv.act (h : s.Inv io conf) {base : ControllerBase K} (hfits : conf.Fits base)
    (hfmod : ∀ x, io.fmod x 1 = frac x) (e : Event K) : (s.act io e).Inv io conf := by
  cases e with
  | message msg => exact h.message msg
  | restart => exact h.restart hfits.decimation
  | cycle late =>
    cases hc : s.controller.computes with
    | true => exact h.infers hfits hfmod hc late
    | false => exact h.waits hfits.decimation hc late

end Recording

/-- After any messages, restarts and cycles, the inferences since the last restart took
place in time and were given the history of their frames, entry by entry. -/
theorem history_right {K : Type*} [Field K] [LinearOrder K] [IsStrictOrderedRing K] [FloorRing K]
    (io : Platform K) (hfmod : ∀ x, io.fmod x 1 = frac x) {base : ControllerBase K}
    {conf : RLConf K} (hfits : conf.Fits base) (events : List (Recording.Event K)) :
    (events.foldl (Recording.act io) (.boot base conf)).Right io conf := by
  have hinv : (events.foldl (Recording.act io) (.boot base conf)).Inv io conf := by
    induction events using List.reverseRecOn with
    | nil => exact Recording.inv_boot hfits
    | append_singleton events e ih =>
      rw [List.foldl_concat]
      exact ih.act hfits hfmod e
  exact hinv.right hfits

def stride : RLConf ℚ where
  actionScale := 1
  decimation := 2
  swMode := false
  cmdThreshold := 0
  loopDt := 1 / 4
  angVelScale := 1
  dofPosScale := 1
  dofVelScale := 1
  actionsSize := 1
  observationsSize := 15
  numHist := 2
  observationsClip := 100
  actionsClip := 1
  estSize := 1
  gaitFreq := 1
  gaitOffset := 0
  gaitDuration := 1 / 2
  gaitSwingHeight := 0
  lpfWc := 100
  lpfTs := 1 / 1000
  encoder := fun obs => [obs.sum]
  policy := fun obs => [obs.sum]

def strider : ControllerBase ℚ := .new ["knee"] [0] [80] [2]

theorem stride_fits : stride.Fits strider where
  decimation := by decide
  numHist := by decide
  initState := rfl
  observationsSize := by decide
  clip := .inl rfl

def striding : Platform ℚ where
  sin := fun _ => 0
  cos := fun x => if x = 22 / 7 then -1 else 1
  asin := id
  atan2 := fun y _ => y
  sqrt := id
  fmod := fun x y => y * frac (x / y)
  pi := 22 / 7

def restarted : List (Recording.Event ℚ) :=
  [.cycle [], .restart, .cycle [.cmdVel forward], .cycle [], .cycle [],
    .message (.imu (.default ℚ)), .cycle []]

theorem history_right_restarted :
    let s := restarted.foldl (Recording.act striding) (.boot strider stride)
    s.Right striding stride ∧ s.inferences.map Inference.cycle = [0, 2] :=
  ⟨history_right striding (fun x => by simp [striding]) stride_fits restarted, by decide +kernel⟩

end MybipedalDeploy.Control
