import MybipedalDeploy.Control.PDController
import MybipedalDeploy.Control.RotationTools

/-!
# The learned controller

Every `decimation` updates the controller builds an observation, runs the encoder
on the history of observations and the policy on the result. The two networks
are functions. Floats are not rounded.
-/

namespace MybipedalDeploy.Control
open Msg (Vector3 Twist Imu JointCommand)

structure DigitalLpFilter (K : Type*) where
  lpfInPrev0 : K
  lpfInPrev1 : K
  lpfOutPrev0 : K
  lpfOutPrev1 : K
  lpfIn1 : K
  lpfIn2 : K
  lpfIn3 : K
  lpfOut1 : K
  lpfOut2 : K
  lpfOut : K

namespace DigitalLpFilter
variable {K : Type*} [Field K]

def new (wc ts : K) : DigitalLpFilter K :=
  let den := 2500 * ts * ts * wc * wc + 7071 * ts * wc + 10000
  { lpfInPrev0 := 0
    lpfInPrev1 := 0
    lpfOutPrev0 := 0
    lpfOutPrev1 := 0
    lpfIn1 := 2500 * ts * ts * wc * wc / den
    lpfIn2 := 5000 * ts * ts * wc * wc / den
    lpfIn3 := 2500 * ts * ts * wc * wc / den
    lpfOut1 := -(5000 * ts * ts * wc * wc - 20000) / den
    lpfOut2 := -(2500 * ts * ts * wc * wc - 7071 * ts * wc + 10000) / den
    lpfOut := 0 }

def den (wc ts : K) : K := 2500 * ts * ts * wc * wc + 7071 * ts * wc + 10000

def input (f : DigitalLpFilter K) (lpfIn : K) : DigitalLpFilter K :=
  let out := f.lpfIn1 * lpfIn + f.lpfIn2 * f.lpfInPrev0 + f.lpfIn3 * f.lpfInPrev1 +
    f.lpfOut1 * f.lpfOutPrev0 + f.lpfOut2 * f.lpfOutPrev1
  { f with
    lpfInPrev1 := f.lpfInPrev0
    lpfInPrev0 := lpfIn
    lpfOutPrev1 := f.lpfOutPrev0
    lpfOutPrev0 := out
    lpfOut := out }

def init (f : DigitalLpFilter K) (data : K) : DigitalLpFilter K :=
  { f with lpfInPrev1 := data, lpfInPrev0 := data, lpfOutPrev1 := data, lpfOutPrev0 := data }

end DigitalLpFilter

structure RLConf (K : Type*) where
  actionScale : K
  decimation : ℤ
  swMode : Bool
  cmdThreshold : K
  loopDt : K
  angVelScale : K
  dofPosScale : K
  dofVelScale : K
  actionsSize : ℕ
  observationsSize : ℕ
  numHist : ℕ
  observationsClip : K
  actionsClip : K
  estSize : ℕ
  gaitFreq : K
  gaitOffset : K
  gaitDuration : K
  gaitSwingHeight : K
  lpfWc : K
  lpfTs : K
  encoder : List K → List K
  policy : List K → List K

structure Proprioception (K : Type*) where
  jointPos : List K
  jointVel : List K
  baseAngVel : Vector3 K
  projectedGravity : List K

structure RLController (K : Type*) where
  base : ControllerBase K
  conf : RLConf K
  gaitIndices : K
  actions : List K
  singleObs : List K
  commands : List K
  encoderInput : List K
  est : List K
  actorInput : List K
  lastActions : List K
  propriHistoryBuffer : List K
  propri : Proprioception K
  loopCount : ℕ
  lowPassFilters : List (DigitalLpFilter K)
  isFirstFrame : Bool

namespace RLController
variable {K : Type*}

def new [Field K] (base : ControllerBase K) (conf : RLConf K) : RLController K where
  base := base
  conf := conf
  gaitIndices := 0
  actions := zeros conf.actionsSize
  singleObs := zeros conf.observationsSize
  commands := zeros 3
  encoderInput := zeros (conf.observationsSize * conf.numHist)
  est := zeros conf.estSize
  actorInput := zeros (conf.estSize + conf.observationsSize + 3)
  lastActions := zeros conf.actionsSize
  propriHistoryBuffer := zeros (conf.observationsSize * conf.numHist)
  propri := ⟨zeros conf.actionsSize, zeros conf.actionsSize, .zero K, zeros 3⟩
  loopCount := 0
  lowPassFilters := List.replicate conf.actionsSize (.new conf.lpfWc conf.lpfTs)
  isFirstFrame := true

/-- The stored messages stay. -/
def restartController [Zero K] (c : RLController K) : RLController K :=
  { c with
    isFirstFrame := true
    gaitIndices := 0
    loopCount := 0
    actions := zeros c.actions.length
    lastActions := zeros c.lastActions.length }

def computes (c : RLController K) : Bool := (c.loopCount : ℤ).tmod c.conf.decimation == 0

def observed (c : RLController K) : Option (Sample K) :=
  if c.computes then some c.base.sample else none

section Field
variable [Field K] [LinearOrder K] (io : Platform K)

def updateStateEstimation (imu : Imu K) (c : RLController K) : RLController K :=
  { c with propri :=
      { jointPos := readN c.conf.actionsSize c.base.jointStateData.position
        jointVel := readN c.conf.actionsSize c.base.jointStateData.velocity
        baseAngVel := imu.angularVelocity
        projectedGravity := List.ofFn (io.projectedGravity imu.orientation) } }

/-- The command with its bounds; in the switch mode a small one is zero. -/
def commandOf (conf : RLConf K) (joy : Twist K) : List K :=
  let cmdNorm := io.sqrt (square joy.linear.x + square joy.linear.y + square joy.angular.z)
  if conf.swMode && decide (cmdNorm ≤ conf.cmdThreshold) then [0, 0, 0]
  else [max (-0.6) (min joy.linear.x 0.9), joy.linear.y, joy.angular.z]

/-- One frame; `last` stands in the place of the last actions. -/
def frame (c : RLController K) (last : List K) : List K :=
  let ω := c.propri.baseAngVel
  [ω.x, ω.y, ω.z].map (· * c.conf.angVelScale) ++
  c.propri.projectedGravity ++
  List.zipWith (fun q q₀ => (q - q₀) * c.conf.dofPosScale) c.propri.jointPos c.base.initState ++
  c.propri.jointVel.map (· * c.conf.dofVelScale) ++
  last ++
  [io.sin (2.0 * io.pi * c.gaitIndices), io.cos (2.0 * io.pi * c.gaitIndices),
    c.conf.gaitFreq, c.conf.gaitOffset, c.conf.gaitDuration, c.conf.gaitSwingHeight]

def writeFrame (c : RLController K) (last : List K) : RLController K :=
  let f := c.frame io last
  { c with singleObs := f ++ c.singleObs.drop f.length }

/-- The first frame fills the history; the last actions count as zero in it. -/
def firstFrame (c : RLController K) : RLController K :=
  let c := c.writeFrame io (zeros c.conf.actionsSize)
  { c with
    lowPassFilters := c.lowPassFilters.mapIdx fun ii f =>
      if ii < c.base.jointNames.length then DigitalLpFilter.init f (c.propri.jointPos.getD ii 0) else f
    propriHistoryBuffer := (List.replicate c.conf.numHist c.singleObs).flatten
    isFirstFrame := false }

/-- The encoder sees the observation before it is clipped. -/
def computeObservation (joy : Twist K) (c : RLController K) : RLController K :=
  let stepDt := c.conf.loopDt * c.conf.decimation
  let c := { c with
    commands := commandOf io c.conf joy
    gaitIndices := io.fmod (c.gaitIndices + c.conf.gaitFreq * stepDt) 1 }
  let c := if c.isFirstFrame then c.firstFrame io else c.writeFrame io c.lastActions
  let history := c.propriHistoryBuffer.drop c.conf.observationsSize ++ c.singleObs
  { c with
    propriHistoryBuffer := history
    encoderInput := history
    singleObs := c.singleObs.map fun x =>
      min (max x (-c.conf.observationsClip)) c.conf.observationsClip }

def computeActions (c : RLController K) : RLController K :=
  let est := readN c.conf.estSize (c.conf.encoder c.encoderInput)
  let actorInput := est ++ c.singleObs ++ c.commands
  { c with
    est := est
    actorInput := actorInput
    actions := (readN c.conf.actionsSize (c.conf.policy actorInput)).map fun x =>
      max (-c.conf.actionsClip) (min c.conf.actionsClip x) }

def countLoop (c : RLController K) : RLController K := { c with loopCount := c.loopCount + 1 }

def update (c : RLController K) : RLController K :=
  let c := c.updateStateEstimation io c.base.imuData
  let c := if c.computes then (c.computeObservation io c.base.joyData).computeActions else c
  c.countLoop

def getJointCmdData (c : RLController K) : JointCommand K × RLController K :=
  let posDes := List.zipWith (fun a q₀ => a * c.conf.actionScale + q₀) c.actions c.base.initState
  let filters := List.zipWith DigitalLpFilter.input c.lowPassFilters posDes
  let n := c.base.jointNames.length
  ({ name := c.base.jointNames
     position := readN n (filters.map DigitalLpFilter.lpfOut)
     velocity := zeros n
     effort := zeros n
     stiffness := readN n (c.base.stiffness.take c.conf.actionsSize)
     damping := readN n (c.base.damping.take c.conf.actionsSize) },
    { c with lowPassFilters := filters, lastActions := c.actions })

@[simp] theorem base_computeObservation (joy : Twist K) (c : RLController K) :
    (c.computeObservation io joy).base = c.base := by
  unfold computeObservation
  dsimp only
  split_ifs <;> rfl

@[simp] theorem base_update (c : RLController K) : (c.update io).base = c.base := by
  unfold update
  dsimp only
  split_ifs
  · exact base_computeObservation io _ _
  · rfl

theorem update_observed {c : RLController K} {s : Sample K} (h : c.observed = some s) :
    c.update io = ((c.updateStateEstimation io s.imu).computeObservation io
      s.velocity).computeActions.countLoop := by
  unfold observed at h
  split_ifs at h with hc
  cases h
  have hest : (c.updateStateEstimation io c.base.imuData).computes = true := hc
  simp only [update, hest, if_true]
  rfl

end Field
end RLController
end MybipedalDeploy.Control
