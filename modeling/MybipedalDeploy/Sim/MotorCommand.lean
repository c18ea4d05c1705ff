import Mathlib.Algebra.Field.Rat
import Mathlib.Algebra.Order.Ring.Rat
import MybipedalDeploy.Control.JointIndex
import MybipedalDeploy.Library.Runs

/-!
# The commands of the simulated motors

`WriteMotorCmd` finds the entries of a joint by an index from a map that is never cleared,
and for a name the map does not hold the reading itself enters a zero. So a joint that a
message leaves out is driven by whatever entries stand at an old index, or at the first.
-/

namespace MybipedalDeploy.Sim
open Msg (JointCommand)
open Control (IndexMap readAt lastPlace)

/-- `map[name]`, which enters a zero for a name that is not there. -/
def subscript (indices : IndexMap) (name : String) : ℤ × IndexMap :=
  match indices.at? name with
  | some i => (i, indices)
  | none => (0, indices.set name 0)

structure Target (K : Type) where
  index : ℤ
  q : K
  dq : K
  tq : K
  kp : K
  kd : K

structure Scene (K : Type) where
  qpos : List K
  qvel : List K
  timestep : K
  ctrlNoiseStd : K
  ctrlNoiseRate : K
  standardNormal : ℕ → K

structure Mathematics (K : Type) where
  exp : K → K
  sqrt : K → K
  minVal : K

structure Motors (K : Type) where
  jointNames : List String
  jointStateIndexMap : IndexMap
  targets : List (Target K)
  motorTorque : List K
  ctrlNoise : List K

variable {K : Type} [Field K]

def Target.read (cmd : JointCommand K) (index : ℤ) : Target K where
  index := index
  q := readAt cmd.position index
  dq := readAt cmd.velocity index
  tq := readAt cmd.effort index
  kp := readAt cmd.stiffness index
  kd := readAt cmd.damping index

def Target.torque (t : Target K) (q dq : K) : K := t.tq + (t.q - q) * t.kp + (t.dq - dq) * t.kd

def storeIndices (names : List String) (indices : IndexMap) : IndexMap :=
  names.zipIdx.foldl (fun indices e => indices.set e.1 e.2) indices

def loadTargets (cmd : JointCommand K) : List String → IndexMap → List (Target K) × IndexMap
  | [], indices => ([], indices)
  | name :: names, indices =>
    let (index, indices) := subscript indices name
    let (targets, indices) := loadTargets cmd names indices
    (.read cmd index :: targets, indices)

namespace Motors

def start (jointNames : List String) (nu : ℕ) : Motors K where
  jointNames := jointNames
  jointStateIndexMap := []
  targets := []
  motorTorque := Control.zeros jointNames.length
  ctrlNoise := Control.zeros nu

variable [LinearOrder K] (io : Mathematics K) (scene : Scene K)

def nextNoise (m : Motors K) : List K :=
  let rate := io.exp (-scene.timestep / max scene.ctrlNoiseRate io.minVal)
  let scale := scene.ctrlNoiseStd * io.sqrt (1 - rate * rate)
  m.ctrlNoise.mapIdx fun i x => rate * x + scale * scene.standardNormal i

def writeMotorCmd (cmd : JointCommand K) (m : Motors K) : Motors K :=
  let (targets, indices) := loadTargets cmd m.jointNames (storeIndices cmd.name m.jointStateIndexMap)
  let motorTorque := targets.mapIdx fun ii t =>
    t.torque (scene.qpos.getD (ii + 7) 0) (scene.qvel.getD (ii + 6) 0)
  let m := { m with
    jointStateIndexMap := indices
    targets := targets
    motorTorque := motorTorque }
  if scene.ctrlNoiseStd ≠ 0 then
    { m with
      motorTorque := motorTorque.mapIdx fun i x => x + (m.nextNoise io scene).getD i 0
      ctrlNoise := m.nextNoise io scene }
  else m

end Motors

section Loaded

theorem subscript_fst (indices : IndexMap) (name : String) :
    (subscript indices name).1 = (indices.at? name).getD 0 := by
  unfold subscript
  cases indices.at? name <;> rfl

theorem subscript_snd (indices : IndexMap) (name other : String) :
    ((subscript indices name).2.at? other).getD 0 = (indices.at? other).getD 0 := by
  unfold subscript
  cases h : indices.at? name with
  | some i => rfl
  | none =>
    dsimp only
    rw [IndexMap.at?_set]
    split_ifs with hname
    · rw [hname, h]
      rfl
    · rfl

theorem loadTargets_fst (cmd : JointCommand K) (names : List String) (indices : IndexMap) :
    (loadTargets cmd names indices).1 =
      names.map fun name => Target.read cmd ((indices.at? name).getD 0) := by
  induction names generalizing indices with
  | nil => rfl
  | cons name names ih =>
    simp only [loadTargets, List.map_cons, ih, subscript_fst, subscript_snd]

def indexFor (names : List String) (indices : IndexMap) (joint : String) : ℤ :=
  (((lastPlace names joint).map Nat.cast).or (indices.at? joint)).getD 0

theorem at?_storeIndices (names : List String) (indices : IndexMap) (joint : String) :
    ((storeIndices names indices).at? joint).getD 0 = indexFor names indices joint := by
  rw [storeIndices, IndexMap.at?_foldl_set, indexFor]

def demand (scene : Scene K) (t : Target K) (ii : ℕ) : K :=
  t.torque (scene.qpos.getD (ii + 7) 0) (scene.qvel.getD (ii + 6) 0)

theorem demand_of_place {scene : Scene K} {cmd : JointCommand K} {indices : IndexMap} {ii i : ℕ}
    {joint : String} (h : lastPlace cmd.name joint = some i) :
    demand scene (.read cmd (indexFor cmd.name indices joint)) ii =
      cmd.effort.getD i 0 +
        (cmd.position.getD i 0 - scene.qpos.getD (ii + 7) 0) * cmd.stiffness.getD i 0 +
        (cmd.velocity.getD i 0 - scene.qvel.getD (ii + 6) 0) * cmd.damping.getD i 0 := by
  have hread : ∀ v : List K, readAt v (i : ℤ) = v.getD i 0 := fun v => if_pos (Int.natCast_nonneg i)
  simp only [demand, Target.torque, Target.read, indexFor, h, Option.map_some, Option.some_or,
    Option.getD_some, hread]

end Loaded

structure Fits (cmd : JointCommand K) : Prop where
  position : cmd.position.length = cmd.name.length
  velocity : cmd.velocity.length = cmd.name.length
  effort : cmd.effort.length = cmd.name.length
  stiffness : cmd.stiffness.length = cmd.name.length
  damping : cmd.damping.length = cmd.name.length

namespace Motors
variable [LinearOrder K] (io : Mathematics K) (scene : Scene K)

def addedNoise (m : Motors K) (ii : ℕ) : K :=
  if scene.ctrlNoiseStd ≠ 0 then (m.nextNoise io scene).getD ii 0 else 0

section Call
variable (m : Motors K) (cmd : JointCommand K)

@[simp] theorem writeMotorCmd_jointNames :
    (m.writeMotorCmd io scene cmd).jointNames = m.jointNames := by
  unfold writeMotorCmd
  dsimp only
  split_ifs <;> rfl

theorem writeMotorCmd_targets : (m.writeMotorCmd io scene cmd).targets =
    m.jointNames.map fun joint => .read cmd (indexFor cmd.name m.jointStateIndexMap joint) := by
  have htargets : (m.writeMotorCmd io scene cmd).targets =
      (loadTargets cmd m.jointNames (storeIndices cmd.name m.jointStateIndexMap)).1 := by
    unfold writeMotorCmd
    dsimp only
    split_ifs <;> rfl
  rw [htargets, loadTargets_fst]
  simp only [at?_storeIndices]

theorem writeMotorCmd_motorTorque : (m.writeMotorCmd io scene cmd).motorTorque =
    (m.writeMotorCmd io scene cmd).targets.mapIdx fun ii t =>
      demand scene t ii + m.addedNoise io scene ii := by
  unfold writeMotorCmd addedNoise nextNoise demand
  dsimp only
  split_ifs
  · rw [List.mapIdx_mapIdx]
    rfl
  · simp only [add_zero]

theorem getElem?_motorTorque {ii : ℕ} {joint : String} (h : m.jointNames[ii]? = some joint) :
    (m.writeMotorCmd io scene cmd).motorTorque[ii]? =
      some (demand scene (.read cmd (indexFor cmd.name m.jointStateIndexMap joint)) ii +
        m.addedNoise io scene ii) := by
  rw [writeMotorCmd_motorTorque, writeMotorCmd_targets, List.getElem?_mapIdx, List.getElem?_map, h]
  rfl

end Call

/-- The motors do what this message says: a joint that it names gets the torque of its own
entries, the last ones under its name; a joint that it leaves out has its torque from no
entry of the message, and the message is not read beyond its end for it. -/
structure Follows (m : Motors K) (cmd : JointCommand K) : Prop where
  named : ∀ (ii : ℕ) joint i, m.jointNames[ii]? = some joint → lastPlace cmd.name joint = some i →
    (m.writeMotorCmd io scene cmd).motorTorque[ii]? =
      some (cmd.effort.getD i 0 +
        (cmd.position.getD i 0 - scene.qpos.getD (ii + 7) 0) * cmd.stiffness.getD i 0 +
        (cmd.velocity.getD i 0 - scene.qvel.getD (ii + 6) 0) * cmd.damping.getD i 0)
  leftOut : ∀ (ii : ℕ) joint, m.jointNames[ii]? = some joint → joint ∉ cmd.name →
    ∀ other : JointCommand K, other.name = cmd.name → Fits other →
      (m.writeMotorCmd io scene other).motorTorque[ii]? =
        (m.writeMotorCmd io scene cmd).motorTorque[ii]?
  inside : ∀ (ii : ℕ) joint t, m.jointNames[ii]? = some joint → joint ∉ cmd.name →
    (m.writeMotorCmd io scene cmd).targets[ii]? = some t → 0 ≤ t.index ∧ t.index < cmd.name.length

def Quiet (m : Motors K) : Prop := ∀ ii < m.jointNames.length, m.addedNoise io scene ii = 0

section Message
variable {io scene} {m : Motors K} {cmd : JointCommand K}

theorem quiet_of_std (h : scene.ctrlNoiseStd = 0) : m.Quiet io scene := by
  intro ii _
  rw [addedNoise, if_neg (not_not.mpr h)]

theorem Follows.covers (hfits : Fits cmd) (h : m.Follows io scene cmd) :
    ∀ joint ∈ m.jointNames, joint ∈ cmd.name := by
  intro joint hjoint
  by_contra hout
  obtain ⟨ii, hii⟩ := List.mem_iff_getElem?.mp hjoint
  let i := indexFor cmd.name m.jointStateIndexMap joint
  have htarget : (m.writeMotorCmd io scene cmd).targets[ii]? = some (.read cmd i) := by
    rw [writeMotorCmd_targets, List.getElem?_map, hii]
    rfl
  obtain ⟨hzero, hlast⟩ : 0 ≤ i ∧ i < cmd.name.length := h.inside ii joint _ hii hout htarget
  -- the same message with other efforts
  let raised : JointCommand K := { cmd with effort := cmd.effort.map (· + 1) }
  have hraised : Fits raised :=
    ⟨hfits.position, hfits.velocity, by simpa [raised] using hfits.effort, hfits.stiffness,
      hfits.damping⟩
  have heffort : readAt raised.effort i = readAt cmd.effort i + 1 := by
    have hi : i.toNat < cmd.effort.length := by
      rw [hfits.effort]
      omega
    simp [raised, readAt, hzero, hi]
  have hdemand : demand scene (.read raised i) ii = demand scene (.read cmd i) ii + 1 := by
    simp only [demand, Target.torque, Target.read, heffort]
    ring
  have hsame := h.leftOut ii joint hii hout raised rfl hraised
  rw [getElem?_motorTorque io scene m _ hii, getElem?_motorTorque io scene m _ hii] at hsame
  have hone : demand scene (.read cmd i) ii + 1 = demand scene (.read cmd i) ii :=
    hdemand.symm.trans (add_right_cancel (Option.some.inj hsame))
  exact one_ne_zero (left_eq_add.mp hone.symm)

theorem follows_message_iff (hfits : Fits cmd) :
    m.Follows io scene cmd ↔
      (∀ joint ∈ m.jointNames, joint ∈ cmd.name) ∧ m.Quiet io scene := by
  constructor
  · intro h
    have hcovers := h.covers hfits
    refine ⟨hcovers, fun ii hlt => ?_⟩
    have hii := List.getElem?_eq_getElem hlt
    obtain ⟨i, hi⟩ : ∃ i, lastPlace cmd.name m.jointNames[ii] = some i := by
      rw [← Option.ne_none_iff_exists']
      exact fun hnone => Control.lastPlace_eq_none_iff.mp hnone (hcovers _ (List.getElem_mem hlt))
    have htorque := h.named ii _ i hii hi
    rw [getElem?_motorTorque io scene m cmd hii, demand_of_place hi] at htorque
    exact left_eq_add.mp (Option.some.inj htorque).symm
  · rintro ⟨hcovers, hquiet⟩
    have hnamed : ∀ {ii : ℕ} {joint}, m.jointNames[ii]? = some joint → joint ∈ cmd.name :=
      fun hii => hcovers _ (List.mem_of_getElem? hii)
    refine ⟨fun ii joint i hii hi => ?_, fun ii joint hii hout => absurd (hnamed hii) hout,
      fun ii joint t hii hout => absurd (hnamed hii) hout⟩
    have hlt := (List.getElem?_eq_some_iff.mp hii).1
    rw [getElem?_motorTorque io scene m cmd hii, demand_of_place hi, hquiet ii hlt, add_zero]

end Message

/-- In every run the motors follow a message exactly if it names every simulated joint, and
the control noise adds nothing. -/
theorem follows_iff (m : Motors K) (calls : List (Scene K × JointCommand K))
    (cmd : JointCommand K) (hfits : Fits cmd) :
    let s := calls.foldl (fun s call => s.writeMotorCmd io call.1 call.2) m
    s.Follows io scene cmd ↔
      (∀ joint ∈ m.jointNames, joint ∈ cmd.name) ∧ s.Quiet io scene := by
  intro s
  have hnames : s.jointNames = m.jointNames :=
    Runs.foldl_invariant _ (fun s => s.jointNames = m.jointNames) rfl
      (fun s call h => (writeMotorCmd_jointNames io call.1 s call.2).trans h) calls
  rw [follows_message_iff hfits, hnames]

section Bench

def bench : Motors ℚ := .start ["hip", "knee"] 2

def still : Scene ℚ := ⟨List.replicate 9 0, List.replicate 8 0, 1 / 500, 0, 0, fun _ => 0⟩

def noMath : Mathematics ℚ := ⟨id, id, 0⟩

def effortOf (joint : String) (x : ℚ) : JointCommand ℚ := ⟨[joint], [0], [0], [x], [0], [0]⟩

def effortOfBoth (x y : ℚ) : JointCommand ℚ :=
  ⟨["knee", "hip"], [0, 0], [0, 0], [x, y], [0, 0], [0, 0]⟩

theorem follows_bench :
    ([(still, effortOf "knee" 3)].foldl (fun s call => s.writeMotorCmd noMath call.1 call.2)
      bench).Follows noMath still (effortOfBoth 1 2) :=
  (follows_iff noMath still bench [(still, effortOf "knee" 3)] (effortOfBoth 1 2)
    ⟨rfl, rfl, rfl, rfl, rfl⟩).mpr ⟨by decide, quiet_of_std rfl⟩

/-- The knee, which the message does not name, gets the effort of the hip. -/
theorem not_follows_bench :
    ¬ ∀ (m : Motors ℚ) (calls : List (Scene ℚ × JointCommand ℚ)) (cmd : JointCommand ℚ), Fits cmd →
      (calls.foldl (fun s call => s.writeMotorCmd noMath call.1 call.2) m).Follows noMath still cmd := by
  intro h
  have hfits : ∀ x, Fits (effortOf "hip" x) := fun _ => ⟨rfl, rfl, rfl, rfl, rfl⟩
  have hknee := (h bench [] (effortOf "hip" 5) (hfits 5)).leftOut 1 "knee" rfl (by decide)
    (effortOf "hip" 7) rfl (hfits 7)
  revert hknee
  decide +kernel

end Bench
end Motors
end MybipedalDeploy.Sim
