import Mathlib.Data.List.DropRight
import Mathlib.Logic.Function.Basic
import MybipedalDeploy.Imu.Reassembly
import MybipedalDeploy.Library.Runs

/-!
# One observation, one tick

The quaternion is the last frame of a tick. The flags of the other two sensors are
cleared by a commit only, so one that lacks its partner waits for a later tick. An
observation is of one tick exactly if no quaternion comes after one sensor of its
tick while the other sensor is left over.
-/

namespace MybipedalDeploy.Imu

inductive Reading
  | accel
  | gyro
deriving DecidableEq

namespace Reading

def rid : Reading → Byte
  | .accel => ridAccel
  | .gyro => ridGyro

def other : Reading → Reading
  | .accel => .gyro
  | .gyro => .accel

theorem rid_ne_quat (k : Reading) : k.rid ≠ ridQuat := by
  cases k <;> decide

theorem rid_injective : Function.Injective rid := by
  intro k l h
  cases k <;> cases l <;> first | rfl | exact absurd h (by decide)

theorem eq_or_eq_other (k l : Reading) : l = k ∨ l = k.other := by
  cases k <;> cases l <;> simp [other]

end Reading

def Sensor.value {K : Type} (s : Sensor K) : Reading → K × K × K
  | .accel => (s.pending.accX, s.pending.accY, s.pending.accZ)
  | .gyro => (s.pending.gyrX, s.pending.gyrY, s.pending.gyrZ)

def Sensor.flag {K : Type} (s : Sensor K) : Reading → Bool
  | .accel => s.pending.hasAccel
  | .gyro => s.pending.hasGyro

def ImuObservation.value {K : Type} (o : ImuObservation K) : Reading → K × K × K
  | .accel => (o.accX, o.accY, o.accZ)
  | .gyro => (o.gyrX, o.gyrY, o.gyrZ)

namespace Tick

def rid (frame : List Byte) : Byte := frame.getD 3 0

def axes {K : Type} (io : Platform K) (frame : List Byte) : K × K × K :=
  (io.f32le frame 4, io.f32le frame 8, io.f32le frame 12)

def current (frames : List (List Byte)) : List (List Byte) :=
  frames.rtakeWhile fun f => rid f ≠ ridQuat

def Has (k : Reading) (frames : List (List Byte)) : Prop := ∃ f ∈ frames, rid f = k.rid

theorem current_concat (frames : List (List Byte)) (frame : List Byte) :
    current (frames ++ [frame]) =
      if rid frame = ridQuat then [] else current frames ++ [frame] := by
  unfold current
  rw [List.rtakeWhile_concat]
  by_cases h : rid frame = ridQuat <;> simp [h]

theorem has_concat {k : Reading} {frames : List (List Byte)} {frame : List Byte} :
    Has k (frames ++ [frame]) ↔ Has k frames ∨ rid frame = k.rid := by
  simp [Has, or_and_right, exists_or]

theorem not_has_nil (k : Reading) : ¬ Has k [] := by
  rintro ⟨f, hf, -⟩
  exact absurd hf List.not_mem_nil

section Sensor
variable {K : Type} (io : Platform K)

structure Idle (s t : Sensor K) : Prop where
  value : t.value = s.value
  flag : t.flag = s.flag
  committed : t.committed = s.committed

structure Noted (k : Reading) (frame : List Byte) (s t : Sensor K) : Prop where
  value : t.value = Function.update s.value k (axes io frame)
  flag : t.flag = Function.update s.flag k true
  committed : t.committed = s.committed

structure Commits (s t : Sensor K) : Prop where
  ready : ∀ k, s.flag k = true
  value : t.value = s.value
  flag : ∀ k, t.flag k = false
  committed : ∃ obs : ImuObservation K, t.committed = s.committed ++ [obs] ∧ obs.value = s.value

theorem commitTick_commits {s t : Sensor K} (h : Idle s t) (hready : ∀ k, s.flag k = true) :
    Commits s (t.commitTick io) := by
  refine ⟨hready, funext fun k => ?_, fun k => ?_, t.next io, ?_, funext fun k => ?_⟩
  · rw [← h.value]
    cases k <;> rfl
  · cases k <;> rfl
  · rw [← h.committed]
    rfl
  · rw [← h.value]
    cases k <;> rfl

def From (frames : List (List Byte)) (k : Reading) (v : K × K × K) : Prop :=
  ∃ f ∈ frames, rid f = k.rid ∧ v = axes io f

structure Kept (cur : List (List Byte)) (s : Sensor K) : Prop where
  fresh : ∀ k, Has k cur → s.flag k = true ∧ From io cur k (s.value k)
  stale : (∀ k, s.flag k = true) → ∃ k, Has k cur

theorem Kept.idle {cur more : List (List Byte)} {s t : Sensor K} (h : Kept io cur s) (hi : Idle s t)
    (hmore : ∀ k, Has k more ↔ Has k cur) (hsub : cur ⊆ more) : Kept io more t := by
  constructor
  · intro k hk
    rw [hi.flag, hi.value]
    obtain ⟨hflag, f, hf, hrid, hv⟩ := h.fresh k ((hmore k).mp hk)
    exact ⟨hflag, f, hsub hf, hrid, hv⟩
  · rw [hi.flag]
    intro hready
    obtain ⟨k, hk⟩ := h.stale hready
    exact ⟨k, (hmore k).mpr hk⟩

theorem Kept.noted {cur : List (List Byte)} {s t : Sensor K} {k : Reading} {frame : List Byte}
    (h : Kept io cur s) (hk : rid frame = k.rid) (hn : Noted io k frame s t) :
    Kept io (cur ++ [frame]) t := by
  have hnow : Has k (cur ++ [frame]) := has_concat.mpr (.inr hk)
  refine ⟨fun l hl => ?_, fun _ => ⟨k, hnow⟩⟩
  rw [hn.flag, hn.value]
  by_cases hlk : l = k
  · subst hlk
    rw [Function.update_self, Function.update_self]
    exact ⟨rfl, frame, by simp, hk, rfl⟩
  · rw [Function.update_of_ne hlk, Function.update_of_ne hlk]
    have hold : Has l cur := (has_concat.mp hl).resolve_right fun hr =>
      hlk (Reading.rid_injective (hr.symm.trans hk))
    obtain ⟨hflag, f, hf, hrid, hv⟩ := h.fresh l hold
    exact ⟨hflag, f, by simp [hf], hrid, hv⟩

variable [Field K] [LinearOrder K]

def take (s : Sensor K) (frame : List Byte) : Sensor K := (s.record io frame).getD s

def after (s : Sensor K) (frames : List (List Byte)) : Sensor K := frames.foldl (take io) s

theorem sensor_eq_after (s₀ : Sensor K) (chunks : List (List Byte)) :
    (chunks.foldl (ImuDriver.readChunk io) (.new s₀)).sensor =
      after io s₀ (chunks.foldl (ImuDriver.readChunk io) (.new s₀)).accepted := by
  obtain ⟨haccepted, hsensor, _⟩ := ImuDriver.reassembly io s₀ chunks
  rw [hsensor, haccepted]
  rfl

theorem setQuat_idle (f1 f2 f3 f4 : K) (s : Sensor K) : Idle s (s.setQuat io f1 f2 f3 f4) := by
  unfold Sensor.setQuat
  dsimp only
  split_ifs <;> exact ⟨rfl, rfl, rfl⟩

theorem take_reading {s : Sensor K} {frame : List Byte} {k : Reading} (h : rid frame = k.rid) :
    Noted io k frame s (take io s frame) := by
  have hframe : frame.getD 3 0 = k.rid := h
  cases k with
  | accel =>
    simp only [take, Sensor.record, hframe, Reading.rid, if_true, Option.getD_some]
    exact ⟨funext fun l => by cases l <;> rfl, funext fun l => by cases l <;> rfl, rfl⟩
  | gyro =>
    have hne : ridGyro ≠ ridAccel := by decide
    simp only [take, Sensor.record, hframe, Reading.rid, if_neg hne, if_true, Option.getD_some]
    exact ⟨funext fun l => by cases l <;> rfl, funext fun l => by cases l <;> rfl, rfl⟩

theorem take_quat {s : Sensor K} {frame : List Byte} (h : rid frame = ridQuat) :
    Commits s (take io s frame) ∨ (¬ ∀ k, s.flag k = true) ∧ Idle s (take io s frame) := by
  have hframe : frame.getD 3 0 = ridQuat := h
  have haccel : ridQuat ≠ ridAccel := by decide
  have hgyro : ridQuat ≠ ridGyro := by decide
  have heuler : ridQuat ≠ ridEuler := by decide
  have hidle := setQuat_idle io (io.f32le frame 4) (io.f32le frame 8) (io.f32le frame 12)
    (io.f32le frame 16) s
  simp only [take, Sensor.record, hframe, if_neg haccel, if_neg hgyro, if_neg heuler, if_true,
    Option.getD_some]
  generalize s.setQuat io (io.f32le frame 4) (io.f32le frame 8) (io.f32le frame 12)
    (io.f32le frame 16) = t at hidle
  have hflag : (t.pending.hasAccel && t.pending.hasGyro) = true ↔ ∀ k, s.flag k = true := by
    rw [← hidle.flag, Bool.and_eq_true]
    exact ⟨fun h k => by cases k <;> [exact h.1; exact h.2], fun h => ⟨h .accel, h .gyro⟩⟩
  split_ifs with hready
  · exact .inl (commitTick_commits io hidle (hflag.mp hready))
  · exact .inr ⟨fun hall => hready (hflag.mpr hall), hidle⟩

theorem take_rest {s : Sensor K} {frame : List Byte} (hreading : ∀ k : Reading, rid frame ≠ k.rid)
    (hquat : rid frame ≠ ridQuat) : Idle s (take io s frame) := by
  have haccel : frame.getD 3 0 ≠ ridAccel := hreading .accel
  have hgyro : frame.getD 3 0 ≠ ridGyro := hreading .gyro
  have hother : frame.getD 3 0 ≠ ridQuat := hquat
  simp only [take, Sensor.record, if_neg haccel, if_neg hgyro, if_neg hother]
  split_ifs <;> exact ⟨rfl, rfl, rfl⟩

theorem take_cases (s : Sensor K) (frame : List Byte) :
    (∃ k : Reading, rid frame = k.rid ∧ Noted io k frame s (take io s frame)) ∨
    (rid frame = ridQuat ∧ Commits s (take io s frame)) ∨
    (rid frame = ridQuat ∧ (¬ ∀ k, s.flag k = true) ∧ Idle s (take io s frame)) ∨
    ((∀ k : Reading, rid frame ≠ k.rid) ∧ rid frame ≠ ridQuat ∧ Idle s (take io s frame)) := by
  by_cases hreading : ∃ k : Reading, rid frame = k.rid
  · obtain ⟨k, hk⟩ := hreading
    exact .inl ⟨k, hk, take_reading io hk⟩
  · have hnone : ∀ k : Reading, rid frame ≠ k.rid := fun k hk => hreading ⟨k, hk⟩
    by_cases hquat : rid frame = ridQuat
    · rcases take_quat io hquat with hcommits | ⟨hready, hidle⟩
      · exact .inr (.inl ⟨hquat, hcommits⟩)
      · exact .inr (.inr (.inl ⟨hquat, hready, hidle⟩))
    · exact .inr (.inr (.inr ⟨hnone, hquat, take_rest io hnone hquat⟩))

theorem kept (hasObsCb : Bool) (cbEveryN : BitVec 32) (frames : List (List Byte)) :
    Kept io (current frames) (after io (.new hasObsCb cbEveryN) frames) := by
  refine Runs.foldl_history (take io) (fun fs s => Kept io (current fs) s) ?_ ?_ frames
  · exact ⟨fun k hk => absurd hk (not_has_nil k), fun hready => absurd (hready .accel) Bool.false_ne_true⟩
  · intro fs frame hkept
    rw [current_concat]
    rcases take_cases io (fs.foldl (take io) (.new hasObsCb cbEveryN)) frame with
      ⟨k, hk, hnoted⟩ | ⟨hquat, hcommits⟩ | ⟨hquat, hready, hidle⟩ | ⟨hreading, hquat, hidle⟩
    · rw [if_neg (hk ▸ k.rid_ne_quat)]
      exact hkept.noted io hk hnoted
    · rw [if_pos hquat]
      refine ⟨fun k hk => absurd hk (not_has_nil k), fun hready => ?_⟩
      exact absurd (hready .accel) (by simp [hcommits.flag])
    · rw [if_pos hquat]
      exact ⟨fun k hk => absurd hk (not_has_nil k), fun h => absurd (hidle.flag ▸ h) hready⟩
    · rw [if_neg hquat]
      refine hkept.idle io hidle (fun k => ?_) (List.subset_append_left _ _)
      rw [has_concat, or_iff_left (hreading k)]

def CommitsOneTick (s : Sensor K) (cur : List (List Byte)) (frame : List Byte) : Prop :=
  ∀ obs : ImuObservation K, (take io s frame).committed = s.committed ++ [obs] →
    ∀ k, From io cur k (obs.value k)

/-- A quaternion comes after one sensor of its tick, with the other one left over. -/
def Mixes (s : Sensor K) (cur : List (List Byte)) (frame : List Byte) : Prop :=
  rid frame = ridQuat ∧ ∃ k : Reading, Has k cur ∧ ¬ Has k.other cur ∧ s.flag k.other = true

theorem Kept.commitsOneTick_iff {cur : List (List Byte)} {s : Sensor K} (h : Kept io cur s)
    (frame : List Byte) : CommitsOneTick io s cur frame ↔ ¬ Mixes s cur frame := by
  have hnever : ∀ {obs : ImuObservation K}, Idle s (take io s frame) →
      (take io s frame).committed ≠ s.committed ++ [obs] := by
    intro obs hidle hobs
    have hlength := congrArg List.length (hidle.committed.symm.trans hobs)
    simp at hlength
  constructor
  · rintro hone ⟨hquat, k, hk, hother, hflag⟩
    have hready : ∀ l, s.flag l = true := fun l =>
      (k.eq_or_eq_other l).elim (· ▸ (h.fresh k hk).1) (· ▸ hflag)
    rcases take_quat io (s := s) hquat with hcommits | ⟨hnot, -⟩
    · obtain ⟨obs, hobs, -⟩ := hcommits.committed
      obtain ⟨f, hf, hrid, -⟩ := hone obs hobs k.other
      exact hother ⟨f, hf, hrid⟩
    · exact hnot hready
  · intro hmix obs hobs k
    rcases take_cases io s frame with ⟨l, -, hnoted⟩ | ⟨hquat, hcommits⟩ | ⟨-, -, hidle⟩ |
      ⟨-, -, hidle⟩
    · have hlength := congrArg List.length (hnoted.committed.symm.trans hobs)
      simp at hlength
    · obtain ⟨obs', hobs', hvalue⟩ := hcommits.committed
      obtain rfl : obs' = obs := by simpa using hobs'.symm.trans hobs
      -- One sensor was heard in this tick, so the other was too.
      obtain ⟨l, hl⟩ := h.stale hcommits.ready
      have hother : Has l.other cur := by
        by_contra hno
        exact hmix ⟨hquat, l, hl, hno, hcommits.ready _⟩
      have hk : Has k cur := (l.eq_or_eq_other k).elim (· ▸ hl) (· ▸ hother)
      rw [hvalue]
      exact (h.fresh k hk).2
    · exact absurd hobs (hnever hidle)
    · exact absurd hobs (hnever hidle)

/-- Every observation is of one tick exactly if no quaternion mixes two. -/
theorem one_tick_iff (hasObsCb : Bool) (cbEveryN : BitVec 32) (frames : List (List Byte)) :
    (∀ p f q, frames = p ++ f :: q →
        CommitsOneTick io (after io (.new hasObsCb cbEveryN) p) (current p) f) ↔
      ∀ p f q, frames = p ++ f :: q →
        ¬ Mixes (after io (.new hasObsCb cbEveryN) p) (current p) f := by
  refine forall₄_congr fun p f q _ => ?_
  exact (kept io hasObsCb cbEveryN p).commitsOneTick_iff io f

end Sensor

def accelFrame : List Byte :=
  [0x55, 0xAA, 0x01, 0x01, 0, 0, 0x80, 0x3F, 0, 0, 0, 0, 0, 0, 0, 0, 0x87, 0x1E, 0x0A]

def gyroFrame : List Byte :=
  [0x55, 0xAA, 0x01, 0x02, 0, 0, 0, 0x40, 0, 0, 0, 0, 0, 0, 0, 0, 0x96, 0xA8, 0x0A]

def quatFrame : List Byte :=
  [0x55, 0xAA, 0x01, 0x04, 0, 0, 0x80, 0x3F, 0, 0, 0, 0, 0, 0, 0, 0, 0, 0, 0, 0, 0xFF, 0x0E, 0x0A]

/-- The accelerometer frame of the first tick and the gyro frame of the second are lost. -/
theorem gyro_left_over :
    ¬ ∀ (io : Platform ℚ) (hasObsCb : Bool) (cbEveryN : BitVec 32) (chunks : List (List Byte))
        (p : List (List Byte)) (f : List Byte) (q : List (List Byte)),
      (chunks.foldl (ImuDriver.readChunk io) (.new (.new hasObsCb cbEveryN))).accepted = p ++ f :: q →
        CommitsOneTick io (after io (.new hasObsCb cbEveryN) p) (current p) f := by
  intro h
  let io : Platform ℚ := ⟨fun bits => bits.toNat, id, fun _ => 0⟩
  have hone := h io true 1 [gyroFrame ++ quatFrame, accelFrame ++ quatFrame]
    [gyroFrame, quatFrame, accelFrame] quatFrame [] (by decide +kernel)
  refine ((kept io true 1 [gyroFrame, quatFrame, accelFrame]).commitsOneTick_iff io quatFrame).mp
    hone ⟨rfl, .accel, ⟨accelFrame, ?_, rfl⟩, ?_, ?_⟩
  · decide
  · rintro ⟨f, hf, hrid⟩
    obtain rfl : f = accelFrame := List.mem_singleton.mp hf
    exact absurd hrid (by decide)
  · decide +kernel

end Tick
end MybipedalDeploy.Imu
