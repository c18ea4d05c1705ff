import Mathlib.Algebra.Field.Rat
import MybipedalDeploy.Imu.ImuObservation
import MybipedalDeploy.Library.Runs
import MybipedalDeploy.Library.VersionedCell

/-!
# The sequence lock of the observation

`commitTick` stores the fields of the observation between two increments of the
version; `getObs` copies them between two loads of it. A load that finds an odd
version goes to the loop test with the second load of the round before, which is
how a torn copy can get out.
-/

namespace MybipedalDeploy.Imu
open Runs (Run Along)
open VersionedCell (Cell Copy)

/-- Where a call of `getObs` stands. `since` in the copy is a count kept for the
proofs. -/
inductive Reader (K : Type)
  | idle
  | load (v1 : BitVec 32) (out : (i : ObsField) → i.Word K)
  | copy (v0 : BitVec 32) (copied : Copy (ObsField.Word K))
  | test (v0 v1 : BitVec 32) (out : (i : ObsField) → i.Word K)
  | returned (out : ImuObservation K)

structure Seqlock (K : Type) where
  obsVer : BitVec 32
  obs : Cell (ObsField.Word K)
  reader : ℕ → Reader K

namespace Seqlock
variable {K : Type}

/-- The order in which the fields of a record are stored or copied is free. -/
inductive Action (K : Type)
  | commit (next : ImuObservation K) (order : List ObsField)
  | store
  | publish
  | call (r : ℕ)
  | read (r : ℕ) (order : List ObsField)

def odd (v : BitVec 32) : Bool := v.getLsbD 0

def commits (as : List (Action K)) : List (ImuObservation K) :=
  as.filterMap fun
    | .commit next _ => some next
    | _ => none

theorem commits_append (as : List (Action K)) (a : Action K) :
    commits (as ++ [a]) = commits as ++ commits [a] := by
  simp only [commits, List.filterMap_append]

theorem odd_ofNat (n : ℕ) : odd (BitVec.ofNat 32 n) = false ↔ n % 2 = 0 := by
  simp only [odd, BitVec.getLsbD_ofNat, Nat.testBit_zero]
  simp

theorem count_eq_of_version {m n : ℕ} (h : BitVec.ofNat 32 m = BitVec.ofNat 32 n) (hle : m ≤ n)
    (hlt : n < m + 2 ^ 32) : n = m := by
  have hmod : m % 2 ^ 32 = n % 2 ^ 32 := by simpa using congrArg BitVec.toNat h
  omega

def Holds (c : Cell (ObsField.Word K)) : Reader K → Prop
  | .idle | .load _ _ => True
  | .copy v0 copied => v0 = BitVec.ofNat 32 copied.since ∧ copied.Faithful c
  | .test v0 v1 out => v0 = v1 → out ∈ c.log
  | .returned out => ∃ w ∈ c.log, out = .ofWords w

theorem Holds.mono {c c' : Cell (ObsField.Word K)} (hlog : ∀ w ∈ c.log, w ∈ c'.log)
    (hcopy : ∀ copied : Copy (ObsField.Word K), copied.Faithful c → copied.Faithful c')
    {p : Reader K} (h : Holds c p) : Holds c' p := by
  cases p with
  | idle => trivial
  | load v1 out => trivial
  | copy v0 copied => exact ⟨h.1, hcopy copied h.2⟩
  | test v0 v1 out => exact fun heq => hlog out (h heq)
  | returned out =>
    obtain ⟨w, hw, hout⟩ := h
    exact ⟨w, hlog w hw, hout⟩

variable [Field K]

def setReader (s : Seqlock K) (r : ℕ) (p : Reader K) : Seqlock K :=
  { s with reader := Function.update s.reader r p }

def readStep (s : Seqlock K) (order : List ObsField) : Reader K → Option (Reader K)
  | .load v1 out =>
    if odd s.obsVer then some (.test s.obsVer v1 out)
    else if ObsField.all ⊆ order then some (.copy s.obsVer ⟨s.obs.count, out, order⟩)
    else none
  | .copy v0 ⟨_, out, []⟩ => some (.test v0 s.obsVer out)
  | .copy v0 c => some (.copy v0 (c.take s.obs))
  | .test v0 v1 out => some (if v0 ≠ v1 then .load v1 out else .returned (.ofWords out))
  | .idle | .returned _ => none

def step (s : Seqlock K) : Action K → Option (Seqlock K)
  | .commit next order =>
    if s.obs.writing = none ∧ ObsField.all ⊆ order then
      some { s with obsVer := s.obsVer + 1, obs := s.obs.start next.words order }
    else none
  | .store =>
    match s.obs.writing with
    | some (_, _ :: _) => some { s with obs := s.obs.store }
    | _ => none
  | .publish =>
    match s.obs.writing with
    | some (_, []) => some { s with obsVer := s.obsVer + 1, obs := s.obs.finish }
    | _ => none
  | .call r =>
    match s.reader r with
    | .idle | .returned _ => some (s.setReader r (.load 0 ImuObservation.default.words))
    | _ => none
  | .read r order => (readStep s order (s.reader r)).map (s.setReader r)

def initial : Seqlock K := ⟨0, .init ImuObservation.default.words, fun _ => .idle⟩

/-- A reader that finds an odd version does not hold the same version from the
round before, and a round ends before the version can come round. -/
def Clean (s : Seqlock K) : Action K → Prop
  | .read r _ =>
    match s.reader r with
    | .load v1 _ => odd s.obsVer = true → s.obsVer ≠ v1
    | .copy _ ⟨since, _, []⟩ => s.obs.count < since + 2 ^ 32
    | _ => True
  | _ => True

instance (s : Seqlock K) (a : Action K) : Decidable (s.Clean a) := by
  unfold Clean
  split
  · split <;> infer_instance
  · infer_instance

structure Inv (as : List (Action K)) (s : Seqlock K) : Prop where
  version : s.obsVer = BitVec.ofNat 32 s.obs.count
  cell : s.obs.WellFormed
  log : s.obs.log = ImuObservation.default.words :: (commits as).map ImuObservation.words
  readers : ∀ r, Holds s.obs (s.reader r)

theorem holds_readStep {as : List (Action K)} {s : Seqlock K} (hs : s.Inv as) {r : ℕ}
    {order : List ObsField} (hclean : s.Clean (.read r order)) {p : Reader K}
    (h : readStep s order (s.reader r) = some p) : Holds s.obs p := by
  have hr := hs.readers r
  simp only [Clean] at hclean
  generalize s.reader r = q at h hr hclean
  cases q with
  | idle => cases h
  | returned out => cases h
  | load v1 out =>
    simp only [readStep] at h
    split_ifs at h with hodd horder
    · -- An odd version skips the copy, and `v1` is still that of the round before.
      cases h
      exact fun heq => absurd heq (hclean hodd)
    · cases h
      have heven : s.obs.count % 2 = 0 := (odd_ofNat _).mp (by simpa [hs.version] using hodd)
      exact ⟨hs.version, Copy.faithful_begin heven out fun i => horder (ObsField.mem_all i)⟩
  | copy v0 copied =>
    obtain ⟨hv0, hfaithful⟩ := hr
    obtain ⟨since, out, left⟩ := copied
    cases left with
    | nil =>
      cases h
      intro heq
      -- Equal versions are equal counts, since the round is shorter than one turn.
      have hcount := count_eq_of_version (hv0.symm.trans (heq.trans hs.version)) hfaithful.le hclean
      exact hfaithful.complete hs.cell rfl hcount
    | cons i left =>
      cases h
      exact ⟨hv0, hfaithful.take⟩
  | test v0 v1 out =>
    simp only [readStep, Option.some.injEq] at h
    subst h
    split_ifs with hne
    · trivial
    · exact ⟨out, hr (not_not.mp hne), rfl⟩

theorem inv_initial : (initial : Seqlock K).Inv [] :=
  ⟨rfl, Cell.wellFormed_init _, rfl, fun _ => trivial⟩

theorem version_succ {s : Seqlock K} {as : List (Action K)} (hs : s.Inv as) :
    s.obsVer + 1 = BitVec.ofNat 32 (s.obs.count + 1) := by
  rw [hs.version, BitVec.ofNat_add]
  rfl

theorem inv_setReader {as : List (Action K)} {s : Seqlock K} {a : Action K} (hs : s.Inv as)
    (ha : commits [a] = []) {r : ℕ} {p : Reader K} (hp : Holds s.obs p) :
    (s.setReader r p).Inv (as ++ [a]) := by
  refine ⟨hs.version, hs.cell, ?_, fun r' => ?_⟩
  · rw [commits_append, ha, List.append_nil]
    exact hs.log
  · simp only [setReader, Function.update_apply]
    split_ifs
    · exact hp
    · exact hs.readers r'

theorem inv_step {as : List (Action K)} {s t : Seqlock K} {a : Action K} (hs : s.Inv as)
    (hclean : s.Clean a) (h : s.step a = some t) : t.Inv (as ++ [a]) := by
  cases a with
  | commit next order =>
    simp only [step] at h
    split_ifs at h with hc
    cases h
    refine ⟨version_succ hs, hs.cell.start hc.1 _ fun i => hc.2 (ObsField.mem_all i), ?_, fun r => ?_⟩
    · simp [Cell.start, hs.log, commits]
    · exact (hs.readers r).mono (fun w hw => by simp [Cell.start, hw]) fun _ hf => hf.start _ _
  | store =>
    simp only [step] at h
    split at h
    · cases h
      refine ⟨by simpa using hs.version, hs.cell.store, ?_, fun r => ?_⟩
      · simpa [commits] using hs.log
      · exact (hs.readers r).mono (fun w hw => by simpa using hw) fun _ hf => hf.store hs.cell
    · cases h
  | publish =>
    simp only [step] at h
    split at h
    next v hw =>
      cases h
      refine ⟨version_succ hs, hs.cell.finish hw, ?_, fun r => ?_⟩
      · simpa [Cell.finish, commits] using hs.log
      · have hlog : ∀ w ∈ s.obs.log, w ∈ s.obs.finish.log := fun w hw => hw
        exact (hs.readers r).mono hlog fun _ hf => hf.finish
    · cases h
  | call r =>
    simp only [step] at h
    split at h
    · cases h
      exact inv_setReader hs rfl trivial
    · cases h
      exact inv_setReader hs rfl trivial
    · cases h
  | read r order =>
    obtain ⟨p, hp, rfl⟩ := Option.map_eq_some_iff.mp h
    exact inv_setReader hs rfl (holds_readStep hs hclean hp)

/-- In a clean run every call of `getObs` returns the initial observation or that
of one commit. -/
theorem getObs_complete {as : List (Action K)} {s : Seqlock K} (h : Run step initial as s)
    (hclean : Along step Clean initial as) {r : ℕ} {out : ImuObservation K}
    (hr : s.reader r = .returned out) : out = .default ∨ out ∈ commits as := by
  have hinv : s.Inv as := h.guarded Clean (fun as s => s.Inv as) inv_initial
    (fun _ _ _ _ hs hc hstep => inv_step hs hc hstep) hclean
  have hread := hinv.readers r
  rw [hr] at hread
  obtain ⟨w, hw, rfl⟩ := hread
  rw [hinv.log, List.mem_cons, List.mem_map] at hw
  rcases hw with rfl | ⟨next, hnext, rfl⟩
  · exact .inl (ImuObservation.ofWords_words _)
  · exact .inr (by rwa [ImuObservation.ofWords_words])

def turned : ImuObservation ℚ :=
  { (ImuObservation.default : ImuObservation ℚ) with
    qw := 0, qz := 1, timestampNs := 1000000, seq := 1, valid := 1 }

def stores (n : ℕ) : List (Action ℚ) := List.replicate n .store

def rounds (n : ℕ) : List (Action ℚ) := List.replicate n (.read 0 ObsField.all)

def cleanRun : List (Action ℚ) :=
  [.call 0] ++ rounds 3 ++ [.commit turned ObsField.all] ++ stores 13 ++ [.publish] ++
    rounds 13 ++ rounds 16

def tornRun : List (Action ℚ) :=
  [.call 0] ++ rounds 2 ++ [.commit turned ObsField.all] ++ stores 13 ++ rounds 16

def returned (s : Seqlock ℚ) : Option (ImuObservation ℚ) :=
  match s.reader 0 with
  | .returned out => some out
  | _ => none

theorem reader_of_returned {s : Seqlock ℚ} {out : ImuObservation ℚ}
    (h : returned s = some out) : s.reader 0 = .returned out := by
  unfold returned at h
  split at h
  · cases h
    assumption
  · cases h

theorem cleanRun_runs : (Runs.exec step initial cleanRun).isSome = true := by decide +kernel

theorem getObs_complete_cleanRun :
    turned = .default ∨ turned ∈ commits cleanRun :=
  getObs_complete (Runs.run_of_exec cleanRun (Option.some_get cleanRun_runs).symm)
    (Runs.along_of_guardsHold (by decide +kernel)) (reader_of_returned (by decide +kernel))

theorem tornRun_runs : (Runs.exec step initial tornRun).isSome = true := by decide +kernel

/-- The first field is from before the commit, the others are from the commit. -/
theorem getObs_torn :
    ¬ ∀ as s r out, Run step (initial : Seqlock ℚ) as s → s.reader r = .returned out →
      out = .default ∨ out ∈ commits as := by
  intro h
  have htorn := h tornRun _ 0 { turned with qw := 1 }
    (Runs.run_of_exec tornRun (Option.some_get tornRun_runs).symm)
    (reader_of_returned (by decide +kernel))
  revert htorn
  decide +kernel

end Seqlock
end MybipedalDeploy.Imu
