import MybipedalDeploy.Control.MatchedByName
import MybipedalDeploy.Control.Traces

/-!
# What the trace files hold

The rows of the three traces are those of the passes, the joint states and the samples, one
for each, until the first dump; the files are the newest of them and stay as they are. The
joint states are read at the places of the first message.
-/

namespace MybipedalDeploy.Control
open Msg (Twist Imu JointState JointCommand)
open Runs (Run)

namespace Traced
variable {K : Type*} {F : Type}

section Rows
variable [Zero F] (fl : Floats K F)

def velocityOf : Option (Twist K) → F × F × F
  | none => (0, 0, 0)
  | some joy => (fl.cast joy.linear.x, fl.cast joy.linear.y, fl.cast joy.angular.z)

def passRow (ctrlNames : List String) (p : Pass K) : TraceRow F :=
  let v := velocityOf fl p.joy
  (p.nowNs, p.cmd.position.map fl.cast ++
    [v.1, v.2.1, v.2.2, fl.ofInt (Traces.ctrlId ctrlNames p.active)])

end Rows

def placesIn (jointNames names : List String) : List ℤ :=
  jointNames.map fun jn => ((lastPlace names jn).map Nat.cast).getD (-1)

def firstNames (states : List (BitVec 64 × JointState K)) : List String :=
  (states.head?.map fun e => e.2.name).getD []

theorem firstNames_append {states : List (BitVec 64 × JointState K)} (h : states ≠ [])
    (later : List (BitVec 64 × JointState K)) : firstNames (states ++ later) = firstNames states := by
  cases states with
  | nil => exact absurd rfl h
  | cons e states => rfl

section Widths

theorem length_cmdCols (jointNames : List String) :
    (Traces.cmdCols jointNames).length = jointNames.length + 4 := by
  simp [Traces.cmdCols]

theorem length_stateCols (jointNames : List String) :
    (Traces.stateCols jointNames).length = 3 * jointNames.length := by
  simp [Traces.stateCols]
  omega

theorem published_frame :
    ControlModule.Frame fun m n : ControlModule K => n.published = m.published where
  refl _ := rfl
  trans h h' := h'.trans h
  set _ _ _ _ _ := rfl
  note _ _ _ := rfl

theorem at?_of_unnoted {conf : Config K} {indices : IndexMap} (h : ControlModule.Unnoted conf indices)
    (name : String) : (indices.at? name).getD (-1) = -1 := by
  cases hat : indices.at? name with
  | none => rfl
  | some i => exact (h.2 _ (AssociationList.mem_of_lookup hat)).2

variable [Field K]

theorem published_handle {m n : ControlModule K} {c : Reception.Callback K}
    (h : m.handle c = some n) : n.published = m.published := by
  refine published_frame.handle (fun msg _ => ?_) h
  unfold ControlModule.noteIndices
  dsimp only
  split_ifs <;> rfl

theorem sameRecord_merge (m : ControlModule K) (cmd : JointCommand K) :
    (m.merge cmd).jointStateIndexMap = m.jointStateIndexMap ∧
      (m.merge cmd).published = m.published :=
  Runs.foldl_invariant (ControlModule.mergeIndexed cmd)
    (fun n => n.jointStateIndexMap = m.jointStateIndexMap ∧ n.published = m.published)
    ⟨rfl, rfl⟩ (fun _ _ h => h) cmd.name.zipIdx

def stateRowAt (fl : Floats K F) (jointNames names : List String) (e : BitVec 64 × JointState K) :
    TraceRow F :=
  (e.1, Traces.stateRow fl (placesIn jointNames names) e.2)

theorem length_stateRowAt (fl : Floats K F) (jointNames names : List String)
    (e : BitVec 64 × JointState K) :
    (stateRowAt fl jointNames names e).2.length = (Traces.stateCols jointNames).length := by
  rw [length_stateCols]
  simp [stateRowAt, Traces.stateRow, placesIn]
  omega

theorem module_note (fl : Floats K F) (s : Traced K F) (nowNs : BitVec 64) (c : Reception.Callback K) :
    (s.note fl nowNs c).module = s.module := by
  cases c <;> rfl

end Widths

section Files
variable [Field K]

structure SameFiles (r r' : Traces F) : Prop where
  dumped : r'.traceDumped = r.traceDumped
  files : r'.files = r.files

theorem sameFiles_note (fl : Floats K F) (s : Traced K F) (nowNs : BitVec 64) (c : Reception.Callback K) :
    SameFiles s.traces (s.note fl nowNs c).traces := by
  cases c with
  | trigger now topic => exact ⟨rfl, rfl⟩
  | cmdVel joy => exact ⟨rfl, rfl⟩
  | imu msg =>
    simp only [Traced.note, Traces.pushImu]
    split_ifs <;> exact ⟨rfl, rfl⟩
  | jointState msg =>
    simp only [Traced.note, Traces.pushState]
    split_ifs <;> exact ⟨rfl, rfl⟩

theorem sameFiles_record (fl : Floats K F) (s : Traced K F) (nowNs : BitVec 64) :
    SameFiles s.traces (s.record fl nowNs).traces := by
  unfold record
  split
  · exact ⟨rfl, rfl⟩
  · simp only [Traces.pushCmd]
    split_ifs <;> exact ⟨rfl, rfl⟩
  · exact ⟨rfl, rfl⟩

theorem dumpTrace_of_dumped {out : Printer F} {r : Traces F} (h : r.traceDumped = true) (disk : Disk) :
    r.dumpTrace out disk = r := by
  unfold Traces.dumpTrace
  rw [if_pos h]
  split_ifs <;> rfl

variable [LinearOrder K] {io : Platform K} {out : Printer F} {fl : Floats K F} {s t : Traced K F}

theorem loop_cases {nowNs : BitVec 64} (hstep : s.step fl io out (.loop nowNs) = some t) :
    ∃ r, ControlModule.loopStep io s.loop s.module = some r ∧
      t = { s.record fl nowNs with loop := r.1, module := r.2 } := by
  simp only [step] at hstep
  split at hstep
  · cases hstep
  · cases hstep
  · obtain ⟨r, hr, rfl⟩ := Option.map_eq_some_iff.mp hstep
    exact ⟨r, hr, rfl⟩

theorem leave_cases {failed : Bool} {disk : Disk}
    (hstep : s.step fl io out (.leave failed disk) = some t) :
    t = { s with exited := true, traces := s.traces.dumpTrace out disk } := by
  simp only [step] at hstep
  split at hstep
  · split_ifs at hstep
    cases hstep
    rfl
  · cases hstep
    rfl
  · cases hstep
    rfl
  · cases hstep

theorem files_step {a : Action K} (h : s.traces.traceDumped = true)
    (hstep : s.step fl io out a = some t) : SameFiles s.traces t.traces := by
  cases a with
  | callback c nowNs =>
    obtain ⟨n, _, rfl⟩ := Option.map_eq_some_iff.mp hstep
    exact sameFiles_note fl s nowNs c
  | loop nowNs =>
    obtain ⟨r, _, rfl⟩ := loop_cases hstep
    exact sameFiles_record fl s nowNs
  | shutdown disk =>
    cases hstep
    rw [dumpTrace_of_dumped h]
    exact ⟨rfl, rfl⟩
  | leave failed disk =>
    rw [leave_cases hstep, dumpTrace_of_dumped h]
    exact ⟨rfl, rfl⟩

theorem files_run {as : List (Action K)} (hs : s.traces.traceDumped = true)
    (h : Run (step fl io out) s as t) : t.traces.files = s.traces.files := by
  have hkept := h.invariant
    (fun u => u.traces.traceDumped = true ∧ u.traces.files = s.traces.files) ⟨hs, rfl⟩
    fun u a v hu hstep =>
      have hsame := files_step hu.1 hstep
      ⟨hsame.dumped.trans hu.1, hsame.files.trans hu.2⟩
  exact hkept.2

end Files

section Logging
variable [Field K] [Zero F] {fl : Floats K F} {conf : Config K} {t0 : BitVec 64} {rows rows2 : ℕ}
  {s t : Traced K F}

structure Written (fl : Floats K F) (out : Printer F) (conf : Config K) (t0 : BitVec 64)
    (rows rows2 : ℕ) (s : Traced K F) (files : TraceFiles) : Prop where
  jointCmd : files.jointCmd = RingTrace.header (Traces.cmdCols conf.jointList) ::
    (s.passes.drop (s.passes.length - rows)).map fun p =>
      RingTrace.line out t0 (passRow fl (conf.controllers.map Prod.fst) p)
  jointState : files.jointState = RingTrace.header (Traces.stateCols conf.jointList) ::
    (s.states.drop (s.states.length - rows2)).map fun e =>
      RingTrace.line out t0 (stateRowAt fl conf.jointList (firstNames s.states) e)
  imu : files.imu = RingTrace.header Traces.imuCols ::
    (s.samples.drop (s.samples.length - rows2)).map fun e =>
      RingTrace.line out t0 (e.1, Traces.imuRow fl e.2)

structure Logging (fl : Floats K F) (conf : Config K) (t0 : BitVec 64) (rows rows2 : ℕ)
    (s : Traced K F) : Prop where
  jointNames : s.traces.jointNames = conf.jointList
  ctrlNames : s.traces.ctrlNames = conf.controllers.map Prod.fst
  origin : s.traces.traceT0Ns = t0
  lastCmd : s.traces.lastCmd = velocityOf fl s.joy
  cmd : RingTrace.Recorded (Traces.cmdCols conf.jointList) rows
    (s.passes.map (passRow fl (conf.controllers.map Prod.fst))) s.traces.cmdTrace
  state : RingTrace.Recorded (Traces.stateCols conf.jointList) rows2
    (s.states.map (stateRowAt fl conf.jointList (firstNames s.states))) s.traces.stateTrace
  imu : RingTrace.Recorded Traces.imuCols rows2
    (s.samples.map fun e => (e.1, Traces.imuRow fl e.2)) s.traces.imuTrace
  idx : s.traces.stateIdx =
    if s.states = [] then [] else placesIn conf.jointList (firstNames s.states)
  unnoted : s.states = [] → ControlModule.Unnoted conf s.module.jointStateIndexMap
  sized : ControlModule.Sized conf.jointList.length s.module.cmdMsg
  published : s.passes.map Pass.cmd = s.module.published

theorem cmdRow_eq (fl : Floats K F) (active : List String) {r : Traces F}
    (hnames : r.jointNames.length = conf.jointList.length) {joy : Option (Twist K)}
    (hlast : r.lastCmd = velocityOf fl joy) {cmd : JointCommand K} (hsized : ControlModule.Sized conf.jointList.length cmd)
    (nowNs : BitVec 64) :
    (nowNs, Traces.cmdRow fl r active cmd) = passRow fl r.ctrlNames ⟨nowNs, active, joy, cmd⟩ := by
  have hcells : (List.range r.jointNames.length).map (fun ii : ℕ => fl.cast (cmd.position.getD ii 0)) =
      cmd.position.map fl.cast := by
    refine List.ext_getElem (by simp [hnames, hsized.position]) fun ii hii hii' => ?_
    rw [List.length_map] at hii'
    simp [List.getD, hii']
  rw [Traces.cmdRow, hcells, hlast]
  rfl

theorem Logging.withModule (h : Logging fl conf t0 rows rows2 s) {n : ControlModule K}
    (hindices : s.states = [] → n.jointStateIndexMap = s.module.jointStateIndexMap)
    (hpublished : n.published = s.module.published)
    (hsized : ControlModule.Sized conf.jointList.length n.cmdMsg) :
    Logging fl conf t0 rows rows2 { s with module := n } :=
  ⟨h.jointNames, h.ctrlNames, h.origin, h.lastCmd, h.cmd, h.state, h.imu, h.idx,
    fun hnil => hindices hnil ▸ h.unnoted hnil, hsized, h.published.trans hpublished.symm⟩

theorem Logging.pushImu (h : Logging fl conf t0 rows rows2 s) (hrows2 : 0 < rows2)
    (nowNs : BitVec 64) (msg : Imu K) : Logging fl conf t0 rows rows2 { s with
      traces := s.traces.pushImu fl nowNs msg
      samples := s.samples ++ [(nowNs, msg)] } := by
  have hwidth : ((nowNs, Traces.imuRow fl msg) : TraceRow F).2.length = Traces.imuCols.length :=
    rfl
  have hpush := h.imu.push hrows2 hwidth
  rw [Traces.pushImu, if_pos h.imu.enabled]
  refine ⟨h.jointNames, h.ctrlNames, h.origin, h.lastCmd, h.cmd, h.state, ?_, h.idx, h.unnoted,
    h.sized, h.published⟩
  rw [List.map_append]
  exact hpush

theorem Logging.pushState (h : Logging fl conf t0 rows rows2 s) (hrows2 : 0 < rows2)
    (hne : conf.jointList ≠ []) (nowNs : BitVec 64) (msg : JointState K) :
    Logging fl conf t0 rows rows2 { s with
      traces := s.traces.pushState fl (s.module.noteIndices msg).jointStateIndexMap nowNs msg
      states := s.states ++ [(nowNs, msg)] } := by
  have hidx : (if s.traces.stateIdx.isEmpty then s.traces.jointNames.map fun jn =>
        ((s.module.noteIndices msg).jointStateIndexMap.at? jn).getD (-1) else s.traces.stateIdx) =
      placesIn conf.jointList (firstNames (s.states ++ [(nowNs, msg)])) := by
    rw [h.idx, h.jointNames]
    by_cases hnil : s.states = []
    · have hunnoted := h.unnoted hnil
      rw [if_pos hnil, List.isEmpty_nil, if_pos rfl, hnil,
        ControlModule.noteIndices_of_unnoted hunnoted]
      refine List.map_congr_left fun jn _ => ?_
      rw [IndexMap.at?_foldl_set, List.nil_append, firstNames, List.head?_cons, Option.map_some,
        Option.getD_some]
      cases lastPlace msg.name jn with
      | none => exact at?_of_unnoted hunnoted jn
      | some i => rfl
    · have hplaces : (placesIn conf.jointList (firstNames s.states)).isEmpty = false := by
        simpa [placesIn] using hne
      rw [if_neg hnil, hplaces, firstNames_append hnil]
      rfl
  have hrow := length_stateRowAt fl conf.jointList (firstNames (s.states ++ [(nowNs, msg)]))
    (nowNs, msg)
  rw [Traces.pushState, if_pos h.state.enabled]
  dsimp only
  rw [hidx]
  refine ⟨h.jointNames, h.ctrlNames, h.origin, h.lastCmd, h.cmd, ?_, h.imu, ?_, ?_, h.sized,
    h.published⟩
  · have hsame : s.states.map (stateRowAt fl conf.jointList
          (firstNames (s.states ++ [(nowNs, msg)]))) =
        s.states.map (stateRowAt fl conf.jointList (firstNames s.states)) := by
      by_cases hnil : s.states = []
      · rw [hnil]
        rfl
      · rw [firstNames_append hnil]
    rw [List.map_append, hsame]
    exact h.state.push hrows2 hrow
  · rw [if_neg (by simp)]
  · intro hnil
    simp at hnil

theorem Logging.note (h : Logging fl conf t0 rows rows2 s) (hrows2 : 0 < rows2)
    (hne : conf.jointList ≠ []) (nowNs : BitVec 64) (c : Reception.Callback K) :
    Logging fl conf t0 rows rows2 (s.note fl nowNs c) := by
  cases c with
  | trigger now topic => exact h
  | cmdVel joy =>
    exact ⟨h.jointNames, h.ctrlNames, h.origin, rfl, h.cmd, h.state, h.imu, h.idx, h.unnoted,
      h.sized, h.published⟩
  | imu msg => exact h.pushImu hrows2 nowNs msg
  | jointState msg => exact h.pushState hrows2 hne nowNs msg

theorem Logging.callback (h : Logging fl conf t0 rows rows2 s) (hrows2 : 0 < rows2)
    (hne : conf.jointList ≠ []) {nowNs : BitVec 64} {c : Reception.Callback K}
    {n : ControlModule K} (hn : s.module.handle c = some n) :
    Logging fl conf t0 rows rows2 { s.note fl nowNs c with module := n } := by
  have hmodule := module_note fl s nowNs c
  refine (h.note hrows2 hne nowNs c).withModule (fun hnil => ?_) ?_ ?_
  · rw [hmodule]
    refine (ControlModule.sameWiring_frame.handle (fun msg hmsg => ?_) hn).indices
    subst hmsg
    simp [Traced.note] at hnil
  · rw [hmodule]
    exact published_handle hn
  · rw [(ControlModule.sameOutput_handle hn).cmdMsg]
    exact h.sized

theorem Logging.pushCmd (h : Logging fl conf t0 rows rows2 s) (hrows : 0 < rows)
    (nowNs : BitVec 64) : Logging fl conf t0 rows rows2 { s with
      traces := s.traces.pushCmd fl s.active nowNs s.module.cmdMsg
      passes := s.passes ++ [⟨nowNs, s.active, s.joy, s.module.cmdMsg⟩]
      module := s.module.publish } := by
  have hrow := cmdRow_eq fl s.active (congrArg List.length h.jointNames)
    h.lastCmd h.sized nowNs
  rw [h.ctrlNames] at hrow
  have hwidth : (passRow fl (conf.controllers.map Prod.fst)
      ⟨nowNs, s.active, s.joy, s.module.cmdMsg⟩).2.length =
        (Traces.cmdCols conf.jointList).length := by
    rw [length_cmdCols]
    simp [passRow, h.sized.position]
  have hpush := h.cmd.push hrows hwidth
  rw [← hrow] at hpush
  rw [Traces.pushCmd, if_pos h.cmd.enabled]
  refine ⟨h.jointNames, h.ctrlNames, h.origin, h.lastCmd, ?_, h.state, h.imu, h.idx, h.unnoted,
    h.sized, ?_⟩
  · rw [List.map_append, List.map_singleton, ← hrow]
    exact hpush
  · rw [List.map_append, h.published]
    rfl

theorem Logging.loop [LinearOrder K] {io : Platform K} (h : Logging fl conf t0 rows rows2 s)
    (hrows : 0 < rows) {nowNs : BitVec 64} {r : Loop × ControlModule K}
    (hr : ControlModule.loopStep io s.loop s.module = some r) :
    Logging fl conf t0 rows rows2 { s.record fl nowNs with loop := r.1, module := r.2 } := by
  obtain ⟨hloop, rfl⟩ | ⟨hloop, rfl⟩ | ⟨name, rest, c, hloop, hc, rfl⟩ |
    ⟨name, rest, c, hloop, hc, rfl⟩ := ControlModule.loopStep_cases hr
  · simp only [record, hloop]
    exact ⟨h.jointNames, h.ctrlNames, h.origin, h.lastCmd, h.cmd, h.state, h.imu, h.idx,
      h.unnoted, h.sized, h.published⟩
  · have hpush := h.pushCmd hrows nowNs
    simp only [record, hloop]
    exact ⟨hpush.jointNames, hpush.ctrlNames, hpush.origin, hpush.lastCmd, hpush.cmd,
      hpush.state, hpush.imu, hpush.idx, hpush.unnoted, hpush.sized, hpush.published⟩
  · have hset := h.withModule (n := s.module.setController name (c.update io)) (fun _ => rfl) rfl
      h.sized
    simp only [record, hloop]
    exact ⟨hset.jointNames, hset.ctrlNames, hset.origin, hset.lastCmd, hset.cmd, hset.state,
      hset.imu, hset.idx, hset.unnoted, hset.sized, hset.published⟩
  · have hmerge := sameRecord_merge (s.module.setController name c.getJointCmdData.2)
      c.getJointCmdData.1
    have hsized := ((s.module.setController name c.getJointCmdData.2).extends_merge
      c.getJointCmdData.1).sized _ h.sized
    have hset := h.withModule (fun _ => hmerge.1) hmerge.2 hsized
    simp only [record, hloop]
    exact ⟨hset.jointNames, hset.ctrlNames, hset.origin, hset.lastCmd, hset.cmd, hset.state,
      hset.imu, hset.idx, hset.unnoted, hset.sized, hset.published⟩

theorem logging_boot (fl : Floats K F) {firstEntry : List String → ℕ} {now : ℤ} {m : ControlModule K}
    (hm : ControlModule.initializeModule firstEntry now conf = some m)
    (hnodup : conf.jointList.Nodup) (hne : conf.jointList ≠ []) {freq : ℕ} (hfreq : 0 < freq)
    {dir : String} (hdir : dir ≠ "") (secs : Option ℚ) (nowNs : BitVec 64) :
    ∃ rows rows2, freq ≤ rows ∧ freq ≤ rows2 ∧ Logging fl conf nowNs rows rows2
      (boot m (.initTrace conf.jointList (conf.controllers.map Prod.fst) freq (some dir) secs nowNs) :
        Traced K F) := by
  obtain ⟨machine, _, hm⟩ := Option.bind_eq_some_iff.mp hm
  obtain ⟨controllers, _, rfl⟩ := Option.map_eq_some_iff.mp hm
  generalize hsecs : max (secs.getD ((300 : ℕ) : ℚ)) 1 = limit
  have hlimit : 1 ≤ limit := hsecs ▸ le_max_right _ _
  have hsecond : (freq : ℚ) ≤ limit * freq := le_mul_of_one_le_left (Nat.cast_nonneg freq) hlimit
  have hrows : freq ≤ ⌊limit * freq⌋₊ := Nat.le_floor hsecond
  have hrows2 : freq ≤ ⌊limit * freq * ((2 : ℕ) : ℚ)⌋₊ := by
    refine Nat.le_floor (hsecond.trans (le_mul_of_one_le_right ?_ ?_))
    · exact (Nat.cast_nonneg freq).trans hsecond
    · exact_mod_cast one_le_two
  have hcols : 0 < (Traces.cmdCols conf.jointList).length := by
    rw [length_cmdCols]
    omega
  have hcols2 : 0 < (Traces.stateCols conf.jointList).length := by
    have hpos := List.length_pos_iff.mpr hne
    rw [length_stateCols]
    omega
  refine ⟨_, _, hrows, hrows2, ?_⟩
  simp only [boot, Traces.initTrace, Option.getD_some, if_neg hdir, hsecs]
  refine ⟨rfl, rfl, rfl, rfl, ?_, ?_, ?_, rfl, fun _ => ControlModule.unnoted_at_start hne, ?_, rfl⟩
  · exact RingTrace.recorded_init hcols (by omega) _
  · exact RingTrace.recorded_init hcols2 (by omega) _
  · exact RingTrace.recorded_init (by decide) (by omega) _
  · constructor <;> simp [zeros, hnodup.dedup]

theorem Logging.dumped (h : Logging fl conf t0 rows rows2 s) (out : Printer F) (disk : Disk) :
    (s.traces.dumpTrace out disk).traceDumped = true := by
  unfold Traces.dumpTrace
  dsimp only
  split_ifs with hoff hdumped
  · rw [h.cmd.enabled] at hoff
    cases hoff
  · exact hdumped
  all_goals rfl

theorem Logging.written (h : Logging fl conf t0 rows rows2 s) (out : Printer F)
    (hs : s.traces.traceDumped = false) (hpasses : s.passes.length < 2 ^ 64)
    (hstates : s.states.length < 2 ^ 64) (hsamples : s.samples.length < 2 ^ 64) :
    ∃ files, (s.traces.dumpTrace out Disk.whole).files = some files ∧
      Written fl out conf t0 rows rows2 s files := by
  have hcmd := h.cmd.dump_eq (by rwa [List.length_map]) out t0
  have hstate := h.state.dump_eq (by rwa [List.length_map]) out t0
  have himu := h.imu.dump_eq (by rwa [List.length_map]) out t0
  have hon : ¬ (!s.traces.cmdTrace.enabled && !s.traces.stateTrace.enabled) = true := by
    simp [h.cmd.enabled]
  unfold Traces.dumpTrace
  rw [if_neg hon, if_neg (by rw [hs]; decide)]
  refine ⟨_, rfl, ?_, ?_, ?_⟩
  · simp only [Disk.whole, h.origin, hcmd, List.length_map, List.map_drop, List.map_map]
    rfl
  · simp only [Disk.whole, h.origin, hstate, List.length_map, List.map_drop, List.map_map]
    rfl
  · simp only [Disk.whole, h.origin, himu, List.length_map, List.map_drop, List.map_map]
    rfl

section Step
variable [LinearOrder K] {io : Platform K} {out : Printer F}

theorem logging_step (hrows : 0 < rows) (hrows2 : 0 < rows2) (hne : conf.jointList ≠ [])
    {a : Action K} (h : s.traces.traceDumped = false → Logging fl conf t0 rows rows2 s)
    (hstep : s.step fl io out a = some t) (ht : t.traces.traceDumped = false) :
    Logging fl conf t0 rows rows2 t := by
  have hdump (disk : Disk) (hmark : (s.traces.dumpTrace out disk).traceDumped = false) : False := by
    cases hs : s.traces.traceDumped with
    | false => exact absurd ((h hs).dumped out disk) (by rw [hmark]; decide)
    | true =>
      rw [dumpTrace_of_dumped hs, hs] at hmark
      cases hmark
  cases a with
  | callback c nowNs =>
    obtain ⟨n, hn, rfl⟩ := Option.map_eq_some_iff.mp hstep
    have hs := (sameFiles_note fl s nowNs c).dumped.symm.trans ht
    exact (h hs).callback hrows2 hne hn
  | loop nowNs =>
    obtain ⟨r, hr, rfl⟩ := loop_cases hstep
    have hs := (sameFiles_record fl s nowNs).dumped.symm.trans ht
    exact (h hs).loop hrows hr
  | shutdown disk =>
    cases hstep
    exact (hdump disk ht).elim
  | leave failed disk =>
    rw [leave_cases hstep] at ht
    exact (hdump disk ht).elim

theorem logging_run (hrows : 0 < rows) (hrows2 : 0 < rows2) (hne : conf.jointList ≠ [])
    (hboot : Logging fl conf t0 rows rows2 s) {as : List (Action K)}
    (h : Run (step fl io out) s as t) (ht : t.traces.traceDumped = false) :
    Logging fl conf t0 rows rows2 t :=
  h.invariant (fun u => u.traces.traceDumped = false → Logging fl conf t0 rows rows2 u)
    (fun _ => hboot) (fun _ _ _ hu hstep => logging_step hrows hrows2 hne hu hstep) ht

/-- Whoever ends the module first writes the files, and they stay as they are. -/
theorem traces_written {firstEntry : List String → ℕ} {now : ℤ} {m : ControlModule K}
    (hm : ControlModule.initializeModule firstEntry now conf = some m)
    (hnodup : conf.jointList.Nodup) (hne : conf.jointList ≠ []) {freq : ℕ} (hfreq : 0 < freq)
    {dir : String} (hdir : dir ≠ "") (secs : Option ℚ) {p q : List (Action K)} {u : Traced K F}
    (hp : Run (step fl io out) (boot m (.initTrace conf.jointList
      (conf.controllers.map Prod.fst) freq (some dir) secs t0)) p s)
    (hs : s.traces.traceDumped = false) (hpasses : s.passes.length < 2 ^ 64)
    (hstates : s.states.length < 2 ^ 64) (hsamples : s.samples.length < 2 ^ 64) {a : Action K}
    (ha : a = .shutdown .whole ∨ ∃ failed, a = .leave failed .whole)
    (hstep : s.step fl io out a = some t) (hq : Run (step fl io out) t q u) :
    s.passes.map Pass.cmd = s.module.published ∧ ∃ rows rows2 files, freq ≤ rows ∧ freq ≤ rows2 ∧
      u.traces.files = some files ∧ Written fl out conf t0 rows rows2 s files ∧
      ∀ e ∈ s.states, (∀ joint ∈ conf.jointList,
        lastPlace (firstNames s.states) joint = lastPlace e.2.name joint) →
          stateRowAt fl conf.jointList (firstNames s.states) e =
            stateRowAt fl conf.jointList e.2.name e := by
  obtain ⟨rows, rows2, hrows, hrows2, hboot⟩ :=
    logging_boot fl hm hnodup hne hfreq hdir secs t0
  have hlogging := logging_run (by omega) (by omega) hne hboot hp hs
  obtain ⟨files, hfiles, hwritten⟩ := hlogging.written out hs hpasses hstates hsamples
  have ht : t.traces = s.traces.dumpTrace out .whole := by
    rcases ha with rfl | ⟨failed, rfl⟩
    · cases hstep
      rfl
    · rw [leave_cases hstep]
  have hdumped : t.traces.traceDumped = true := by
    rw [ht]
    exact hlogging.dumped out .whole
  refine ⟨hlogging.published, rows, rows2, files, hrows, hrows2, ?_, hwritten, ?_⟩
  · rw [files_run hdumped hq, ht, hfiles]
  · intro e _ hsame
    have hplaces : placesIn conf.jointList (firstNames s.states) =
        placesIn conf.jointList e.2.name :=
      List.map_congr_left fun joint hjoint => by rw [hsame joint hjoint]
    rw [stateRowAt, hplaces, stateRowAt]

end Step

end Logging

section Legs
open Cycling (legsConfig legsModule legs_initializes legState)

def exact : Floats ℚ ℚ := ⟨id, fun i => i, 0⟩

def untimed : Printer ℚ := ⟨fun t _ => toString t.toNat, fun v => toString v⟩

def legsTraced : Traced ℚ ℚ :=
  boot legsModule (.initTrace legsConfig.jointList (legsConfig.controllers.map Prod.fst) 1
    (some "/tmp") (some 1) 0)

def onePass : List (Action ℚ) :=
  [.callback (.jointState (legState ["hip", "knee"] 1 2)) 5, .loop 6, .loop 7, .loop 8, .loop 9]

theorem onePass_runs :
    (Runs.exec (step exact Reception.upright untimed) legsTraced onePass).isSome = true := by
  decide +kernel

def afterPass : Traced ℚ ℚ :=
  (Runs.exec (step exact Reception.upright untimed) legsTraced onePass).get onePass_runs

theorem traces_written_legs :
    afterPass.passes.map Pass.cmd = afterPass.module.published ∧ ∃ rows rows2 files, 1 ≤ rows ∧
      1 ≤ rows2 ∧ (afterPass.traces.dumpTrace untimed .whole).files = some files ∧
      Written exact untimed legsConfig 0 rows rows2 afterPass files ∧
      ∀ e ∈ afterPass.states, (∀ joint ∈ legsConfig.jointList,
        lastPlace (firstNames afterPass.states) joint = lastPlace e.2.name joint) →
          stateRowAt exact legsConfig.jointList (firstNames afterPass.states) e =
            stateRowAt exact legsConfig.jointList e.2.name e :=
  traces_written (Option.some_get legs_initializes).symm (by decide) (by decide) Nat.one_pos
    (by decide) (some 1) (Runs.run_of_exec onePass (Option.some_get onePass_runs).symm)
    (by decide +kernel) (by decide +kernel) (by decide +kernel) (by decide +kernel) (.inl rfl) rfl
    .start

end Legs

end Traced
end MybipedalDeploy.Control
