import MybipedalDeploy.Imu.ImuFrameFix
import MybipedalDeploy.Imu.Seqlock
import MybipedalDeploy.Imu.Wire

/-!
# From the wire to the topic

The reader thread parses what it has read and writes each observation word by word into
the cell of the sequence lock; the publish thread copies the cell word by word and makes a
message of the copy. Both threads take their steps in any order. The flag that ends them is
left out.
-/

namespace MybipedalDeploy.Imu
open Runs (Run Along)
open StreamBlocks (wholly Clear)
open VersionedCell (Cell Copy Numbered)

/-- A message, with how many commits were complete when `getObs` was called for it and
when it was published. The counts are kept for the proofs. -/
structure Sample (K : Type) where
  msg : Msg.Imu K
  called : ℕ
  complete : ℕ

/-- `backlog` are the observations of the last read that are not yet in the cell. -/
structure Pipeline (K : Type) where
  driver : ImuDriver K
  backlog : List (ImuObservation K)
  lock : Seqlock K
  called : ℕ
  published : List (Sample K)

namespace Pipeline
variable {K : Type}

inductive Action
  | receive (chunk : List Byte)
  | commit (order : List ObsField)
  | store
  | publish
  | call
  | read (order : List ObsField)
  | deliver

def received (as : List Action) : List (List Byte) :=
  as.filterMap fun
    | .receive chunk => some chunk
    | _ => none

section Step
variable [Field K] [LinearOrder K] (io : Platform K) (fix : ImuFrameFix K)

def locked (s : Pipeline K) (a : Seqlock.Action K) : Option (Pipeline K) :=
  (s.lock.step a).map fun lock => { s with lock := lock }

def step (s : Pipeline K) : Action → Option (Pipeline K)
  -- the thread reads again when `processBuffer` has returned
  | .receive chunk =>
    if s.backlog.isEmpty && s.lock.obs.writing.isNone then
      let d := s.driver.readChunk io chunk
      some { s with
        driver := d
        backlog := d.sensor.committed.drop s.driver.sensor.committed.length }
    else none
  | .commit order =>
    match s.backlog with
    | next :: backlog => { s with backlog := backlog }.locked (.commit next order)
    | [] => none
  | .store => s.locked .store
  | .publish => s.locked .publish
  | .call =>
    match s.lock.reader 0 with
    | .idle => { s with called := s.lock.obs.count / 2 }.locked (.call 0)
    | _ => none
  | .read order => s.locked (.read 0 order)
  | .deliver =>
    match s.lock.reader 0 with
    | .returned out =>
      let sample : Sample K := ⟨fix.message io out, s.called, s.lock.obs.count / 2⟩
      some { s with lock := s.lock.setReader 0 .idle, published := s.published ++ [sample] }
    | _ => none

def initial (hasObsCb : Bool) (cbEveryN : BitVec 32) : Pipeline K :=
  ⟨.new (.new hasObsCb cbEveryN), [], .initial, 0, []⟩

def Clean (s : Pipeline K) : Action → Prop
  | .read order => s.lock.Clean (.read 0 order)
  | _ => True

instance (s : Pipeline K) (a : Action) : Decidable (s.Clean a) := by
  unfold Clean
  split <;> infer_instance

end Step

structure Later (c c' : Cell (ObsField.Word K)) : Prop where
  log : c.log <+: c'.log
  count : c.count ≤ c'.count

def Among (c : Cell (ObsField.Word K)) (lo : ℕ) (w : (i : ObsField) → i.Word K) : Prop :=
  ∃ n, lo ≤ n ∧ n ≤ c.count / 2 ∧ c.log[n]? = some w

def Fresh (c : Cell (ObsField.Word K)) (lo : ℕ) : Reader K → Prop
  | .idle => True
  | .load _ _ => lo ≤ c.count / 2
  | .copy v0 copied => v0 = BitVec.ofNat 32 copied.since ∧ copied.Faithful c ∧ lo ≤ copied.since / 2
  | .test v0 v1 out => lo ≤ c.count / 2 ∧ (v0 = v1 → Among c lo out)
  | .returned out => ∃ w, Among c lo w ∧ out = .ofWords w

section Later
variable {c c' : Cell (ObsField.Word K)} {lo : ℕ}

theorem Among.later {w : (i : ObsField) → i.Word K} (h : Among c lo w) (hc : Later c c') :
    Among c' lo w := by
  obtain ⟨n, hlo, hle, hn⟩ := h
  have hcount := Nat.div_le_div_right (c := 2) hc.count
  obtain ⟨more, hmore⟩ := hc.log
  have hlt := (List.getElem?_eq_some_iff.mp hn).1
  exact ⟨n, hlo, hle.trans hcount, by rw [← hmore, List.getElem?_append_left hlt, hn]⟩

theorem Fresh.later {p : Reader K} (h : Fresh c lo p) (hc : Later c c')
    (hcopy : ∀ copied : Copy (ObsField.Word K), copied.Faithful c → copied.Faithful c') :
    Fresh c' lo p := by
  have hcount := Nat.div_le_div_right (c := 2) hc.count
  cases p with
  | idle => trivial
  | load v1 out => exact h.trans hcount
  | copy v0 copied => exact ⟨h.1, hcopy copied h.2.1, h.2.2⟩
  | test v0 v1 out => exact ⟨h.1.trans hcount, fun heq => (h.2 heq).later hc⟩
  | returned out =>
    obtain ⟨w, hw, hout⟩ := h
    exact ⟨w, hw.later hc, hout⟩

end Later

structure Sound (lo : ℕ) (l : Seqlock K) : Prop where
  version : l.obsVer = BitVec.ofNat 32 l.obs.count
  cell : l.obs.WellFormed
  numbered : Numbered l.obs
  reader : Fresh l.obs lo (l.reader 0)

structure Moves (lo : ℕ) (l l' : Seqlock K) (new : List (ImuObservation K)) : Prop where
  sound : Sound lo l'
  log : l'.obs.log = l.obs.log ++ new.map ImuObservation.words
  count : l.obs.count ≤ l'.obs.count
  idle : l.reader 0 = .idle → l'.reader 0 = .idle

theorem Moves.later {lo : ℕ} {l l' : Seqlock K} {new : List (ImuObservation K)}
    (h : Moves lo l l' new) : Later l.obs l'.obs :=
  ⟨⟨_, h.log.symm⟩, h.count⟩

section Lock
variable {lo : ℕ} {l l' : Seqlock K}

theorem version_next (h : Sound lo l) : l.obsVer + 1 = BitVec.ofNat 32 (l.obs.count + 1) := by
  rw [h.version, BitVec.ofNat_add]
  rfl

theorem fresh_readStep {order : List ObsField} (h : Sound lo l)
    (hclean : l.Clean (.read 0 order)) {p : Reader K}
    (hstep : Seqlock.readStep l order (l.reader 0) = some p) : Fresh l.obs lo p := by
  have hr := h.reader
  simp only [Seqlock.Clean] at hclean
  generalize l.reader 0 = q at hstep hr hclean
  cases q with
  | idle => cases hstep
  | returned out => cases hstep
  | load v1 out =>
    simp only [Seqlock.readStep] at hstep
    split_ifs at hstep with hodd horder
    · cases hstep
      exact ⟨hr, fun heq => absurd heq (hclean hodd)⟩
    · cases hstep
      have heven : l.obs.count % 2 = 0 :=
        (Seqlock.odd_ofNat _).mp (by simpa [h.version] using hodd)
      have hfaithful := Copy.faithful_begin heven out fun i => horder (ObsField.mem_all i)
      exact ⟨h.version, hfaithful, hr⟩
  | copy v0 copied =>
    obtain ⟨hv0, hfaithful, hlo⟩ := hr
    obtain ⟨since, out, left⟩ := copied
    cases left with
    | nil =>
      cases hstep
      have hle : since / 2 ≤ l.obs.count / 2 := Nat.div_le_div_right hfaithful.le
      refine ⟨hlo.trans hle, fun heq => ⟨since / 2, hlo, hle, ?_⟩⟩
      have hcount := Seqlock.count_eq_of_version (hv0.symm.trans (heq.trans h.version))
        hfaithful.le hclean
      exact hfaithful.complete_at h.cell h.numbered rfl hcount
    | cons i left =>
      cases hstep
      exact ⟨hv0, hfaithful.take, hlo⟩
  | test v0 v1 out =>
    simp only [Seqlock.readStep, Option.some.injEq] at hstep
    subst hstep
    split_ifs with hne
    · exact hr.1
    · exact ⟨out, hr.2 (not_not.mp hne), rfl⟩

variable [Field K]

theorem Sound.commit {next : ImuObservation K} {order : List ObsField} (h : Sound lo l)
    (hstep : l.step (.commit next order) = some l') : Moves lo l l' [next] := by
  simp only [Seqlock.step] at hstep
  split_ifs at hstep with hc
  cases hstep
  have horder : ∀ i, i ∈ order := fun i => hc.2 (ObsField.mem_all i)
  have hlater : Later l.obs (l.obs.start next.words order) := ⟨⟨_, rfl⟩, Nat.le_succ _⟩
  refine ⟨⟨version_next h, h.cell.start hc.1 _ horder, h.numbered.start h.cell hc.1 _ _, ?_⟩, rfl,
    Nat.le_succ _, id⟩
  exact h.reader.later hlater fun _ hf => hf.start _ _

theorem Sound.store (h : Sound lo l) (hstep : l.step .store = some l') : Moves lo l l' [] := by
  simp only [Seqlock.step] at hstep
  split at hstep
  · cases hstep
    have hlater : Later l.obs l.obs.store := ⟨by simp, by simp⟩
    refine ⟨⟨by simpa using h.version, h.cell.store, h.numbered.store, ?_⟩, by simp, by simp, id⟩
    exact h.reader.later hlater fun _ hf => hf.store h.cell
  · cases hstep

theorem Sound.publish (h : Sound lo l) (hstep : l.step .publish = some l') : Moves lo l l' [] := by
  simp only [Seqlock.step] at hstep
  split at hstep
  next v hw =>
    cases hstep
    have hlater : Later l.obs l.obs.finish := ⟨List.prefix_rfl, Nat.le_succ _⟩
    refine ⟨⟨version_next h, h.cell.finish hw, h.numbered.finish h.cell hw, ?_⟩,
      (List.append_nil _).symm, Nat.le_succ _, id⟩
    exact h.reader.later hlater fun _ hf => hf.finish
  · cases hstep

theorem Sound.read {order : List ObsField} (h : Sound lo l) (hclean : l.Clean (.read 0 order))
    (hstep : l.step (.read 0 order) = some l') : Moves lo l l' [] := by
  obtain ⟨p, hp, rfl⟩ := Option.map_eq_some_iff.mp hstep
  have hfresh := fresh_readStep h hclean hp
  have hreader : (l.setReader 0 p).reader 0 = p := by simp [Seqlock.setReader]
  refine ⟨⟨h.version, h.cell, h.numbered, ?_⟩, (List.append_nil _).symm, Nat.le_refl _, ?_⟩
  · rw [hreader]
    exact hfresh
  · intro hidle
    rw [hidle] at hp
    cases hp

end Lock

section Invariant
variable [Field K] [LinearOrder K] (io : Platform K) (fix : ImuFrameFix K)

theorem committed_grows (d : ImuDriver K) (chunk : List Byte) :
    d.sensor.committed <+: (d.readChunk io chunk).sensor.committed := by
  have hframe : ∀ (s : Sensor K) (f : List Byte),
      s.committed <+: (Tick.take io s f).committed := by
    intro s f
    rcases Tick.take_cases io s f with ⟨k, -, hnoted⟩ | ⟨-, hcommits⟩ | ⟨-, -, hidle⟩ | ⟨-, -, hidle⟩
    · exact ⟨[], (List.append_nil _).trans hnoted.committed.symm⟩
    · obtain ⟨obs, hobs, -⟩ := hcommits.committed
      exact ⟨[obs], hobs.symm⟩
    · exact ⟨[], (List.append_nil _).trans hidle.committed.symm⟩
    · exact ⟨[], (List.append_nil _).trans hidle.committed.symm⟩
  rw [ImuDriver.readChunk_eq]
  simp only [ImuDriver.foldl_absorb]
  generalize List.filterMap _ _ = frames
  exact Runs.foldl_invariant _ (fun s : Sensor K => d.sensor.committed <+: s.committed)
    List.prefix_rfl (fun s f hs => hs.trans (hframe s f)) frames

def MadeOf (log : List ((i : ObsField) → i.Word K)) (p : Sample K) : Prop :=
  ∃ n w, p.called ≤ n ∧ n ≤ p.complete ∧ log[n]? = some w ∧ p.msg = fix.message io (.ofWords w)

structure Inv (d : ImuDriver K) (s : Pipeline K) : Prop where
  driver : s.driver = d
  sound : Sound s.called s.lock
  log : s.lock.obs.log ++ s.backlog.map ImuObservation.words =
    (.default :: d.sensor.committed).map ImuObservation.words
  published : ∀ p ∈ s.published, MadeOf io fix s.lock.obs.log p
  complete : ∀ p ∈ s.published, p.complete ≤ s.lock.obs.count / 2
  earlier : s.lock.reader 0 ≠ .idle → ∀ p ∈ s.published, p.complete ≤ s.called
  inOrder : s.published.Pairwise fun p q => p.complete ≤ q.called

theorem MadeOf.mono {log more : List ((i : ObsField) → i.Word K)} {p : Sample K}
    (h : MadeOf io fix log p) : MadeOf io fix (log ++ more) p := by
  obtain ⟨n, w, hcalled, hcomplete, hn, hmsg⟩ := h
  have hlt := (List.getElem?_eq_some_iff.mp hn).1
  exact ⟨n, w, hcalled, hcomplete, by rw [List.getElem?_append_left hlt, hn], hmsg⟩

theorem inv_initial (hasObsCb : Bool) (cbEveryN : BitVec 32) :
    Inv io fix (.new (.new hasObsCb cbEveryN)) (initial hasObsCb cbEveryN) where
  driver := rfl
  sound := ⟨rfl, Cell.wellFormed_init _, VersionedCell.numbered_init _, trivial⟩
  log := rfl
  published := by simp [initial]
  complete := by simp [initial]
  earlier := by simp [initial]
  inOrder := List.Pairwise.nil

variable {io fix} {d : ImuDriver K} {s t : Pipeline K}

theorem Inv.moves (h : Inv io fix d s) {l : Seqlock K} {new backlog : List (ImuObservation K)}
    (hm : Moves s.called s.lock l new) (hbacklog : s.backlog = new ++ backlog) :
    Inv io fix d { s with lock := l, backlog := backlog } where
  driver := h.driver
  sound := hm.sound
  log := by
    rw [← h.log, hbacklog, List.map_append, ← List.append_assoc, ← hm.log]
  published p hp := by
    rw [show l.obs.log = _ from hm.log]
    exact (h.published p hp).mono
  complete p hp := (h.complete p hp).trans (Nat.div_le_div_right hm.count)
  earlier hbusy := h.earlier fun hidle => hbusy (hm.idle hidle)
  inOrder := h.inOrder

theorem Inv.call (h : Inv io fix d s) (hidle : s.lock.reader 0 = .idle)
    (ht : step io fix s .call = some t) : Inv io fix d t := by
  simp only [step, hidle, locked, Seqlock.step, Option.map_some, Option.some.injEq] at ht
  subst ht
  refine ⟨h.driver, ⟨h.sound.version, h.sound.cell, h.sound.numbered, ?_⟩, h.log, h.published,
    h.complete, fun _ => h.complete, h.inOrder⟩
  rw [show (s.lock.setReader 0 _).reader 0 = _ from Function.update_self 0 _ s.lock.reader]
  exact Nat.le_refl _

theorem Inv.deliver (h : Inv io fix d s) {out : ImuObservation K}
    (hout : s.lock.reader 0 = .returned out) (ht : step io fix s .deliver = some t) :
    Inv io fix d t := by
  simp only [step, hout, Option.some.injEq] at ht
  subst ht
  obtain ⟨w, ⟨n, hcalled, hcomplete, hn⟩, rfl⟩ : Fresh s.lock.obs s.called (.returned out) :=
    hout ▸ h.sound.reader
  have hidle : (s.lock.setReader 0 .idle).reader 0 = .idle := by simp [Seqlock.setReader]
  have hearlier : ∀ p ∈ s.published, p.complete ≤ s.called := h.earlier (by simp [hout])
  refine ⟨h.driver, ⟨h.sound.version, h.sound.cell, h.sound.numbered, by rw [hidle]; trivial⟩,
    h.log, fun p hp => ?_, fun p hp => ?_, fun hbusy => absurd hidle hbusy, ?_⟩
  · rcases List.mem_append.mp hp with hp | hp
    · exact h.published p hp
    · obtain rfl := List.mem_singleton.mp hp
      exact ⟨n, w, hcalled, hcomplete, hn, rfl⟩
  · rcases List.mem_append.mp hp with hp | hp
    · exact h.complete p hp
    · obtain rfl := List.mem_singleton.mp hp
      exact Nat.le_refl _
  · refine List.pairwise_append.mpr ⟨h.inOrder, List.pairwise_singleton _ _, fun p hp q hq => ?_⟩
    obtain rfl := List.mem_singleton.mp hq
    exact hearlier p hp

theorem Inv.receive (h : Inv io fix d s) {chunk : List Byte}
    (ht : step io fix s (.receive chunk) = some t) : Inv io fix (d.readChunk io chunk) t := by
  simp only [step] at ht
  split_ifs at ht with hidle
  cases ht
  have hlog := h.log
  have hdriver := h.driver
  rw [Bool.and_eq_true, List.isEmpty_iff] at hidle
  rw [hidle.1, List.map_nil, List.append_nil] at hlog
  have hsplit := List.prefix_iff_eq_append.mp (committed_grows io d chunk)
  refine ⟨congrArg (ImuDriver.readChunk io · chunk) hdriver, h.sound, ?_, h.published, h.complete,
    h.earlier, h.inOrder⟩
  rw [hlog, hdriver, ← List.map_append, List.cons_append, hsplit]

theorem received_append (as bs : List Action) : received (as ++ bs) = received as ++ received bs :=
  List.filterMap_append

def driven (io : Platform K) (hasObsCb : Bool) (cbEveryN : BitVec 32) (as : List Action) :
    ImuDriver K :=
  (received as).foldl (ImuDriver.readChunk io) (.new (.new hasObsCb cbEveryN))

theorem inv_step {hasObsCb : Bool} {cbEveryN : BitVec 32} {as : List Action} {a : Action}
    (h : Inv io fix (driven io hasObsCb cbEveryN as) s) (hclean : s.Clean a)
    (ht : step io fix s a = some t) : Inv io fix (driven io hasObsCb cbEveryN (as ++ [a])) t := by
  have hsame : received [a] = [] →
      driven io hasObsCb cbEveryN (as ++ [a]) = driven io hasObsCb cbEveryN as := by
    intro hnone
    rw [driven, received_append, hnone, List.append_nil]
    rfl
  cases a with
  | receive chunk =>
    rw [driven, received_append, List.foldl_append]
    exact h.receive ht
  | commit order =>
    rw [hsame rfl]
    simp only [step] at ht
    split at ht
    next next backlog hbacklog =>
      obtain ⟨l, hl, rfl⟩ := Option.map_eq_some_iff.mp ht
      exact h.moves (h.sound.commit hl) hbacklog
    next => cases ht
  | store =>
    rw [hsame rfl]
    obtain ⟨l, hl, rfl⟩ := Option.map_eq_some_iff.mp ht
    exact h.moves (h.sound.store hl) rfl
  | publish =>
    rw [hsame rfl]
    obtain ⟨l, hl, rfl⟩ := Option.map_eq_some_iff.mp ht
    exact h.moves (h.sound.publish hl) rfl
  | call =>
    rw [hsame rfl]
    cases hreader : s.lock.reader 0 with
    | idle => exact h.call hreader ht
    | load _ _ | copy _ _ | test _ _ _ | returned _ => simp [step, hreader] at ht
  | read order =>
    rw [hsame rfl]
    obtain ⟨l, hl, rfl⟩ := Option.map_eq_some_iff.mp ht
    exact h.moves (h.sound.read hclean hl) rfl
  | deliver =>
    rw [hsame rfl]
    cases hreader : s.lock.reader 0 with
    | returned out => exact h.deliver hreader ht
    | idle | load _ _ | copy _ _ | test _ _ _ => simp [step, hreader] at ht

end Invariant

section Path
variable [Field K] [LinearOrder K] (io : Platform K) (fix : ImuFrameFix K)

def observations (ticks : List SentTick) : List (ImuObservation K) :=
  .default :: ticks.mapIdx fun k t => t.observation io k

/-- Every message is that of a tick which has come wholly, or of the initial observation
before the first; it is at least as new as all that was committed when `getObs` was called
for it, and never older than a message before it. When the reader thread waits for more,
all whole ticks are committed. -/
theorem observation_path (hasObsCb : Bool) (cbEveryN : BitVec 32) (ticks : List SentTick)
    (hclear : Clear Sending.noise Sending.frame (Frame.scanner Frame.knownRid)
      (ticks.flatMap SentTick.sendings)) {as : List Action} {s : Pipeline K}
    (h : Run (step io fix) (initial hasObsCb cbEveryN) as s)
    (hclean : Along (step io fix) Clean (initial hasObsCb cbEveryN) as)
    (hreceived : (received as).flatten <+: ticks.flatMap SentTick.bytes) :
    let whole := wholly SentTick.bytes ticks (received as).flatten.length
    (∃ number : Sample K → ℕ,
      (∀ p ∈ s.published, p.called ≤ number p ∧ number p ≤ p.complete ∧
        ∃ obs, (observations io whole)[number p]? = some obs ∧ p.msg = fix.message io obs) ∧
      s.published.Pairwise fun p q => number p ≤ number q) ∧
    (s.backlog = [] → s.lock.obs.writing = none → s.lock.obs.count / 2 = whole.length) := by
  intro whole
  have hinv : Inv io fix (driven io hasObsCb cbEveryN as) s :=
    h.guarded Clean (fun as s => Inv io fix (driven io hasObsCb cbEveryN as) s)
      (inv_initial io fix hasObsCb cbEveryN) (fun _ _ _ _ hs hc ht => inv_step hs hc ht) hclean
  have hlog : s.lock.obs.log ++ s.backlog.map ImuObservation.words =
      (observations io whole).map ImuObservation.words := by
    rw [hinv.log, show (driven io hasObsCb cbEveryN as).sensor.committed = _ from
      ImuDriver.committed_of_chunks io hasObsCb cbEveryN hclear hreceived]
    rfl
  have hmade : ∀ p ∈ s.published, ∃ n, p.called ≤ n ∧ n ≤ p.complete ∧
      ∃ obs, (observations io whole)[n]? = some obs ∧ p.msg = fix.message io obs := by
    intro p hp
    obtain ⟨n, w, hcalled, hcomplete, hn, hmsg⟩ := hinv.published p hp
    have hlt := (List.getElem?_eq_some_iff.mp hn).1
    have hword : ((observations io whole).map ImuObservation.words)[n]? = some w := by
      rw [← hlog, List.getElem?_append_left hlt, hn]
    rw [List.getElem?_map, Option.map_eq_some_iff] at hword
    obtain ⟨obs, hobs, rfl⟩ := hword
    exact ⟨n, hcalled, hcomplete, obs, hobs, hmsg⟩
  constructor
  · choose! number hnumber using hmade
    refine ⟨number, hnumber, hinv.inOrder.imp_of_mem fun {p q} hp hq hle => ?_⟩
    exact (hnumber p hp).2.1.trans (hle.trans (hnumber q hq).1)
  · intro hbacklog hidle
    have heven := hinv.sound.cell.parity.mp hidle
    have hlength := congrArg List.length hlog
    rw [hbacklog, List.map_nil, List.append_nil, hinv.sound.numbered.length, List.length_map,
      observations, List.length_cons, List.length_mapIdx] at hlength
    omega

end Path

section Schedule

def flat : Platform ℚ := ⟨fun bits => bits.toNat, fun _ => 1, BitVec.ofNat 64⟩

def twoMessages : List Action :=
  [.call] ++ List.replicate 16 (.read ObsField.all) ++
    [.deliver, .receive ImuDriver.damagedTick.bytes, .commit ObsField.all, .call,
      .read ObsField.all] ++ List.replicate 13 .store ++ [.publish] ++
    List.replicate 17 (.read ObsField.all) ++ [.deliver]

def counts (s : Pipeline ℚ) : Bool × List (ℕ × ℕ) :=
  (s.backlog.isEmpty && s.lock.obs.writing.isNone, s.published.map fun p => (p.called, p.complete))

theorem twoMessages_counts :
    (Runs.exec (step flat .off) (initial false 1) twoMessages).map counts =
      some (true, [(0, 0), (0, 1)]) := by
  decide +kernel

theorem observation_path_twoMessages :
    ∃ s, Run (step flat .off) (initial false 1) twoMessages s ∧
      counts s = (true, [(0, 0), (0, 1)]) ∧ s.lock.obs.count / 2 = 1 ∧
      ∃ number : Sample ℚ → ℕ, ∀ p ∈ s.published, p.called ≤ number p ∧ number p ≤ p.complete ∧
        ∃ obs, (observations flat [ImuDriver.damagedTick])[number p]? = some obs ∧
          p.msg = ImuFrameFix.off.message flat obs := by
  obtain ⟨s, hs, hcounts⟩ := Option.map_eq_some_iff.mp twoMessages_counts
  have hrun := Runs.run_of_exec twoMessages hs
  obtain ⟨⟨number, hnumber, -⟩, hcount⟩ := observation_path flat .off false 1
    [ImuDriver.damagedTick] (by decide +kernel) hrun
    (Runs.along_of_guardsHold (by decide +kernel)) (by decide +kernel)
  have hidle : (s.backlog.isEmpty && s.lock.obs.writing.isNone) = true :=
    congrArg Prod.fst hcounts
  rw [Bool.and_eq_true, List.isEmpty_iff, Option.isNone_iff_eq_none] at hidle
  exact ⟨s, hrun, hcounts, hcount hidle.1 hidle.2, number, hnumber⟩

end Schedule

end Pipeline
end MybipedalDeploy.Imu
