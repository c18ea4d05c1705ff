import Mathlib.Algebra.Field.Rat
import Mathlib.Algebra.Order.Ring.Rat
import Mathlib.Data.List.Induction
import MybipedalDeploy.Imu.ImuDriver
import MybipedalDeploy.Library.StreamScan

/-!
# Reassembly of the serial stream

The stream is what it is, however the reads cut it: the driver accepts the frames
that one leftmost scan of the whole stream finds, and keeps fewer bytes than the
longest frame has. The scan is the abstract reader; `known` says which record
identifiers it takes.
-/

namespace MybipedalDeploy.Imu
open StreamScan (Verdict Token Scanner Result)

namespace Frame

def tailOk (frame : List Byte) : Bool := frame.getD (frame.length - 1) 0 == frameTail

def crcOk (frame : List Byte) : Bool :=
  getCrc16 frame (frame.length - 3) == ImuDriver.crcWire frame frame.length

def crcError (frame : List Byte) : Bool := tailOk frame && !crcOk frame

def knownRid (rid : Byte) : Bool :=
  rid == ridAccel || rid == ridGyro || rid == ridEuler || rid == ridQuat

def ok (known : Byte → Bool) (frame : List Byte) : Bool :=
  tailOk frame && crcOk frame && known (frame.getD 3 0)

theorem frameLen_bounds (rid : Byte) : 19 ≤ frameLen rid ∧ frameLen rid ≤ 23 := by
  unfold frameLen
  split_ifs <;> decide

def look (known : Byte → Bool) (bytes : List Byte) : Verdict :=
  if bytes.length < 4 then .wait
  else if bytes.getD 0 0 ≠ frameHdr0 ∨ bytes.getD 1 0 ≠ frameHdr1 then .skip
  else
    let flen := frameLen (bytes.getD 3 0)
    if bytes.length < flen then .wait
    else if ok known (bytes.take flen) then .accept flen
    else .reject flen

theorem look_of_long {known : Byte → Bool} {bytes : List Byte} (h4 : 4 ≤ bytes.length)
    (hhdr : ¬ (bytes.getD 0 0 ≠ frameHdr0 ∨ bytes.getD 1 0 ≠ frameHdr1))
    (hlen : frameLen (bytes.getD 3 0) ≤ bytes.length) :
    look known bytes =
      if ok known (bytes.take (frameLen (bytes.getD 3 0))) then .accept (frameLen (bytes.getD 3 0))
      else .reject (frameLen (bytes.getD 3 0)) := by
  simp only [look, if_neg (Nat.not_lt.mpr h4), if_neg hhdr, if_neg (Nat.not_lt.mpr hlen)]

theorem look_cases (known : Byte → Bool) (bytes : List Byte) :
    (look known bytes = .wait ∧ bytes.length < 23) ∨
    (4 ≤ bytes.length ∧ (bytes.getD 0 0 ≠ frameHdr0 ∨ bytes.getD 1 0 ≠ frameHdr1) ∧
      look known bytes = .skip) ∨
    (4 ≤ bytes.length ∧ ¬ (bytes.getD 0 0 ≠ frameHdr0 ∨ bytes.getD 1 0 ≠ frameHdr1) ∧
      frameLen (bytes.getD 3 0) ≤ bytes.length) := by
  have hbounds := frameLen_bounds (bytes.getD 3 0)
  by_cases h4 : bytes.length < 4
  · exact .inl ⟨by simp [look, h4], by omega⟩
  · by_cases hhdr : bytes.getD 0 0 ≠ frameHdr0 ∨ bytes.getD 1 0 ≠ frameHdr1
    · exact .inr (.inl ⟨by omega, hhdr, by simp only [look, if_neg h4, if_pos hhdr]⟩)
    · by_cases hlen : bytes.length < frameLen (bytes.getD 3 0)
      · exact .inl ⟨by simp only [look, if_neg h4, if_neg hhdr, if_pos hlen], by omega⟩
      · exact .inr (.inr ⟨by omega, hhdr, by omega⟩)

theorem getD_append {i : ℕ} {xs : List Byte} (ys : List Byte) (h : i < xs.length) :
    (xs ++ ys).getD i 0 = xs.getD i 0 := by
  simp [List.getD, List.getElem?_append_left h]

theorem look_append {known : Byte → Bool} {bytes : List Byte} (more : List Byte)
    (h : look known bytes ≠ .wait) : look known (bytes ++ more) = look known bytes := by
  rcases look_cases known bytes with ⟨hwait, -⟩ | ⟨h4, hhdr, hskip⟩ | ⟨h4, hhdr, hlen⟩
  · exact absurd hwait h
  · rw [hskip]
    have hlong : ¬ (bytes ++ more).length < 4 := by simp; omega
    simp only [look, if_neg hlong, getD_append more (show 0 < bytes.length by omega),
      getD_append more (show 1 < bytes.length by omega), if_pos hhdr]
  · have h0 := getD_append more (show 0 < bytes.length by omega)
    have h1 := getD_append more (show 1 < bytes.length by omega)
    have h3 := getD_append more (show 3 < bytes.length by omega)
    have hle : bytes.length ≤ (bytes ++ more).length := by simp
    rw [look_of_long h4 hhdr hlen, look_of_long (h4.trans hle) (by rwa [h0, h1])
      (by rw [h3]; exact hlen.trans hle), h3, List.take_append_of_le_length hlen]

theorem bounds_of_look {known : Byte → Bool} {bytes : List Byte} {n : ℕ}
    (h : look known bytes = .accept n ∨ look known bytes = .reject n) :
    0 < n ∧ n ≤ bytes.length := by
  have hbounds := frameLen_bounds (bytes.getD 3 0)
  rcases look_cases known bytes with ⟨hwait, -⟩ | ⟨-, -, hskip⟩ | ⟨h4, hhdr, hlen⟩
  · simp [hwait] at h
  · simp [hskip] at h
  · rw [look_of_long h4 hhdr hlen] at h
    have hn : frameLen (bytes.getD 3 0) = n := by
      split_ifs at h <;> simpa using h
    omega

def scanner (known : Byte → Bool) : Scanner Byte where
  look := look known
  look_nil := rfl
  reject_le h := (bounds_of_look (.inr h)).2
  accept_pos h := (bounds_of_look (.inl h)).1
  accept_le h := (bounds_of_look (.inl h)).2
  stable more h := look_append more h

theorem length_rest_lt (known : Byte → Bool) (bytes : List Byte) :
    ((scanner known).scan bytes).rest.length < 23 := by
  have hwait : look known ((scanner known).scan bytes).rest = .wait :=
    Scanner.look_rest (S := scanner known) bytes
  rcases look_cases known ((scanner known).scan bytes).rest with ⟨-, hlen⟩ | ⟨-, -, hskip⟩ |
    ⟨h4, hhdr, hlen⟩
  · exact hlen
  · rw [hskip] at hwait; cases hwait
  · rw [look_of_long h4 hhdr hlen] at hwait
    split_ifs at hwait

end Frame

namespace ImuDriver
variable {K : Type} [Field K] [LinearOrder K] (io : Platform K)

def absorb (d : ImuDriver K) : Token Byte → ImuDriver K
  | .accepted f =>
    { d with sensor := (d.sensor.record io f).getD d.sensor, accepted := d.accepted ++ [f] }
  | .rejected f =>
    { d with
      statCrcErr := if Frame.crcError f then d.statCrcErr + 1 else d.statCrcErr
      statDropped := d.statDropped + 1 }

theorem record_isSome (s : Sensor K) (frame : List Byte) :
    (s.record io frame).isSome = Frame.knownRid (frame.getD 3 0) := by
  unfold Sensor.record
  dsimp only
  split
  next haccel => rw [haccel]; rfl
  next haccel =>
    split
    next hgyro => rw [hgyro]; rfl
    next hgyro =>
      split
      next heuler => rw [heuler]; rfl
      next heuler =>
        split
        next hquat => rw [hquat]; rfl
        next hquat =>
          rw [Frame.knownRid, beq_eq_false_iff_ne.mpr haccel, beq_eq_false_iff_ne.mpr hgyro,
            beq_eq_false_iff_ne.mpr heuler, beq_eq_false_iff_ne.mpr hquat]
          rfl

theorem parseFrame_of_ok (d : ImuDriver K) {frame : List Byte}
    (h : Frame.ok Frame.knownRid frame = true) :
    d.parseFrame io frame frame.length =
      (true, { d with sensor := (d.sensor.record io frame).getD d.sensor }) := by
  obtain ⟨⟨htail, hcrc⟩, hrid⟩ : (Frame.tailOk frame = true ∧ Frame.crcOk frame = true) ∧
      Frame.knownRid (frame.getD 3 0) = true := by simpa [Frame.ok] using h
  rw [← record_isSome io d.sensor] at hrid
  obtain ⟨s, hs⟩ := Option.isSome_iff_exists.mp hrid
  simp only [Frame.tailOk, Frame.crcOk, beq_iff_eq] at htail hcrc
  simp only [parseFrame, htail, hcrc, hs, ne_eq, not_true_eq_false, if_false, Option.getD_some]

theorem parseFrame_of_not_ok (d : ImuDriver K) {frame : List Byte}
    (h : Frame.ok Frame.knownRid frame = false) :
    d.parseFrame io frame frame.length = (false, { d with
      statCrcErr := if Frame.crcError frame then d.statCrcErr + 1 else d.statCrcErr }) := by
  by_cases htail : frame.getD (frame.length - 1) 0 = frameTail
  · have htailOk : Frame.tailOk frame = true := beq_iff_eq.mpr htail
    by_cases hcrc : getCrc16 frame (frame.length - 3) = crcWire frame frame.length
    · have hcrcOk : Frame.crcOk frame = true := beq_iff_eq.mpr hcrc
      simp only [Frame.ok, htailOk, hcrcOk, Bool.true_and, ← record_isSome io d.sensor,
        Option.isSome_eq_false_iff, Option.isNone_iff_eq_none] at h
      simp only [parseFrame, htail, hcrc, h, ne_eq, not_true_eq_false, if_false, Frame.crcError, hcrcOk,
        Bool.not_true, Bool.and_false, Bool.false_eq_true]
    · have hcrcOk : Frame.crcOk frame = false := beq_eq_false_iff_ne.mpr hcrc
      simp only [parseFrame, htail, hcrc, ne_eq, not_true_eq_false, not_false_eq_true, if_false, if_true,
        Frame.crcError, htailOk, hcrcOk, Bool.not_false, Bool.and_true]
  · have htailOk : Frame.tailOk frame = false := beq_eq_false_iff_ne.mpr htail
    simp only [parseFrame, htail, ne_eq, not_false_eq_true, if_true, Frame.crcError, htailOk,
      Bool.false_and, Bool.false_eq_true, if_false]

theorem getD_drop (data : List Byte) (pos i : ℕ) : (data.drop pos).getD i 0 = data.getD (pos + i) 0 := by
  simp [List.getD, List.getElem?_drop]

theorem processLoop_succ (data : List Byte) (fuel pos : ℕ) (d : ImuDriver K) :
    processLoop io data (fuel + 1) pos d =
      match Frame.look Frame.knownRid (data.drop pos) with
      | .wait => (pos, d)
      | .skip => processLoop io data fuel (pos + 1) d
      | .reject n =>
        processLoop io data fuel (pos + 1) (d.absorb io (.rejected ((data.drop pos).take n)))
      | .accept n =>
        processLoop io data fuel (pos + n) (d.absorb io (.accepted ((data.drop pos).take n))) := by
  have h0 := getD_drop data pos 0
  have h1 := getD_drop data pos 1
  have h3 := getD_drop data pos 3
  rw [Nat.add_zero] at h0
  have hlength : (data.drop pos).length = data.length - pos := List.length_drop
  by_cases h4 : pos + 4 ≤ data.length
  · have hlong : ¬ (data.drop pos).length < 4 := by omega
    by_cases hhdr : data.getD pos 0 ≠ frameHdr0 ∨ data.getD (pos + 1) 0 ≠ frameHdr1
    · simp only [processLoop, Frame.look, if_pos h4, if_neg hlong, h0, h1, if_pos hhdr]
    · simp only [processLoop, Frame.look, if_pos h4, if_neg hlong, h0, h1, if_neg hhdr, h3]
      generalize hflen : frameLen (data.getD (pos + 3) 0) = flen
      by_cases hfull : pos + flen > data.length
      · have hshort : (data.drop pos).length < flen := by omega
        simp only [if_pos hfull, if_pos hshort]
      · have hlen : ¬ (data.drop pos).length < flen := by omega
        have hframe : ((data.drop pos).take flen).length = flen := by
          rw [List.length_take]
          omega
        simp only [if_neg hfull, if_neg hlen]
        -- Here the loop has the whole candidate, and `parseFrame` decides.
        cases hok : Frame.ok Frame.knownRid ((data.drop pos).take flen) with
        | true =>
          have hparse := parseFrame_of_ok io d hok
          rw [hframe] at hparse
          simp only [hparse, if_true, absorb]
        | false =>
          have hparse := parseFrame_of_not_ok io d hok
          rw [hframe] at hparse
          simp only [hparse, Bool.false_eq_true, if_false, absorb]
  · have hshort : (data.drop pos).length < 4 := by omega
    simp only [processLoop, Frame.look, if_neg h4, if_pos hshort]

theorem processLoop_eq (data : List Byte) {fuel pos : ℕ} (hfuel : data.length ≤ pos + fuel)
    (d : ImuDriver K) :
    let r := (Frame.scanner Frame.knownRid).scan (data.drop pos)
    data.drop (processLoop io data fuel pos d).1 = r.rest ∧
      (processLoop io data fuel pos d).2 = r.tokens.foldl (absorb io) d := by
  induction fuel generalizing pos d with
  | zero =>
    rw [List.drop_eq_nil_of_le (show data.length ≤ pos by omega)]
    exact ⟨List.drop_eq_nil_of_le hfuel, rfl⟩
  | succ fuel ih =>
    rw [processLoop_succ]
    cases hlook : Frame.look Frame.knownRid (data.drop pos) with
    | wait =>
      rw [Scanner.scan_of_wait (S := Frame.scanner Frame.knownRid) hlook]
      exact ⟨rfl, rfl⟩
    | skip =>
      rw [Scanner.scan_of_skip (S := Frame.scanner Frame.knownRid) hlook, List.tail_drop]
      exact ih (by omega) d
    | reject n =>
      rw [Scanner.scan_of_reject (S := Frame.scanner Frame.knownRid) hlook, List.tail_drop]
      exact ih (by omega) _
    | accept n =>
      -- The fuel lasts, since an accepted frame is not empty.
      have hpos := (Frame.bounds_of_look (.inl hlook)).1
      rw [Scanner.scan_of_accept (S := Frame.scanner Frame.knownRid) hlook, List.drop_drop]
      exact ih (by omega) _

theorem foldl_absorb (ts : List (Token Byte)) (d : ImuDriver K) :
    ts.foldl (absorb io) d =
      { buf := d.buf
        sensor := (ts.filterMap Token.frame?).foldl (fun s f => (s.record io f).getD s) d.sensor
        statCrcErr := d.statCrcErr +
          BitVec.ofNat 64 ((ts.filterMap Token.candidate?).countP Frame.crcError)
        statDropped := d.statDropped + BitVec.ofNat 64 (ts.filterMap Token.candidate?).length
        accepted := d.accepted ++ ts.filterMap Token.frame? } := by
  induction ts generalizing d with
  | nil => simp
  | cons t ts ih =>
    rw [List.foldl_cons, ih]
    cases t with
    | accepted f => simp [absorb, Token.frame?, Token.candidate?, List.filterMap_cons]
    | rejected f =>
      have hcount : ∀ (x : BitVec 64) (n : ℕ), x + 1 + BitVec.ofNat 64 n = x + BitVec.ofNat 64 (n + 1) := by
        intro x n
        rw [BitVec.ofNat_add, BitVec.add_assoc, BitVec.add_comm 1]
        rfl
      simp only [absorb, Token.frame?, Token.candidate?, List.filterMap_cons, List.length_cons,
        List.countP_cons, hcount]
      split_ifs
      · rw [hcount]
      · rfl

theorem unread_eq (d : ImuDriver K) :
    d.unread io = ((Frame.scanner Frame.knownRid).scan d.buf).rest :=
  (processLoop_eq io d.buf (Nat.le_of_eq (Nat.zero_add _).symm) d).1

theorem readChunk_eq (d : ImuDriver K) (chunk : List Byte) :
    d.readChunk io chunk =
      let r := (Frame.scanner Frame.knownRid).scan (d.buf ++ chunk)
      { r.tokens.foldl (absorb io) d with buf := r.rest } := by
  have hunread := unread_eq io { d with buf := d.buf ++ chunk }
  have hstate := (processLoop_eq io (d.buf ++ chunk) (Nat.le_of_eq (Nat.zero_add _).symm)
    { d with buf := d.buf ++ chunk }).2
  have hshort := Frame.length_rest_lt Frame.knownRid (d.buf ++ chunk)
  simp only [readChunk, processBuffer, hunread]
  rw [if_neg (by omega)]
  simp only [processed, hstate, List.drop_zero, foldl_absorb]

theorem foldl_readChunk (s₀ : Sensor K) (chunks : List (List Byte)) :
    chunks.foldl (readChunk io) (new s₀) =
      let r := (Frame.scanner Frame.knownRid).scan chunks.flatten
      { r.tokens.foldl (absorb io) (new s₀) with buf := r.rest } := by
  induction chunks using List.reverseRecOn with
  | nil => rfl
  | append_singleton chunks chunk ih =>
    rw [List.foldl_append, ih, List.flatten_append, List.flatten_singleton, Scanner.scan_append,
      List.foldl_cons, List.foldl_nil, readChunk_eq]
    simp only [List.foldl_append, foldl_absorb]

/-- However the stream is cut into reads, the driver has accepted the frames of one
scan of the whole stream, with the observations and the counters that follow from
them, and keeps less than a frame; the purge finds nothing to do. -/
theorem reassembly (s₀ : Sensor K) (chunks : List (List Byte)) :
    let d := chunks.foldl (readChunk io) (new s₀)
    let r := (Frame.scanner Frame.knownRid).scan chunks.flatten
    d.accepted = r.frames ∧
      d.sensor = r.frames.foldl (fun s f => (s.record io f).getD s) s₀ ∧
      d.statDropped = BitVec.ofNat 64 r.rejected.length ∧
      d.statCrcErr = BitVec.ofNat 64 (r.rejected.countP Frame.crcError) ∧
      d.buf = r.rest ∧ d.buf.length < 23 ∧
      ∀ chunk, (unread io { d with buf := d.buf ++ chunk }).length < 23 := by
  simp only [foldl_readChunk, foldl_absorb, unread_eq]
  exact ⟨List.nil_append _, rfl, BitVec.zero_add _, BitVec.zero_add _, trivial,
    Frame.length_rest_lt _ _, fun chunk => Frame.length_rest_lt _ _⟩

/-- A frame with tail and check in order whose record identifier is not one of the four. -/
def unknownRecord : List Byte :=
  [0x55, 0xAA, 0x01, 0x05, 0, 0, 0, 0, 0, 0, 0, 0, 0, 0, 0, 0, 0x9E, 0xF4, 0x0A]

/-- A scan that does not look at the record identifier takes frames the driver drops. -/
theorem reassembly_known :
    ¬ ∀ (io : Platform ℚ) (s₀ : Sensor ℚ) (chunks : List (List Byte)),
      (chunks.foldl (readChunk io) (new s₀)).accepted =
        ((Frame.scanner fun _ => true).scan chunks.flatten).frames := by
  intro h
  have hunknown := h ⟨fun _ => 0, id, fun _ => 0⟩ (.new false 1) [unknownRecord]
  revert hunknown
  decide +kernel

end ImuDriver
end MybipedalDeploy.Imu
