import Mathlib.Data.List.GetD
import MybipedalDeploy.Imu.Ticks
import MybipedalDeploy.Library.LastWrite
import MybipedalDeploy.Library.StreamBlocks

/-!
# From the wire to the observations

A sensor that sends its records in the frames that the driver reads, with any bytes between
them. What is between may be the remains of damaged frames, only no candidate that begins
there may pass the check. The driver finds the frames, and where a tick of the sensor has an
acceleration, a rate and then the quaternion, it is one observation.
-/

namespace MybipedalDeploy.Imu
open StreamScan (Scanner)
open StreamBlocks (wholly block length_block Clear Reached frames_scan groups_found)
open LastWrite (lastHit lastHit_concat)

inductive Record
  | reading (k : Reading) (x y z : BitVec 32)
  | euler (x y z : BitVec 32)
  | quat (w x y z : BitVec 32)

def littleEndian (word : BitVec 32) : List Byte :=
  [word.extractLsb' 0 8, word.extractLsb' 8 8, word.extractLsb' 16 8, word.extractLsb' 24 8]

namespace Record

def rid : Record → Byte
  | .reading k _ _ _ => k.rid
  | .euler _ _ _ => ridEuler
  | .quat _ _ _ _ => ridQuat

def words : Record → List (BitVec 32)
  | .reading _ x y z => [x, y, z]
  | .euler x y z => [x, y, z]
  | .quat w x y z => [w, x, y, z]

def body (slave : Byte) (r : Record) : List Byte :=
  [frameHdr0, frameHdr1, slave, r.rid] ++ r.words.flatMap littleEndian

def crc (slave : Byte) (r : Record) : BitVec 16 :=
  getCrc16 (r.body slave) (r.body slave).length

def trailer (slave : Byte) (r : Record) : List Byte :=
  [(r.crc slave).setWidth 8, (r.crc slave >>> 8).setWidth 8, frameTail]

def encode (slave : Byte) (r : Record) : List Byte := r.body slave ++ r.trailer slave

section Encode
variable (slave : Byte) (r : Record)

theorem length_body : (r.body slave).length + 3 = frameLen r.rid := by
  cases r with
  | reading k x y z => cases k <;> rfl
  | euler x y z => rfl
  | quat w x y z => rfl

@[simp] theorem length_encode : (r.encode slave).length = frameLen r.rid := by
  rw [← length_body slave]
  simp [encode, trailer]

theorem encode_rid : (r.encode slave).getD 3 0 = r.rid := rfl

theorem knownRid_rid : Frame.knownRid r.rid = true := by
  cases r with
  | reading k x y z => cases k <;> rfl
  | euler x y z => rfl
  | quat w x y z => rfl

theorem crc_bytes (crc : BitVec 16) :
    (crc.setWidth 8).setWidth 16 ||| ((crc >>> 8).setWidth 8).setWidth 16 <<< 8 = crc := by
  apply BitVec.eq_of_getLsbD_eq
  intro i hi
  simp only [BitVec.getLsbD_or, BitVec.getLsbD_setWidth, BitVec.getLsbD_shiftLeft,
    BitVec.getLsbD_ushiftRight]
  by_cases h8 : i < 8
  · simp [h8, hi]
  · have hback : 8 + (i - 8) = i := by omega
    have hlow : i - 8 < 8 := by omega
    have hwide : i - 8 < 16 := by omega
    simp [h8, hi, hback, hlow, hwide]

theorem getD_trailer (i : ℕ) :
    (r.encode slave).getD ((r.body slave).length + i) 0 = (r.trailer slave).getD i 0 := by
  rw [encode, List.getD_append_right _ _ _ _ (Nat.le_add_right _ _), Nat.add_sub_cancel_left]

theorem tailOk_encode : Frame.tailOk (r.encode slave) = true := by
  rw [Frame.tailOk, beq_iff_eq, show (r.encode slave).length = _ from List.length_append]
  exact r.getD_trailer slave 2

theorem crcOk_encode : Frame.crcOk (r.encode slave) = true := by
  have hlength : (r.encode slave).length = (r.body slave).length + 3 := List.length_append
  have hcrc : getCrc16 (r.encode slave) (r.body slave).length = r.crc slave := by
    rw [crc, getCrc16, getCrc16, encode, List.take_left, List.take_length]
  have hlow : (r.encode slave).getD (r.body slave).length 0 = (r.crc slave).setWidth 8 :=
    r.getD_trailer slave 0
  have hhigh : (r.encode slave).getD ((r.body slave).length + 1) 0 =
      (r.crc slave >>> 8).setWidth 8 := r.getD_trailer slave 1
  rw [Frame.crcOk, beq_iff_eq, ImuDriver.crcWire, hlength, Nat.add_sub_cancel, hcrc, hlow,
    show (r.body slave).length + 3 - 2 = (r.body slave).length + 1 from rfl, hhigh, crc_bytes]

theorem look_encode : Frame.look Frame.knownRid (r.encode slave) =
    .accept (r.encode slave).length := by
  have hlength := r.length_encode slave
  have hbounds := Frame.frameLen_bounds r.rid
  have hok : Frame.ok Frame.knownRid (r.encode slave) = true := by
    rw [Frame.ok, tailOk_encode, crcOk_encode, encode_rid, knownRid_rid]
    rfl
  have hhdr : ¬ ((r.encode slave).getD 0 0 ≠ frameHdr0 ∨ (r.encode slave).getD 1 0 ≠ frameHdr1) :=
    fun h => h.elim (· rfl) (· rfl)
  rw [Frame.look_of_long (by omega) hhdr (by rw [encode_rid]; omega), encode_rid,
    List.take_of_length_le (by omega), if_pos hok, hlength]

end Encode

def axes (k : Reading) : Record → Option (BitVec 32 × BitVec 32 × BitVec 32)
  | .reading l x y z => if l = k then some (x, y, z) else none
  | .euler _ _ _ => none
  | .quat _ _ _ _ => none

end Record

theorem littleEndian_word (word : BitVec 32) :
    word.extractLsb' 24 8 ++ word.extractLsb' 16 8 ++ word.extractLsb' 8 8 ++
      word.extractLsb' 0 8 = word := by
  apply BitVec.eq_of_getLsbD_eq
  intro i hi
  simp only [BitVec.getLsbD_append, BitVec.getLsbD_extractLsb']
  rcases Nat.lt_or_ge i 8 with h8 | h8
  · simp [h8]
  · rcases Nat.lt_or_ge i 16 with h16 | h16
    · have hback : 8 + (i - 8) = i := by omega
      have hlow : i - 8 < 8 := by omega
      simp [Nat.not_lt.mpr h8, hlow, hback]
    · rcases Nat.lt_or_ge i 24 with h24 | h24
      · have hback : 16 + (i - 8 - 8) = i := by omega
        have hmid : ¬ i - 8 < 8 := by omega
        have hlow : i - 8 - 8 < 8 := by omega
        simp [Nat.not_lt.mpr h8, hmid, hlow, hback]
      · have hback : 24 + (i - 8 - 8 - 8) = i := by omega
        have hmid : ¬ i - 8 < 8 := by omega
        have hhigh : ¬ i - 8 - 8 < 8 := by omega
        have hlow : i - 8 - 8 - 8 < 8 := by omega
        simp [Nat.not_lt.mpr h8, hmid, hhigh, hlow, hback]

section Sensor
variable {K : Type} (io : Platform K)

def Platform.axes (v : BitVec 32 × BitVec 32 × BitVec 32) : K × K × K :=
  (io.ofBits v.1, io.ofBits v.2.1, io.ofBits v.2.2)

variable [Field K] [LinearOrder K]

def Sensor.hear (s : Sensor K) : Record → Sensor K
  | .reading .accel x y z =>
    { s with pending := { s.pending with
        accX := io.ofBits x, accY := io.ofBits y, accZ := io.ofBits z, hasAccel := true } }
  | .reading .gyro x y z =>
    { s with pending := { s.pending with
        gyrX := io.ofBits x, gyrY := io.ofBits y, gyrZ := io.ofBits z, hasGyro := true } }
  | .euler _ _ _ => s
  | .quat w x y z =>
    let s := s.setQuat io (io.ofBits w) (io.ofBits x) (io.ofBits y) (io.ofBits z)
    if s.pending.hasAccel && s.pending.hasGyro then s.commitTick io else s

theorem record_encode (s : Sensor K) (slave : Byte) (r : Record) :
    s.record io (r.encode slave) = some (s.hear io r) := by
  have hword : ∀ {frame : List Byte} {i : ℕ} {word : BitVec 32},
      io.f32le frame i = io.ofBits (word.extractLsb' 24 8 ++ word.extractLsb' 16 8 ++
        word.extractLsb' 8 8 ++ word.extractLsb' 0 8) → io.f32le frame i = io.ofBits word :=
    fun h => h.trans (congrArg io.ofBits (littleEndian_word _))
  cases r with
  | reading k x y z =>
    have hx : io.f32le ((Record.reading k x y z).encode slave) 4 = io.ofBits x := hword rfl
    have hy : io.f32le ((Record.reading k x y z).encode slave) 8 = io.ofBits y := hword rfl
    have hz : io.f32le ((Record.reading k x y z).encode slave) 12 = io.ofBits z := hword rfl
    unfold Sensor.record
    rw [hx, hy, hz, Record.encode_rid]
    cases k <;> rfl
  | euler x y z => rfl
  | quat w x y z =>
    have hw : io.f32le ((Record.quat w x y z).encode slave) 4 = io.ofBits w := hword rfl
    have hx : io.f32le ((Record.quat w x y z).encode slave) 8 = io.ofBits x := hword rfl
    have hy : io.f32le ((Record.quat w x y z).encode slave) 12 = io.ofBits y := hword rfl
    have hz : io.f32le ((Record.quat w x y z).encode slave) 16 = io.ofBits z := hword rfl
    unfold Sensor.record
    rw [hw, hx, hy, hz, Record.encode_rid]
    rfl

end Sensor

structure Sending where
  noise : List Byte
  slave : Byte
  record : Record

namespace Sending

def frame (x : Sending) : List Byte := x.record.encode x.slave

def bytes (x : Sending) : List Byte := block noise frame x

def axes (k : Reading) (x : Sending) : Option (BitVec 32 × BitVec 32 × BitVec 32) :=
  x.record.axes k

theorem length_frame (x : Sending) : x.frame.length = frameLen x.record.rid :=
  x.record.length_encode x.slave

end Sending

/-- The frames of one tick: both readings, in any number and order, and the quaternion last. -/
structure SentTick where
  readings : List Sending
  noise : List Byte
  slave : Byte
  qw : BitVec 32
  qx : BitVec 32
  qy : BitVec 32
  qz : BitVec 32
  noQuat : ∀ x ∈ readings, x.record.rid ≠ ridQuat
  heard : ∀ k, (lastHit (Sending.axes k) readings).isSome

namespace SentTick
variable (t : SentTick)

def quat : Sending := ⟨t.noise, t.slave, .quat t.qw t.qx t.qy t.qz⟩

def sendings : List Sending := t.readings ++ [t.quat]

def bytes : List Byte := t.sendings.flatMap Sending.bytes

theorem length_quat : 22 ≤ t.quat.frame.length := by
  rw [t.quat.length_frame]
  exact (by decide : 22 ≤ frameLen ridQuat)

def last (k : Reading) : BitVec 32 × BitVec 32 × BitVec 32 :=
  (lastHit (Sending.axes k) t.readings).get (t.heard k)

end SentTick

section Ticks
variable {K : Type} (io : Platform K)

structure Heard (xs : List Sending) (s t : Sensor K) : Prop where
  value : ∀ k, t.value k = ((lastHit (Sending.axes k) xs).map io.axes).getD (s.value k)
  flag : ∀ k, t.flag k = ((lastHit (Sending.axes k) xs).isSome || s.flag k)
  committed : t.committed = s.committed
  seqCounter : t.seqCounter = s.seqCounter

theorem Heard.euler {xs : List Sending} {s t : Sensor K} (h : Heard io xs s t) {x : Sending}
    (hx : ∀ k, x.axes k = none) : Heard io (xs ++ [x]) s t := by
  constructor
  · intro k
    rw [lastHit_concat, hx, Option.none_or]
    exact h.value k
  · intro k
    rw [lastHit_concat, hx, Option.none_or]
    exact h.flag k
  · exact h.committed
  · exact h.seqCounter

variable [Field K] [LinearOrder K]

def Platform.orientation (w x y z : K) : K × K × K × K :=
  let n2 := w * w + x * x + y * y + z * z
  if 1 / ((1000000 : ℕ) : K) < n2 then
    (w / io.sqrt n2, x / io.sqrt n2, y / io.sqrt n2, z / io.sqrt n2)
  else (1, 0, 0, 0)

def SentTick.observation (n : ℕ) (t : SentTick) : ImuObservation K :=
  let q := io.orientation (io.ofBits t.qw) (io.ofBits t.qx) (io.ofBits t.qy) (io.ofBits t.qz)
  let acc := io.axes (t.last .accel)
  let gyr := io.axes (t.last .gyro)
  { qw := q.1
    qx := q.2.1
    qy := q.2.2.1
    qz := q.2.2.2
    gyrX := gyr.1
    gyrY := gyr.2.1
    gyrZ := gyr.2.2
    accX := acc.1
    accY := acc.2.1
    accZ := acc.2.2
    timestampNs := io.monotonicNs n
    seq := BitVec.ofNat 32 (n + 1)
    valid := 1 }

theorem Heard.reading {xs : List Sending} {s t : Sensor K} (h : Heard io xs s t) {x : Sending}
    {l : Reading} {a b c : BitVec 32} (hx : x.record = .reading l a b c) :
    Heard io (xs ++ [x]) s (t.hear io (.reading l a b c)) := by
  have haxes : ∀ k, x.axes k = if l = k then some (a, b, c) else none := by
    intro k
    rw [Sending.axes, hx]
    rfl
  constructor
  · intro k
    rw [lastHit_concat, haxes]
    by_cases hlk : l = k
    · subst hlk
      rw [if_pos rfl]
      cases l <;> rfl
    · rw [if_neg hlk, Option.none_or, ← h.value]
      cases l <;> cases k <;> first | rfl | exact absurd rfl hlk
  · intro k
    rw [lastHit_concat, haxes]
    by_cases hlk : l = k
    · subst hlk
      rw [if_pos rfl]
      cases l <;> rfl
    · rw [if_neg hlk, Option.none_or, ← h.flag]
      cases l <;> cases k <;> first | rfl | exact absurd rfl hlk
  · rw [← h.committed]
    cases l <;> rfl
  · rw [← h.seqCounter]
    cases l <;> rfl

theorem heard_of_noQuat {xs : List Sending} (h : ∀ x ∈ xs, x.record.rid ≠ ridQuat)
    (s : Sensor K) : Heard io xs s (xs.foldl (fun s x => s.hear io x.record) s) := by
  induction xs using List.reverseRecOn with
  | nil => exact ⟨fun _ => rfl, fun _ => rfl, rfl, rfl⟩
  | append_singleton xs x ih =>
    have hxs := ih fun y hy => h y (List.mem_append_left _ hy)
    rw [List.foldl_append, List.foldl_cons, List.foldl_nil]
    cases hrecord : x.record with
    | reading l a b c => exact hxs.reading io hrecord
    | euler a b c => exact hxs.euler io fun k => by rw [Sending.axes, hrecord]; rfl
    | quat w a b c => exact absurd (hrecord ▸ rfl) (h x (by simp))

theorem setQuat_eq (s : Sensor K) (w x y z : K) :
    s.setQuat io w x y z =
      { s with pending := { s.pending with
          qw := (io.orientation w x y z).1
          qx := (io.orientation w x y z).2.1
          qy := (io.orientation w x y z).2.2.1
          qz := (io.orientation w x y z).2.2.2
          hasQuat := true } } := by
  unfold Sensor.setQuat Platform.orientation
  simp only [Nat.cast_ofNat, mul_one_div]
  split_ifs <;> rfl

theorem commit_quat (t : SentTick) {s : Sensor K} {n : ℕ} (hflag : ∀ k, s.flag k = true)
    (hvalue : ∀ k, s.value k = io.axes (t.last k)) (hlength : s.committed.length = n)
    (hseq : s.seqCounter = BitVec.ofNat 32 n) :
    (s.hear io t.quat.record).committed = s.committed ++ [t.observation io n] ∧
      (s.hear io t.quat.record).seqCounter = BitVec.ofNat 32 (n + 1) := by
  have haccel : s.pending.hasAccel = true := hflag .accel
  have hgyro : s.pending.hasGyro = true := hflag .gyro
  obtain ⟨haccX, haccY, haccZ⟩ : s.pending.accX = (io.axes (t.last .accel)).1 ∧
      s.pending.accY = (io.axes (t.last .accel)).2.1 ∧
      s.pending.accZ = (io.axes (t.last .accel)).2.2 := by
    rw [← hvalue .accel]
    exact ⟨rfl, rfl, rfl⟩
  obtain ⟨hgyrX, hgyrY, hgyrZ⟩ : s.pending.gyrX = (io.axes (t.last .gyro)).1 ∧
      s.pending.gyrY = (io.axes (t.last .gyro)).2.1 ∧
      s.pending.gyrZ = (io.axes (t.last .gyro)).2.2 := by
    rw [← hvalue .gyro]
    exact ⟨rfl, rfl, rfl⟩
  have hnext : BitVec.ofNat 32 n + 1 = BitVec.ofNat 32 (n + 1) := (BitVec.ofNat_add n 1).symm
  simp only [Sensor.hear, SentTick.quat, setQuat_eq, haccel, hgyro, Bool.and_self, if_true]
  constructor
  · simp only [Sensor.commitTick, Sensor.next, SentTick.observation, haccX, haccY, haccZ, hgyrX,
      hgyrY, hgyrZ, hlength, hseq, hnext]
  · simp only [Sensor.commitTick, hseq, hnext]

/-- The state between two ticks: an observation for each tick so far. -/
structure Delivered (ticks : List SentTick) (s : Sensor K) : Prop where
  committed : s.committed = ticks.mapIdx fun n t => t.observation io n
  seqCounter : s.seqCounter = BitVec.ofNat 32 ticks.length

theorem delivered_tick {ticks : List SentTick} {s : Sensor K} (h : Delivered io ticks s)
    (t : SentTick) : Delivered io (ticks ++ [t])
      (t.sendings.foldl (fun s x => s.hear io x.record) s) := by
  have hheard := heard_of_noQuat io t.noQuat s
  have hsome : ∀ k, lastHit (Sending.axes k) t.readings = some (t.last k) := fun k =>
    (Option.some_get _).symm
  have hlength : s.committed.length = ticks.length := by rw [h.committed, List.length_mapIdx]
  rw [SentTick.sendings, List.foldl_append, List.foldl_cons, List.foldl_nil]
  obtain ⟨hcommitted, hseq⟩ := commit_quat io t (n := ticks.length)
    (fun k => by rw [hheard.flag, t.heard]; rfl)
    (fun k => by rw [hheard.value, hsome]; rfl)
    (by rw [hheard.committed, hlength]) (by rw [hheard.seqCounter, h.seqCounter])
  constructor
  · rw [hcommitted, hheard.committed, h.committed, List.mapIdx_concat]
  · rw [hseq, List.length_append, List.length_singleton]

theorem delivered_ticks (hasObsCb : Bool) (cbEveryN : BitVec 32) (ticks : List SentTick) :
    Delivered io ticks ((ticks.flatMap SentTick.sendings).foldl
      (fun s x => s.hear io x.record) (.new hasObsCb cbEveryN)) := by
  induction ticks using List.reverseRecOn with
  | nil => exact ⟨rfl, rfl⟩
  | append_singleton ticks t ih =>
    rw [List.flatMap_append, List.flatMap_singleton, List.foldl_append]
    exact delivered_tick io ih t

theorem committed_of_part (t : SentTick) {part : List Sending} (hpart : part <+: t.sendings)
    (hne : part ≠ t.sendings) (s : Sensor K) :
    (part.foldl (fun s x => s.hear io x.record) s).committed = s.committed := by
  have hreadings := (List.prefix_concat_iff.mp hpart).resolve_left hne
  exact (heard_of_noQuat io (fun x hx => t.noQuat x (hreadings.subset hx)) s).committed

end Ticks

theorem look_frame (x : Sending) :
    (Frame.scanner Frame.knownRid).look x.frame = .accept x.frame.length :=
  x.record.look_encode x.slave

theorem length_of_wait {known : Byte → Bool} {bytes : List Byte}
    (h : (Frame.scanner known).look bytes = .wait) : bytes.length ≤ 22 := by
  have hrest := Frame.length_rest_lt known bytes
  rw [Scanner.scan_of_wait h] at hrest
  exact Nat.le_of_lt_succ hrest

namespace ImuDriver
variable {K : Type} [Field K] [LinearOrder K] (io : Platform K)

theorem readChunks_of_found (s₀ : Sensor K) {chunks : List (List Byte)} {found : List Sending}
    (h : ((Frame.scanner Frame.knownRid).scan chunks.flatten).frames = found.map Sending.frame) :
    (chunks.foldl (readChunk io) (new s₀)).accepted = found.map Sending.frame ∧
      (chunks.foldl (readChunk io) (new s₀)).sensor =
        found.foldl (fun s x => s.hear io x.record) s₀ := by
  have hrecord : ∀ (s : Sensor K) (x : Sending),
      (s.record io x.frame).getD s = s.hear io x.record := by
    intro s x
    rw [Sending.frame, record_encode, Option.getD_some]
  have hsensor : found.foldl (fun s x => s.hear io x.record) s₀ =
      (found.map Sending.frame).foldl (fun s f => (s.record io f).getD s) s₀ := by
    simp only [List.foldl_map, hrecord]
  rw [hsensor, ← h, foldl_readChunk]
  simp only [foldl_absorb]
  exact ⟨List.nil_append _, rfl⟩

theorem committed_of_found (hasObsCb : Bool) (cbEveryN : BitVec 32) (ticks whole : List SentTick)
    {rest : List Sending}
    (hrest : rest = [] ∨ ∃ t ∈ ticks, rest <+: t.sendings ∧ rest ≠ t.sendings) :
    ((whole.flatMap SentTick.sendings ++ rest).foldl (fun s x => s.hear io x.record)
      (Sensor.new hasObsCb cbEveryN)).committed = whole.mapIdx fun k t => t.observation io k := by
  have hwhole := (delivered_ticks io hasObsCb cbEveryN whole).committed
  rw [List.foldl_append]
  rcases hrest with rfl | ⟨t, -, hpart, hne⟩
  · exact hwhole
  · rw [committed_of_part io t hpart hne, hwhole]

section Received
variable (hasObsCb : Bool) (cbEveryN : BitVec 32) {ticks : List SentTick} {chunks : List (List Byte)}

/-- What the driver has found of the sent frames, and that it has found the whole ticks. -/
theorem found_of_chunks
    (hclear : Clear Sending.noise Sending.frame (Frame.scanner Frame.knownRid)
      (ticks.flatMap SentTick.sendings))
    (hchunks : chunks.flatten <+: ticks.flatMap SentTick.bytes) :
    ∃ found, ((Frame.scanner Frame.knownRid).scan chunks.flatten).frames =
        found.map Sending.frame ∧
      found <+: wholly Sending.bytes (ticks.flatMap SentTick.sendings) chunks.flatten.length ∧
      Reached Sending.noise Sending.frame 22 (ticks.flatMap SentTick.sendings) found
        chunks.flatten.length := by
  refine frames_scan (fun _ => length_of_wait) (fun x _ => look_frame x) hclear ?_
  rw [List.flatMap_assoc]
  exact hchunks

theorem committed_of_chunks
    (hclear : Clear Sending.noise Sending.frame (Frame.scanner Frame.knownRid)
      (ticks.flatMap SentTick.sendings))
    (hchunks : chunks.flatten <+: ticks.flatMap SentTick.bytes) :
    (chunks.foldl (readChunk io) (new (.new hasObsCb cbEveryN))).sensor.committed =
      (wholly SentTick.bytes ticks chunks.flatten.length).mapIdx
        fun k t => t.observation io k := by
  obtain ⟨found, hframes, hfound, hreached⟩ := found_of_chunks hclear hchunks
  -- A tick ends in the longest frame, so nothing of it can be held back.
  have hgroups := hreached.whole_groups fun t _ => ⟨t.readings, t.quat, rfl, t.length_quat⟩
  obtain ⟨rest, hsplit, hrest⟩ := groups_found Sending.bytes SentTick.sendings hfound hgroups
  rw [(readChunks_of_found io _ hframes).2, hsplit]
  exact committed_of_found io hasObsCb cbEveryN ticks _ hrest

end Received

/-- Whatever lies between the frames and however the reads cut the stream, the driver
accepts the frames of the sensor and no others, each with the third byte after it at the
latest, and each tick that has come wholly is one observation with its own values. -/
theorem ticks_delivered (hasObsCb : Bool) (cbEveryN : BitVec 32) (ticks : List SentTick)
    (hclear : Clear Sending.noise Sending.frame (Frame.scanner Frame.knownRid)
      (ticks.flatMap SentTick.sendings)) (chunks : List (List Byte))
    (hchunks : chunks.flatten <+: ticks.flatMap SentTick.bytes) :
    let d := chunks.foldl (readChunk io) (new (.new hasObsCb cbEveryN))
    let sent := ticks.flatMap SentTick.sendings
    let n := chunks.flatten.length
    (∃ found, d.accepted = found.map Sending.frame ∧
        found <+: wholly Sending.bytes sent n ∧
        ∀ m, m + 3 ≤ n → wholly Sending.bytes sent m <+: found) ∧
      d.sensor.committed =
        (wholly SentTick.bytes ticks n).mapIdx fun k t => t.observation io k := by
  intro d sent n
  obtain ⟨found, hframes, hfound, hreached⟩ := found_of_chunks hclear hchunks
  refine ⟨⟨found, (readChunks_of_found io _ hframes).1, hfound, fun m hm => ?_⟩,
    committed_of_chunks io hasObsCb cbEveryN hclear hchunks⟩
  refine hreached.whole_blocks hm fun x _ => ?_
  have hlong := (Frame.frameLen_bounds x.record.rid).1
  rw [x.length_frame]
  omega

def damagedTick : SentTick where
  readings :=
    [⟨[], 1, .reading .gyro 0x40000000 0 0⟩,
      ⟨[0x55, 0xAA, 1, 1, 0, 0, 0x80], 1, .reading .accel 0x3F800000 0 0⟩]
  noise := [0x55]
  slave := 1
  qw := 0x3F800000
  qx := 0
  qy := 0
  qz := 0
  noQuat := by decide
  heard k := by cases k <;> rfl

theorem ticks_delivered_damaged :
    let io : Platform ℚ := ⟨fun bits => bits.toNat, fun _ => 1, BitVec.ofNat 64⟩
    let stream := damagedTick.bytes ++ damagedTick.bytes
    ([stream.take 25, (stream.drop 25).take 80].foldl (readChunk io)
      (new (.new false 1))).sensor.committed = [damagedTick.observation io 0] := by
  intro io stream
  exact (ticks_delivered io false 1 [damagedTick, damagedTick] (by decide +kernel)
    [stream.take 25, (stream.drop 25).take 80] (by decide +kernel)).2

end ImuDriver
end MybipedalDeploy.Imu
