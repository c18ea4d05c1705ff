import Mathlib.Algebra.Order.Field.Basic
import MybipedalDeploy.Imu.Crc
import MybipedalDeploy.Imu.ImuObservation

/-!
# The serial reader of the inertial sensor

`readerLoop` appends what it reads to a buffer and parses the frames in it. The
publication of an observation is one step here. `Sensor` groups what an accepted
frame can change; `accepted`, `committed` and `published` are histories.
-/

namespace MybipedalDeploy.Imu

/-- What the platform provides: floats from their bits, the root, and the readings
of the monotonic clock, one for each commit. -/
structure Platform (K : Type) where
  ofBits : BitVec 32 → K
  sqrt : K → K
  monotonicNs : ℕ → BitVec 64

structure Pending (K : Type) where
  accX : K
  accY : K
  accZ : K
  gyrX : K
  gyrY : K
  gyrZ : K
  qw : K
  qx : K
  qy : K
  qz : K
  hasAccel : Bool
  hasGyro : Bool
  hasQuat : Bool

def Pending.clearFlags {K : Type} (p : Pending K) : Pending K :=
  { p with hasAccel := false, hasGyro := false, hasQuat := false }

structure Sensor (K : Type) where
  pending : Pending K
  obs : ImuObservation K
  obsVer : BitVec 32
  tickCounter : BitVec 32
  seqCounter : BitVec 32
  statTicksTotal : BitVec 64
  statTicksPub : BitVec 64
  hasObsCb : Bool
  cbEveryN : BitVec 32
  committed : List (ImuObservation K)
  published : List (ImuObservation K)

structure ImuDriver (K : Type) where
  buf : List Byte
  sensor : Sensor K
  statCrcErr : BitVec 64
  statDropped : BitVec 64
  accepted : List (List Byte)

def frameHdr0 : Byte := 0x55
def frameHdr1 : Byte := 0xAA
def frameTail : Byte := 0x0A
def frameLenStd : ℕ := 19
def frameLenQuat : ℕ := 23
def ridAccel : Byte := 0x01
def ridGyro : Byte := 0x02
def ridEuler : Byte := 0x03
def ridQuat : Byte := 0x04

def frameLen (rid : Byte) : ℕ := if rid = ridQuat then frameLenQuat else frameLenStd

namespace Platform
variable {K : Type} (io : Platform K)

def f32le (frame : List Byte) (i : ℕ) : K :=
  io.ofBits (frame.getD (i + 3) 0 ++ frame.getD (i + 2) 0 ++ frame.getD (i + 1) 0 ++ frame.getD i 0)

end Platform

namespace Sensor
variable {K : Type}

section Commit
variable (io : Platform K) (s : Sensor K)

def next : ImuObservation K where
  qw := s.pending.qw
  qx := s.pending.qx
  qy := s.pending.qy
  qz := s.pending.qz
  gyrX := s.pending.gyrX
  gyrY := s.pending.gyrY
  gyrZ := s.pending.gyrZ
  accX := s.pending.accX
  accY := s.pending.accY
  accZ := s.pending.accZ
  timestampNs := io.monotonicNs s.committed.length
  seq := s.seqCounter + 1
  valid := 1

def commitTick : Sensor K :=
  let next := s.next io
  let tick := s.tickCounter + 1
  let publish := s.hasObsCb && tick % s.cbEveryN == 0
  { s with
    pending := s.pending.clearFlags
    obs := next
    obsVer := s.obsVer + 2
    tickCounter := tick
    seqCounter := s.seqCounter + 1
    statTicksTotal := s.statTicksTotal + 1
    statTicksPub := if publish then s.statTicksPub + 1 else s.statTicksPub
    committed := s.committed ++ [next]
    published := if publish then s.published ++ [next] else s.published }

end Commit

variable [Field K]

def new (hasObsCb : Bool) (cbEveryN : BitVec 32) : Sensor K where
  pending := ⟨0, 0, 0, 0, 0, 0, 0, 0, 0, 0, false, false, false⟩
  obs := .default
  obsVer := 0
  tickCounter := 0
  seqCounter := 0
  statTicksTotal := 0
  statTicksPub := 0
  hasObsCb := hasObsCb
  cbEveryN := if cbEveryN < 1 then 1 else cbEveryN
  committed := []
  published := []

variable [LinearOrder K] (io : Platform K)

/-- The orientation is normalised; one that is nearly zero becomes the identity. -/
def setQuat (f1 f2 f3 f4 : K) (s : Sensor K) : Sensor K :=
  let n2 := f1 * f1 + f2 * f2 + f3 * f3 + f4 * f4
  let inv := 1 / io.sqrt n2
  if 1 / 1000000 < n2 then
    { s with pending := { s.pending with
        qw := f1 * inv, qx := f2 * inv, qy := f3 * inv, qz := f4 * inv, hasQuat := true } }
  else
    { s with pending := { s.pending with qw := 1, qx := 0, qy := 0, qz := 0, hasQuat := true } }

def record (frame : List Byte) (s : Sensor K) : Option (Sensor K) :=
  let rid := frame.getD 3 0
  let f1 := io.f32le frame 4
  let f2 := io.f32le frame 8
  let f3 := io.f32le frame 12
  if rid = ridAccel then
    some { s with pending := { s.pending with accX := f1, accY := f2, accZ := f3, hasAccel := true } }
  else if rid = ridGyro then
    some { s with pending := { s.pending with gyrX := f1, gyrY := f2, gyrZ := f3, hasGyro := true } }
  else if rid = ridEuler then some s
  else if rid = ridQuat then
    let s := s.setQuat io f1 f2 f3 (io.f32le frame 16)
    some (if s.pending.hasAccel && s.pending.hasGyro then s.commitTick io else s)
  else none

end Sensor

namespace ImuDriver
variable {K : Type} [Field K] [LinearOrder K] (io : Platform K)

def new (s : Sensor K) : ImuDriver K := ⟨[], s, 0, 0, []⟩

def crcWire (frame : List Byte) (flen : ℕ) : BitVec 16 :=
  (frame.getD (flen - 3) 0).setWidth 16 ||| (frame.getD (flen - 2) 0).setWidth 16 <<< 8

def parseFrame (frame : List Byte) (flen : ℕ) (d : ImuDriver K) : Bool × ImuDriver K :=
  if frame.getD (flen - 1) 0 ≠ frameTail then (false, d)
  else if getCrc16 frame (flen - 3) ≠ crcWire frame flen then
    (false, { d with statCrcErr := d.statCrcErr + 1 })
  else
    match d.sensor.record io frame with
    | some s => (true, { d with sensor := s })
    | none => (false, d)

/-- The loop over the buffer, from position `pos`; it returns the position it stops at. -/
def processLoop (data : List Byte) : ℕ → ℕ → ImuDriver K → ℕ × ImuDriver K
  | 0, pos, d => (pos, d)
  | fuel + 1, pos, d =>
    if pos + 4 ≤ data.length then
      if data.getD pos 0 ≠ frameHdr0 ∨ data.getD (pos + 1) 0 ≠ frameHdr1 then
        processLoop data fuel (pos + 1) d
      else
        let flen := frameLen (data.getD (pos + 3) 0)
        if pos + flen > data.length then (pos, d)
        else
          let frame := (data.drop pos).take flen
          match d.parseFrame io frame flen with
          | (true, d) =>
            processLoop data fuel (pos + flen) { d with accepted := d.accepted ++ [frame] }
          | (false, d) => processLoop data fuel (pos + 1) { d with statDropped := d.statDropped + 1 }
    else (pos, d)

def processed (d : ImuDriver K) : ℕ × ImuDriver K := processLoop io d.buf d.buf.length 0 d

def unread (d : ImuDriver K) : List Byte := d.buf.drop (d.processed io).1

def processBuffer (d : ImuDriver K) : ImuDriver K :=
  let r := (d.processed io).2
  if (d.unread io).length > 4096 then
    { r with buf := [], sensor := { r.sensor with pending := r.sensor.pending.clearFlags } }
  else { r with buf := d.unread io }

def readChunk (d : ImuDriver K) (chunk : List Byte) : ImuDriver K :=
  processBuffer io { d with buf := d.buf ++ chunk }

end ImuDriver
end MybipedalDeploy.Imu
