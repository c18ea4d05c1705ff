import Mathlib.Algebra.Field.Defs
import Mathlib.Data.List.Basic

/-!
# Observations of the inertial sensor

An observation is the cache line that the driver publishes. It is copied field by
field, so it is also a family indexed by its fields; the padding is left out.
-/

namespace MybipedalDeploy.Imu

structure ImuObservation (K : Type) where
  qw : K
  qx : K
  qy : K
  qz : K
  gyrX : K
  gyrY : K
  gyrZ : K
  accX : K
  accY : K
  accZ : K
  timestampNs : BitVec 64
  seq : BitVec 32
  valid : BitVec 8
  deriving DecidableEq

def ImuObservation.default {K : Type} [Field K] : ImuObservation K where
  qw := 1
  qx := 0
  qy := 0
  qz := 0
  gyrX := 0
  gyrY := 0
  gyrZ := 0
  accX := 0
  accY := 0
  accZ := 0
  timestampNs := 0
  seq := 0
  valid := 0

inductive ObsField
  | qw | qx | qy | qz | gyrX | gyrY | gyrZ | accX | accY | accZ | timestampNs | seq | valid
  deriving DecidableEq

namespace ObsField

abbrev Word (K : Type) : ObsField → Type
  | .timestampNs => BitVec 64
  | .seq => BitVec 32
  | .valid => BitVec 8
  | .qw | .qx | .qy | .qz | .gyrX | .gyrY | .gyrZ | .accX | .accY | .accZ => K

def all : List ObsField :=
  [.qw, .qx, .qy, .qz, .gyrX, .gyrY, .gyrZ, .accX, .accY, .accZ, .timestampNs, .seq, .valid]

theorem mem_all (i : ObsField) : i ∈ all := by cases i <;> decide

end ObsField

namespace ImuObservation
variable {K : Type}

def words (o : ImuObservation K) : (i : ObsField) → i.Word K
  | .qw => o.qw
  | .qx => o.qx
  | .qy => o.qy
  | .qz => o.qz
  | .gyrX => o.gyrX
  | .gyrY => o.gyrY
  | .gyrZ => o.gyrZ
  | .accX => o.accX
  | .accY => o.accY
  | .accZ => o.accZ
  | .timestampNs => o.timestampNs
  | .seq => o.seq
  | .valid => o.valid

def ofWords (w : (i : ObsField) → i.Word K) : ImuObservation K where
  qw := w .qw
  qx := w .qx
  qy := w .qy
  qz := w .qz
  gyrX := w .gyrX
  gyrY := w .gyrY
  gyrZ := w .gyrZ
  accX := w .accX
  accY := w .accY
  accZ := w .accZ
  timestampNs := w .timestampNs
  seq := w .seq
  valid := w .valid

@[simp] theorem ofWords_words (o : ImuObservation K) : ofWords o.words = o := rfl

end ImuObservation
end MybipedalDeploy.Imu
