import Mathlib.Algebra.Field.Rat
import Mathlib.Algebra.Order.Ring.Rat
import Mathlib.Data.List.GetD
import MybipedalDeploy.Imu.CrcBurst
import MybipedalDeploy.Imu.Reassembly

/-!
# Which bursts the frame check detects

A burst of sixteen bits changes three neighbouring bytes at most. What it did to these
decides by itself whether the check value changes, for a message of any length, and so
whether the driver refuses a frame.
-/

namespace MybipedalDeploy.Imu

inductive BitOrder
  | msbFirst
  | lsbFirst
deriving DecidableEq

def bitAt (order : BitOrder) (message : List Byte) (i : ℕ) : Bool :=
  match order with
  | .msbFirst => (message.getD (i / 8) 0).getMsbD (i % 8)
  | .lsbFirst => (message.getD (i / 8) 0).getLsbD (i % 8)

/-- Two messages that differ in the sixteen bits from `start` on, at most. -/
structure Burst (order : BitOrder) (start : ℕ) (sent received : List Byte) : Prop where
  length_eq : sent.length = received.length
  bits_eq : ∀ i, i < start ∨ start + 16 ≤ i → bitAt order sent i = bitAt order received i

def flipped (sent received : List Byte) (k : ℕ) : Byte := sent.getD k 0 ^^^ received.getD k 0

def UnseenAt (start : ℕ) (sent received : List Byte) : Prop :=
  let k := start / 8
  Unseen (flipped sent received k) (flipped sent received (k + 1)) (flipped sent received (k + 2))

instance (start : ℕ) (sent received : List Byte) : Decidable (UnseenAt start sent received) :=
  inferInstanceAs (Decidable (Unseen _ _ _))

theorem Burst.flipped_eq_zero {order : BitOrder} {start : ℕ} {sent received : List Byte}
    (h : Burst order start sent received) {k : ℕ} (hk : k < start / 8 ∨ start / 8 + 3 ≤ k) :
    flipped sent received k = 0 := by
  have hbit : ∀ i < 8, bitAt order sent (8 * k + i) = bitAt order received (8 * k + i) := by
    intro i hi
    exact h.bits_eq _ (by omega)
  have hbyte : ∀ i < 8, (8 * k + i) / 8 = k ∧ (8 * k + i) % 8 = i := by
    intro i hi
    omega
  refine BitVec.xor_eq_zero_iff.mpr ?_
  cases order with
  | msbFirst =>
    apply BitVec.eq_of_getMsbD_eq
    intro i hi
    simpa only [bitAt, (hbyte i hi).1, (hbyte i hi).2] using hbit i hi
  | lsbFirst =>
    apply BitVec.eq_of_getLsbD_eq
    intro i hi
    simpa only [bitAt, (hbyte i hi).1, (hbyte i hi).2] using hbit i hi

theorem burst_of_bytes (order : BitOrder) (front rest : List Byte) (a b a' b' : Byte) :
    Burst order (8 * front.length) (front ++ a :: b :: rest) (front ++ a' :: b' :: rest) := by
  have hbyte : ∀ k, k < front.length ∨ front.length + 2 ≤ k →
      (front ++ a :: b :: rest).getD k 0 = (front ++ a' :: b' :: rest).getD k 0 := by
    rintro k (hlt | hge)
    · rw [List.getD_append _ _ _ _ hlt, List.getD_append _ _ _ _ hlt]
    · obtain ⟨i, rfl⟩ := Nat.exists_eq_add_of_le hge
      rw [List.getD_append_right _ _ _ _ (by omega), List.getD_append_right _ _ _ _ (by omega),
        Nat.add_assoc, Nat.add_sub_cancel_left, Nat.add_comm 2 i]
      rfl
  refine ⟨by simp, fun i hi => ?_⟩
  have hsame := hbyte (i / 8) (by omega)
  cases order <;> simp only [bitAt, hsame]

theorem getD_zipWith_xor (sent received : List Byte) (h : sent.length = received.length) (k : ℕ) :
    (List.zipWith (· ^^^ ·) sent received).getD k 0 = flipped sent received k := by
  rcases Nat.lt_or_ge k sent.length with hlt | hge
  · simp [flipped, List.getD, hlt, h ▸ hlt]
  · simp [flipped, List.getD, hge, h ▸ hge]

theorem eq_replicate_zero {e : List Byte} (h : ∀ k, e.getD k 0 = 0) :
    e = List.replicate e.length 0 := by
  refine List.eq_replicate_of_mem fun b hb => ?_
  obtain ⟨k, hk, rfl⟩ := List.getElem_of_mem hb
  simpa [List.getD, hk] using h k

theorem unseen_rotate (e₁ e₂ : Byte) : Unseen e₁ e₂ 0 ↔ Unseen 0 e₁ e₂ := by
  have hregister : register e₁ e₂ 0 = crc16Shift (register 0 e₁ e₂) := by
    have hzero : crc16Step 0 0 = 0 := by decide
    simp only [register, List.foldl_cons, List.foldl_nil, hzero]
    rw [crc16Step_eq, crc16Entry_additive.map_zero]
    exact BitVec.xor_zero
  rw [← iterate_register_eq_zero 0, hregister]
  exact iterate_register_eq_zero 1 0 e₁ e₂

theorem foldl_window (e : List Byte) (h : ∀ k, 3 ≤ k → e.getD k 0 = 0) :
    e.foldl crc16Step 0 = 0 ↔ Unseen (e.getD 0 0) (e.getD 1 0) (e.getD 2 0) := by
  have hzero : crc16Step 0 0 = 0 := by decide
  match e with
  | [] => decide
  | [a] =>
    have hregister : [a].foldl crc16Step 0 = register 0 0 a := by
      simp only [register, List.foldl_cons, hzero]
    rw [hregister]
    exact (iterate_register_eq_zero 0 0 0 a).trans
      ((unseen_rotate 0 a).symm.trans (unseen_rotate a 0).symm)
  | [a, b] =>
    have hregister : [a, b].foldl crc16Step 0 = register 0 a b := by
      simp only [register, List.foldl_cons, hzero]
    rw [hregister]
    exact (iterate_register_eq_zero 0 0 a b).trans (unseen_rotate a b).symm
  | a :: b :: c :: rest =>
    have hrest : rest = List.replicate rest.length 0 :=
      eq_replicate_zero fun k => h (k + 3) (Nat.le_add_left 3 k)
    have hfold : (a :: b :: c :: rest).foldl crc16Step 0 =
        crc16Shift^[rest.length] (register a b c) := by
      rw [← foldl_zeros, ← hrest]
      rfl
    rw [hfold]
    exact iterate_register_eq_zero rest.length a b c

theorem getD_take {m : List Byte} {j k : ℕ} (hk : k < j) : (m.take j).getD k 0 = m.getD k 0 := by
  simp [List.getD, hk]

theorem foldl_drop {e : List Byte} {j : ℕ} (h : ∀ k < j, e.getD k 0 = 0) :
    (e.drop j).foldl crc16Step 0 = e.foldl crc16Step 0 := by
  have htake : e.take j = List.replicate (e.take j).length 0 := by
    apply eq_replicate_zero
    intro k
    rcases Nat.lt_or_ge k j with hlt | hge
    · rw [getD_take hlt, h k hlt]
    · simp [List.getD, Nat.not_lt.mpr hge]
  conv_rhs => rw [← List.take_append_drop j e]
  rw [List.foldl_append, htake, foldl_zeros, iterate_shift_zero]

theorem Burst.getCrc16_eq_iff {order : BitOrder} {start : ℕ} {sent received : List Byte}
    (h : Burst order start sent received) :
    getCrc16 sent sent.length = getCrc16 received received.length ↔
      UnseenAt start sent received := by
  let e := List.zipWith (· ^^^ ·) sent received
  have hget : ∀ k, e.getD k 0 = flipped sent received k :=
    getD_zipWith_xor sent received h.length_eq
  have hdrop : ∀ k, (e.drop (start / 8)).getD k 0 = flipped sent received (start / 8 + k) := by
    intro k
    rw [← hget]
    simp [List.getD, List.getElem?_drop]
  have hxor : getCrc16 sent sent.length ^^^ getCrc16 received received.length =
      e.foldl crc16Step 0 := by
    rw [getCrc16, getCrc16, List.take_length, List.take_length]
    exact crc16_foldl_xor _ _ _ _ h.length_eq
  have hbefore : ∀ k < start / 8, e.getD k 0 = 0 := by
    intro k hk
    rw [hget, h.flipped_eq_zero (.inl hk)]
  have hafter : ∀ k, 3 ≤ k → (e.drop (start / 8)).getD k 0 = 0 := by
    intro k hk
    rw [hdrop, h.flipped_eq_zero (.inr (by omega))]
  have hwindow := foldl_window _ hafter
  rw [foldl_drop hbefore, ← hxor, hdrop, hdrop, hdrop] at hwindow
  exact BitVec.xor_eq_zero_iff.symm.trans hwindow

/-- A frame that a burst changed in the bytes under the check, with header, identifier
and tail in order, so that it is read at the same length. -/
structure Garbled (order : BitOrder) (start : ℕ) (sent received : List Byte) : Prop where
  length_eq : sent.length = frameLen (sent.getD 3 0)
  covered : Burst order start (sent.take (sent.length - 3)) (received.take (sent.length - 3))
  changed : sent ≠ received
  trailer : sent.drop (sent.length - 3) = received.drop (sent.length - 3)
  header : received.getD 0 0 = frameHdr0 ∧ received.getD 1 0 = frameHdr1
  known : Frame.knownRid (received.getD 3 0) = true
  sameLength : frameLen (received.getD 3 0) = frameLen (sent.getD 3 0)

namespace Garbled
variable {order : BitOrder} {start : ℕ} {sent received : List Byte}

theorem long (h : Garbled order start sent received) : 3 ≤ sent.length := by
  have hbounds := Frame.frameLen_bounds (sent.getD 3 0)
  have hlength := h.length_eq
  omega

theorem received_length (h : Garbled order start sent received) :
    received.length = sent.length := by
  have htrailer := congrArg List.length h.trailer
  have hlong := h.long
  simp only [List.length_drop] at htrailer
  omega

theorem trailer_getD (h : Garbled order start sent received) {k : ℕ} (hk : sent.length - 3 ≤ k) :
    sent.getD k 0 = received.getD k 0 := by
  have hget := congrArg (fun bytes => bytes.getD (k - (sent.length - 3)) 0) h.trailer
  simpa only [ImuDriver.getD_drop, Nat.add_sub_cancel' hk] using hget

theorem flipped_take (h : Garbled order start sent received) (k : ℕ) :
    flipped (sent.take (sent.length - 3)) (received.take (sent.length - 3)) k =
      flipped sent received k := by
  rcases Nat.lt_or_ge k (sent.length - 3) with hlt | hge
  · rw [flipped, flipped, getD_take hlt, getD_take hlt]
  · rw [flipped, flipped, h.trailer_getD hge, BitVec.xor_self]
    simp [List.getD, Nat.not_lt.mpr hge]

theorem unseenAt_take (h : Garbled order start sent received) :
    UnseenAt start (sent.take (sent.length - 3)) (received.take (sent.length - 3)) ↔
      UnseenAt start sent received := by
  simp only [UnseenAt, h.flipped_take]

theorem getCrc16_eq_iff (h : Garbled order start sent received) :
    getCrc16 sent (sent.length - 3) = getCrc16 received (received.length - 3) ↔
      UnseenAt start sent received := by
  have hburst := h.covered.getCrc16_eq_iff
  have htake : ∀ m : List Byte, getCrc16 (m.take (sent.length - 3))
      (m.take (sent.length - 3)).length = getCrc16 m (sent.length - 3) := by
    intro m
    rw [getCrc16, List.take_length, getCrc16]
  rw [htake, htake, h.unseenAt_take] at hburst
  rwa [h.received_length]

theorem ok_iff (h : Garbled order start sent received)
    (hsent : Frame.ok Frame.knownRid sent = true) :
    Frame.ok Frame.knownRid received = true ↔ UnseenAt start sent received := by
  have hlong := h.long
  have hwire : ImuDriver.crcWire received received.length = ImuDriver.crcWire sent sent.length := by
    rw [ImuDriver.crcWire, ImuDriver.crcWire, h.received_length, h.trailer_getD (Nat.le_refl _),
      h.trailer_getD (by omega : sent.length - 3 ≤ sent.length - 2)]
  have htailByte : received.getD (received.length - 1) 0 = sent.getD (sent.length - 1) 0 := by
    rw [h.received_length, h.trailer_getD (by omega : sent.length - 3 ≤ sent.length - 1)]
  simp only [Frame.ok, Frame.tailOk, Frame.crcOk, Bool.and_eq_true, beq_iff_eq] at hsent ⊢
  obtain ⟨⟨htail, hcrc⟩, -⟩ := hsent
  rw [htailByte, hwire, ← hcrc, ← h.getCrc16_eq_iff]
  constructor
  · rintro ⟨⟨-, hsame⟩, -⟩
    exact hsame.symm
  · intro hsame
    exact ⟨⟨htail, hsame.symm⟩, h.known⟩

end Garbled

namespace ImuDriver
variable {K : Type} [Field K] [LinearOrder K]

theorem parseFrame_accepts (io : Platform K) (d : ImuDriver K) (frame : List Byte) :
    (d.parseFrame io frame frame.length).1 = Frame.ok Frame.knownRid frame := by
  cases hok : Frame.ok Frame.knownRid frame with
  | true => rw [parseFrame_of_ok io d hok]
  | false => rw [parseFrame_of_not_ok io d hok]

/-- A burst changes the check value, and the driver refuses a frame with it, if and only if
it does not cancel itself: not where each of the first two bytes of the window, with what
is left of the one before, stays below 128 and the next one undoes it. -/
theorem bursts_detected (order : BitOrder) (start : ℕ) :
    (∀ sent received, sent ≠ received → Burst order start sent received →
      (getCrc16 sent sent.length ≠ getCrc16 received received.length ↔
        ¬UnseenAt start sent received)) ∧
    ∀ (io : Platform K) (d d' : ImuDriver K) (sent received : List Byte),
      Garbled order start sent received → (d.parseFrame io sent sent.length).1 = true →
      ((d'.parseFrame io received received.length).1 = false ↔ ¬UnseenAt start sent received) := by
  constructor
  · intro sent received _ hburst
    exact not_congr hburst.getCrc16_eq_iff
  · intro io d d' sent received hgarbled haccepted
    rw [parseFrame_accepts] at haccepted ⊢
    rw [← hgarbled.ok_iff haccepted]
    exact Bool.not_eq_true _ ▸ Iff.rfl

def accelFrame (a b : Byte) : List Byte :=
  [0x55, 0xAA, 0x01, 0x01, a, b, 0, 0, 0, 0, 0, 0, 0, 0, 0, 0, 0x1D, 0x7E, 0x0A]

theorem accelFrame_garbled (order : BitOrder) {a b : Byte} (h : accelFrame 0 0 ≠ accelFrame a b) :
    Garbled order 32 (accelFrame 0 0) (accelFrame a b) where
  length_eq := rfl
  covered := burst_of_bytes order [0x55, 0xAA, 0x01, 0x01] (List.replicate 10 0) 0 0 a b
  changed := h
  trailer := rfl
  header := ⟨rfl, rfl⟩
  known := rfl
  sameLength := rfl

def idle : ImuDriver ℚ := .new (.new false 1)

def rawBits : Platform ℚ := ⟨fun bits => bits.toNat, id, fun _ => 0⟩

theorem bursts_detected_accel :
    (idle.parseFrame rawBits (accelFrame 0x01 0) (accelFrame 0x01 0).length).1 = false := by
  have hgarbled := accelFrame_garbled .msbFirst (a := 0x01) (b := 0) (by decide)
  exact ((bursts_detected .msbFirst 32).2 rawBits idle idle _ _ hgarbled (by decide +kernel)).mpr
    (by decide)

/-- The driver takes a frame in which eight bits in a row are a burst. -/
theorem bursts_undetected :
    ¬ ((∀ (order : BitOrder) (start : ℕ) (sent received : List Byte), sent ≠ received →
        Burst order start sent received →
        getCrc16 sent sent.length ≠ getCrc16 received received.length) ∧
      ∀ (order : BitOrder) (start : ℕ) (io : Platform ℚ) (d d' : ImuDriver ℚ)
        (sent received : List Byte), Garbled order start sent received →
        (d.parseFrame io sent sent.length).1 = true →
        (d'.parseFrame io received received.length).1 = false) := by
  rintro ⟨-, h⟩
  have hgarbled := accelFrame_garbled .msbFirst (a := 0x01) (b := 0x12) (by decide)
  have hrefused := h _ _ rawBits idle idle _ _ hgarbled (by decide +kernel)
  revert hrefused
  decide +kernel

end ImuDriver
end MybipedalDeploy.Imu
