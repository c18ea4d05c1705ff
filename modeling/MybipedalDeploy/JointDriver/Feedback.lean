import MybipedalDeploy.JointDriver.Routing

/-!
# What the getters of a bus return

Feedback is stored raw and decoded at the next getter, so what the getters of an
actuator would say is a function of its receive slot and its cache.
-/

namespace MybipedalDeploy.JointDriver
namespace RobstrideMotor
variable {K : Type*} [Field K]

theorem readings_decodeFeedback {m m' : RobstrideMotor K} (htype : m.type = m'.type)
    (f : CanFrame) : (m.decodeFeedback f).readings = (m'.decodeFeedback f).readings := by
  simp only [readings, decodeFeedback, htype]

theorem readings_parse_mode (m : RobstrideMotor K) (mode : ActuatorMode) (f : CanFrame) :
    ({ m with currentMode := mode }.parseFeedback f).readings = (m.parseFeedback f).readings := by
  cases h : f.isFeedback <;> simp [parseFeedback, h, decodeFeedback, readings]

end RobstrideMotor

namespace CanBus

section Shown
variable {K : Type*} [Field K]

def shown (b : CanBus K) (id : CanId) : Readings K :=
  ((b.actuator id).val.parseFeedback (b.recvSlot id)).readings

theorem get_readings (b : CanBus K) (id : CanId) : (b.get id).2 = b.shown id := by
  simp [get, actuator_parse, shown]

/-- The receive slot holds feedback that no getter has decoded and that says something new. -/
def Unread (b : CanBus K) (id : CanId) : Prop :=
  (b.recvSlot id).isFeedback = true ∧
    ((b.actuator id).val.decodeFeedback (b.recvSlot id)).readings ≠ (b.actuator id).val.readings

theorem cached_eq_shown_iff (b : CanBus K) (id : CanId) :
    (b.actuator id).val.readings = b.shown id ↔ ¬ b.Unread id := by
  rw [shown, Unread]
  cases hslot : (b.recvSlot id).isFeedback with
  | false => simp [RobstrideMotor.parseFeedback_of_not _ hslot]
  | true => simp [RobstrideMotor.parseFeedback_of_feedback _ hslot, eq_comm]

theorem shown_storeFeedback (b : CanBus K) (id id' : CanId) (f : CanFrame) :
    (b.storeFeedback id f).shown id' =
      if id' = id then ((b.actuator id').val.parseFeedback f).readings else b.shown id' := by
  have hactuator : (b.storeFeedback id f).actuator = b.actuator := rfl
  simp only [shown, recvSlot_storeFeedback, hactuator]
  split_ifs <;> rfl

theorem shown_sendOnce (b : CanBus K) (id id' : CanId) (c : OneShot) :
    (b.sendOnce id c).1.shown id' = b.shown id' := by
  obtain ⟨mode, hmode⟩ := b.actuator_sendOnce id id' c
  simp only [shown, hmode, recvSlot_sendOnce, RobstrideMotor.readings_parse_mode]

theorem shown_parse (b : CanBus K) (id id' : CanId) : (b.parse id).shown id' = b.shown id' := by
  simp only [shown, actuator_parse, recvSlot_parse]
  split_ifs
  · rw [RobstrideMotor.parseFeedback_parseFeedback]
  · rfl

end Shown
end CanBus
end MybipedalDeploy.JointDriver
