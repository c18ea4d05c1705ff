import MybipedalDeploy.Control.Envelope
import MybipedalDeploy.Sim.ClosedLoop

/-!
# The torques of the closed loop

The commands stay within the envelope that the measured positions allow, and the motors add
a proportional and a damping term to nothing. While the simulated joints stay within
positions and velocities that are given, so do the torques within what follows of these and
of the gains.
-/

namespace MybipedalDeploy.Sim
open Control (CommandWithin Config ControlModule ControllerNode Cycling Platform largest)
open Msg (JointCommand JointState)
open Runs (Run)

/-- The simulated joints, `n` of them, are within `Q` and no faster than `V`. -/
structure Data.Within (Q V : ℝ) (n : ℕ) (d : Data ℝ) : Prop where
  position : ∀ i < n, |d.qpos.getD (i + 7) 0| ≤ Q
  velocity : ∀ i < n, |d.qvel.getD (i + 6) 0| ≤ V

noncomputable def stiffest (nodes : List (ControllerNode ℝ)) : ℝ := largest (nodes.flatMap (·.stiffness))

noncomputable def mostDamped (nodes : List (ControllerNode ℝ)) : ℝ := largest (nodes.flatMap (·.damping))

noncomputable def torqueBound (conf : Config ℝ) (Q V : ℝ) : ℝ :=
  (conf.reach Q + Q) * stiffest (conf.controllers.map Prod.snd) +
    V * mostDamped (conf.controllers.map Prod.snd)

section Torque
variable {nodes : List (ControllerNode ℝ)} {cmd : JointCommand ℝ} {R Q V : ℝ}

theorem abs_le_largest_flatMap {f : ControllerNode ℝ → List ℝ} {x : ℝ}
    (h : x = 0 ∨ ∃ node ∈ nodes, x ∈ f node) : |x| ≤ largest (nodes.flatMap f) := by
  obtain rfl | ⟨node, hnode, hx⟩ := h
  · rw [abs_zero]
    exact Control.largest_nonneg _
  · exact Control.abs_le_largest (List.mem_flatMap.mpr ⟨node, hnode, hx⟩)

theorem abs_demand_le (hcmd : CommandWithin nodes R cmd) (hR : 0 ≤ R) (scene : Scene ℝ)
    (index : ℤ) {ii : ℕ} (hq : |scene.qpos.getD (ii + 7) 0| ≤ Q)
    (hdq : |scene.qvel.getD (ii + 6) 0| ≤ V) :
    |demand scene (.read cmd index) ii| ≤ (R + Q) * stiffest nodes + V * mostDamped nodes := by
  have hposition : |Control.readAt cmd.position index| ≤ R :=
    Control.readAt_of_forall (P := fun x => |x| ≤ R) hcmd.position (by rwa [abs_zero]) index
  have hvelocity : Control.readAt cmd.velocity index = 0 :=
    Control.readAt_of_forall hcmd.velocity rfl index
  have heffort : Control.readAt cmd.effort index = 0 :=
    Control.readAt_of_forall hcmd.effort rfl index
  have hstiffness : |Control.readAt cmd.stiffness index| ≤ stiffest nodes :=
    abs_le_largest_flatMap (Control.readAt_of_forall hcmd.stiffness (.inl rfl) index)
  have hdamping : |Control.readAt cmd.damping index| ≤ mostDamped nodes :=
    abs_le_largest_flatMap (Control.readAt_of_forall hcmd.damping (.inl rfl) index)
  have hspring : |(Control.readAt cmd.position index - scene.qpos.getD (ii + 7) 0) *
      Control.readAt cmd.stiffness index| ≤ (R + Q) * stiffest nodes := by
    rw [abs_mul]
    have hsum := (abs_sub _ _).trans (add_le_add hposition hq)
    exact mul_le_mul hsum hstiffness (abs_nonneg _) ((abs_nonneg _).trans hsum)
  have hbrake : |(0 - scene.qvel.getD (ii + 6) 0) * Control.readAt cmd.damping index| ≤
      V * mostDamped nodes := by
    rw [abs_mul, zero_sub, abs_neg]
    exact mul_le_mul hdq hdamping (abs_nonneg _) ((abs_nonneg _).trans hdq)
  simp only [demand, Target.torque, Target.read, hvelocity, heffort, zero_add]
  exact (abs_add_le _ _).trans (add_le_add hspring hbrake)

theorem abs_motorTorque_le (hcmd : CommandWithin nodes R cmd) (hR : 0 ≤ R) {scene : Scene ℝ}
    {m : Motors ℝ} (math : Mathematics ℝ) (hstd : scene.ctrlNoiseStd = 0)
    (hq : ∀ i < m.jointNames.length, |scene.qpos.getD (i + 7) 0| ≤ Q)
    (hdq : ∀ i < m.jointNames.length, |scene.qvel.getD (i + 6) 0| ≤ V) :
    ∀ τ ∈ (m.writeMotorCmd math scene cmd).motorTorque,
      |τ| ≤ (R + Q) * stiffest nodes + V * mostDamped nodes := by
  intro τ hτ
  rw [Motors.writeMotorCmd_motorTorque, Motors.writeMotorCmd_targets] at hτ
  obtain ⟨ii, hii, rfl⟩ := List.mem_mapIdx.mp hτ
  rw [List.length_map] at hii
  rw [List.getElem_map, Motors.quiet_of_std hstd ii hii, add_zero]
  exact abs_demand_le hcmd hR scene _ (hq ii hii) (hdq ii hii)

end Torque
namespace ClosedLoop
variable {conf : Config ℝ} {Q V : ℝ} {names : List String} {s t : ClosedLoop ℝ}

/-- The physics keeps the joints within the limits, and the noise is off. -/
def Tame (Q V : ℝ) (n : ℕ) : Action ℝ → Prop
  | .cmdCallback _ call => call.next.Within Q V n ∧ call.ctrlNoiseStd = 0
  | _ => True

structure Bounded (conf : Config ℝ) (Q V : ℝ) (names : List String) (s : ClosedLoop ℝ) : Prop where
  control : s.control.Contained conf Q
  sameNames : s.simulation.motors.jointNames = names
  data : s.simulation.data.Within Q V names.length
  sensed : ∀ d ∈ s.driven, ∀ x ∈ d.jointState.position, |x| ≤ Q
  torque : ∀ τ ∈ s.simulation.motors.motorTorque, |τ| ≤ torqueBound conf Q V

theorem torqueBound_nonneg (hQ : 0 ≤ Q) (hV : 0 ≤ V) (conf : Config ℝ) : 0 ≤ torqueBound conf Q V :=
  add_nonneg (mul_nonneg (add_nonneg (ControlModule.reach_nonneg conf Q) hQ) (Control.largest_nonneg _))
    (mul_nonneg hV (Control.largest_nonneg _))

theorem abs_sensed_le {d : Data ℝ} (h : d.Within Q V names.length) :
    ∀ x ∈ (readSensorData d names).2.position, |x| ≤ Q := by
  intro x hx
  obtain ⟨i, hi, rfl⟩ := List.mem_map.mp hx
  exact h.position i (List.mem_range.mp hi)

theorem Bounded.measured (h : s.Bounded conf Q V names) {a : Action ℝ} {b : Cycling.Action ℝ}
    (hb : s.deliver a = some b) : Cycling.MeasuredWithin Q b := by
  cases b with
  | callback c =>
    cases c with
    | jointState msg =>
      obtain ⟨d, hd, rfl⟩ := jointState_of_deliver hb
      exact h.sensed d hd
    | _ => trivial
  | _ => trivial

theorem Bounded.drive (h : s.Bounded conf Q V names) (math : Mathematics ℝ) (i : ℕ)
    {c : Control.Cycle ℝ} (hc : c ∈ s.control.cycles) {call : Call ℝ}
    (hnext : call.next.Within Q V names.length) (hstd : call.ctrlNoiseStd = 0) :
    (s.drive math i call c.published).Bounded conf Q V names := by
  obtain heq | heq := drive_cases s math i call c.published
  · rw [heq]
    exact h
  · rw [heq]
    refine ⟨h.control, ?_, hnext, fun d hd => ?_, ?_⟩
    · exact (Motors.writeMotorCmd_jointNames math _ _ _).trans h.sameNames
    · rcases List.mem_append.mp hd with hd | hd
      · exact h.sensed d hd
      · rw [List.mem_singleton.mp hd, h.sameNames]
        exact abs_sensed_le hnext
    · refine abs_motorTorque_le (h.control.published c hc) (ControlModule.reach_nonneg conf Q) math hstd ?_ ?_
      · rw [h.sameNames]
        exact h.data.position
      · rw [h.sameNames]
        exact h.data.velocity

theorem Bounded.step {io : Platform ℝ} {math : Mathematics ℝ} (h : s.Bounded conf Q V names)
    (hQ : 0 ≤ Q) (htuned : ∀ e ∈ conf.controllers, ∀ walk, e.2.walk = some walk → walk.Tuned)
    {a : Action ℝ} (ha : Tame Q V names.length a) (hstep : s.step io math a = some t) :
    t.Bounded conf Q V names := by
  obtain ⟨b, u, hb, hu, rfl⟩ | ⟨i, call, c, rfl, hc, rfl⟩ | rfl := step_cases hstep
  · exact ⟨h.control.step hQ htuned (h.measured hb) hu, h.sameNames, h.data, h.sensed, h.torque⟩
  · exact h.drive math i (List.mem_of_getElem? hc) ha.1 ha.2
  · exact ⟨h.control, h.sameNames, h.data, h.sensed, h.torque⟩

theorem bounded_boot {firstEntry : List String → ℕ} {now : ℤ} {m : ControlModule ℝ}
    (hm : ControlModule.initializeModule firstEntry now conf = some m)
    (htuned : ∀ e ∈ conf.controllers, ∀ walk, e.2.walk = some walk → walk.Tuned) (hQ : 0 ≤ Q)
    (hV : 0 ≤ V) {joints : List (JointType × String)} {d : Data ℝ}
    (hd : d.Within Q V (startJointNames joints).length) (nu : ℕ) :
    (boot m joints nu d).Bounded conf Q V (startJointNames joints) where
  control := ⟨ControlModule.contained_at_start hQ htuned hm, fun c hc => nomatch hc⟩
  sameNames := rfl
  data := hd
  sensed e he := by simp [boot] at he
  torque τ hτ := by
    rw [List.eq_of_mem_replicate hτ, abs_zero]
    exact torqueBound_nonneg hQ hV conf

section Pacing
open Control.Cycling (pacer pacing_initializes pacingConfig)

def pacingJoints : List (JointType × String) := [(.free, "root"), (.hinge, "knee")]

def bent : Data ℝ := ⟨List.replicate 7 0 ++ [1], List.replicate 7 0, List.replicate 7 0, []⟩

def pacingCall : Call ℝ := ⟨4000000000, 1, 0, 0, fun _ => 0, bent⟩

noncomputable def realMath : Mathematics ℝ := ⟨Real.exp, Real.sqrt, (((10 : ℕ) : ℝ) ^ 15)⁻¹⟩

def simulatedPace : List (Action ℝ) :=
  [.wake ["rl_walk"], .loop, .loop, .loop, .cmdCallback 0 pacingCall, .jointState 0]

theorem simulatedPace_runs : (Runs.exec (step Platform.real realMath)
    (boot pacer pacingJoints 1 bent) simulatedPace).isSome = true := by
  decide +kernel

theorem bent_within : bent.Within 1 1 (startJointNames pacingJoints).length := by
  have hlength : (startJointNames pacingJoints).length = 1 := by decide
  rw [hlength]
  constructor <;> intro i hi <;> obtain rfl : i = 0 := by omega
  · simp [bent]
  · simp [bent]

end Pacing
end ClosedLoop
end MybipedalDeploy.Sim
