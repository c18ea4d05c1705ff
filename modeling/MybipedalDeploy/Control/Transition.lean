import Mathlib.Algebra.Field.Rat
import Mathlib.Algebra.Order.Ring.Rat
import Mathlib.Order.Interval.Set.UnorderedInterval
import Mathlib.Tactic.FieldSimp
import MybipedalDeploy.Control.History

/-!
# The transition of a position controller

Runs of one position controller: `MainLoop` calls `Update` and then `GetJointCmdData` in
every cycle, and messages and restarts come between any two calls. A monitor notes the
angles the last restart captured, the calls since, and what was commanded last.
-/

namespace MybipedalDeploy.Control
open Runs (Run Along)

structure Course (K : Type*) where
  start : List K
  updates : ℕ
  commands : ℕ
  last : ℕ → K

structure Commanded (K : Type*) where
  start : List K
  commands : ℕ
  before : ℕ → K
  position : List K

structure Drive (K : Type*) where
  controller : PDController K
  updated : Bool
  course : Option (Course K)
  sent : List (Commanded K)

namespace PDController
variable {K : Type*} [Field K]

def way (s t p : K) : K := s * (1 - p) + t * p

theorem way_eq_iff {s t p q : K} : way s t p = s + q * (t - s) ↔ s = t ∨ p = q := by
  have hdiff : way s t p - (s + q * (t - s)) = (t - s) * (p - q) := by
    unfold way
    ring
  rw [← sub_eq_zero, hdiff, mul_eq_zero, sub_eq_zero, sub_eq_zero, eq_comm (a := t)]

@[simp] theorem way_self (s p : K) : way s s p = s := by
  unfold way
  ring

theorem way_sub_way (s t p q : K) : way s t q - way s t p = (q - p) * (t - s) := by
  unfold way
  ring

variable [LinearOrder K]

theorem ramp_eq_way (c : PDController K) (hkeep : c.isKeepController = false) (start : List K)
    (n ii : ℕ) :
    c.ramp start n ii = way (start.getD ii 0) (c.base.initState.getD ii 0) (percentAfter n) := by
  simp [ramp, way, hkeep]

theorem update_fixed (c : PDController K) :
    c.update.base = c.base ∧ c.update.isKeepController = c.isKeepController := by
  unfold update
  split_ifs
  · exact ⟨rfl, rfl⟩
  · exact ⟨rfl, rfl⟩

theorem percentAfter_le_one (n : ℕ) : percentAfter (K := K) n ≤ 1 := min_le_right _ _

variable [IsStrictOrderedRing K]

theorem ramp_zero (c : PDController K) (start : List K) (ii : ℕ) :
    c.ramp start 0 ii = start.getD ii 0 := by
  simp [ramp, percentAfter_zero]

theorem percentAfter_mono {m n : ℕ} (h : m ≤ n) : percentAfter (K := K) m ≤ percentAfter n := by
  have hcast : (m : K) ≤ n := Nat.cast_le.mpr h
  exact min_le_min_right 1 (div_le_div_of_nonneg_right hcast (by norm_num))

theorem percentAfter_of_le {n : ℕ} (h : 2000 ≤ n) : percentAfter (K := K) n = 1 := by
  have hcast : (2000 : K) ≤ n := by exact_mod_cast h
  exact min_eq_right ((one_le_div (by norm_num)).mpr hcast)

theorem percentAfter_of_lt {n : ℕ} (h : n < 2000) : percentAfter (K := K) n = n / 2000 := by
  have hcast : (n : K) < 2000 := by exact_mod_cast h
  exact min_eq_left ((div_le_one (by norm_num)).mpr hcast.le)

theorem percentAfter_succ_le (n : ℕ) :
    percentAfter (K := K) (n + 1) ≤ percentAfter n + 1 / 2000 := by
  rw [← percentAfter_succ]
  refine (min_le_left _ _).trans (add_le_add_right (le_of_eq ?_) _)
  simp only [transModeDurationS]
  norm_num

/-- The part of the way that is due after `n` cycles at `f` cycles a second. -/
def due (f n : ℕ) : K := min 1 (n / (transModeDurationS * f))

theorem due_pos {f n : ℕ} (hf : 0 < f) (hn : 0 < n) : 0 < due (K := K) f n := by
  have hfpos : (0 : K) < f := by exact_mod_cast hf
  have hnpos : (0 : K) < n := by exact_mod_cast hn
  refine lt_min one_pos ?_
  simp only [transModeDurationS]
  positivity

theorem due_of_le {f n : ℕ} (hf : 0 < f) (h : 2 * f ≤ n) : due (K := K) f n = 1 := by
  have hcast : (2 * f : K) ≤ n := by exact_mod_cast h
  have hpos : (0 : K) < 2 * f := by exact_mod_cast Nat.mul_pos two_pos hf
  exact min_eq_left ((one_le_div hpos).mpr hcast)

theorem due_of_lt {f n : ℕ} (h : n < 2 * f) : due (K := K) f n = n / (2 * f) := by
  have hcast : (n : K) < 2 * f := by exact_mod_cast h
  have hpos : (0 : K) < 2 * f := n.cast_nonneg.trans_lt hcast
  exact min_eq_right ((div_le_one hpos).mpr hcast.le)

theorem percentAfter_eq_due {f n : ℕ} (hf : 0 < f) (hn : 0 < n) :
    percentAfter (K := K) n = due f n ↔ f = 1000 ∨ 2000 ≤ n ∧ 2 * f ≤ n := by
  have hfpos : (0 : K) < f := by exact_mod_cast hf
  have hnpos : (0 : K) < n := by exact_mod_cast hn
  rcases le_or_gt 2000 n with hover | hover <;> rcases le_or_gt (2 * f) n with hdue | hdue
  · simp [percentAfter_of_le hover, due_of_le hf hdue, hover, hdue]
  · have hcast : (n : K) < 2 * f := by exact_mod_cast hdue
    have hlt : (n : K) / (2 * f) < 1 := (div_lt_one (by linarith)).mpr hcast
    rw [percentAfter_of_le hover, due_of_lt hdue]
    exact iff_of_false hlt.ne' (by omega)
  · have hcast : (n : K) < 2000 := by exact_mod_cast hover
    have hlt : (n : K) / 2000 < 1 := (div_lt_one (by norm_num)).mpr hcast
    rw [percentAfter_of_lt hover, due_of_le hf hdue]
    exact iff_of_false hlt.ne (by omega)
  · rw [percentAfter_of_lt hover, due_of_lt hdue, div_eq_div_iff (by norm_num) (by positivity),
      mul_right_inj' hnpos.ne']
    constructor
    · intro h
      have hcast : 2 * f = 2000 := by exact_mod_cast h
      omega
    · rintro (rfl | h)
      · norm_num
      · omega

theorem percentAfter_step {f n : ℕ} (hf : 0 < f) (h : f = 1000 ∨ 2000 ≤ n + 1 ∧ 2 * f ≤ n + 1) :
    percentAfter (K := K) (n + 1) - percentAfter n ≤ 1 / (transModeDurationS * f) := by
  have hstep := percentAfter_succ_le (K := K) n
  have hfpos : (0 : K) < f := by exact_mod_cast hf
  simp only [transModeDurationS]
  rcases le_or_gt f 1000 with hle | hgt
  · have hcast : (f : K) ≤ 1000 := by exact_mod_cast hle
    have hbound : (1 : K) / 2000 ≤ 1 / (2 * f) :=
      one_div_le_one_div_of_le (by linarith) (by linarith)
    linarith
  · -- the transition was over before
    have hover : 2000 ≤ n := by omega
    rw [percentAfter_of_le hover, percentAfter_of_le (by omega), sub_self]
    positivity

theorem way_mem_uIcc {s t p q : K} (hle : p ≤ q) (hone : q ≤ 1) :
    way s t q ∈ Set.uIcc (way s t p) t := by
  rw [Set.mem_uIcc]
  unfold way
  rcases le_total s t with hst | hst
  · have hback := mul_le_mul_of_nonneg_right hle (sub_nonneg.mpr hst)
    have hahead := mul_le_mul_of_nonneg_right hone (sub_nonneg.mpr hst)
    exact .inl ⟨by linarith, by linarith⟩
  · have hback := mul_le_mul_of_nonneg_right hle (sub_nonneg.mpr hst)
    have hahead := mul_le_mul_of_nonneg_right hone (sub_nonneg.mpr hst)
    exact .inr ⟨by linarith, by linarith⟩

end PDController

namespace Commanded
variable {K : Type*} [Field K] [LinearOrder K]

/-- The law for one joint: captured at `s`, to go to `t`, commanded `b` and now `x`. -/
structure OnTheWay (f n : ℕ) (s t b x : K) : Prop where
  law : x = s + PDController.due f n * (t - s)
  ahead : x ∈ Set.uIcc b t
  bounded : |x - b| ≤ |t - s| / (PDController.transModeDurationS * f)
  arrived : 2 * f ≤ n → x = t

theorem OnTheWay.of_eq [IsStrictOrderedRing K] (f n : ℕ) (s : K) : OnTheWay f n s s s s where
  law := by simp
  ahead := by simp
  bounded := by simp
  arrived := fun _ => rfl

theorem OnTheWay.of_onTime [IsStrictOrderedRing K] {f n : ℕ} (hf : 0 < f)
    (h : f = 1000 ∨ 2000 ≤ n + 1 ∧ 2 * f ≤ n + 1) (s t : K) :
    OnTheWay f (n + 1) s t (PDController.way s t (PDController.percentAfter n))
      (PDController.way s t (PDController.percentAfter (n + 1))) where
  law := PDController.way_eq_iff.mpr (.inr ((PDController.percentAfter_eq_due hf n.succ_pos).mpr h))
  ahead := PDController.way_mem_uIcc (PDController.percentAfter_mono n.le_succ)
    (PDController.percentAfter_le_one _)
  bounded := by
    have hmono := PDController.percentAfter_mono (K := K) n.le_succ
    have hstep := PDController.percentAfter_step (K := K) hf h
    rw [PDController.way_sub_way, abs_mul, abs_of_nonneg (sub_nonneg.mpr hmono),
      div_eq_mul_one_div, mul_comm]
    exact mul_le_mul_of_nonneg_left hstep (abs_nonneg _)
  arrived := by
    intro harrived
    have hover : 2000 ≤ n + 1 := by omega
    rw [PDController.percentAfter_of_le hover]
    simp [PDController.way]

/-- The command obeys the law for a controller made as `c` in cycles of frequency `f`. -/
def Lawful (f : ℕ) (c : PDController K) (k : Commanded K) : Prop :=
  ∀ ii < c.base.jointNames.length,
    if c.isKeepController then k.position.getD ii 0 = k.start.getD ii 0
    else OnTheWay f k.commands (k.start.getD ii 0) (c.base.initState.getD ii 0) (k.before ii)
      (k.position.getD ii 0)

end Commanded

namespace Drive
variable {K : Type*}

inductive Action (K : Type*)
  | message (msg : Message K)
  | restart
  | update
  | command

def boot (c : PDController K) : Drive K := ⟨c, false, none, []⟩

variable [Field K] [LinearOrder K]

def message (d : Drive K) (msg : Message K) : Drive K :=
  { d with controller := { d.controller with base := msg.store d.controller.base } }

def restart (d : Drive K) : Drive K :=
  { d with
    controller := d.controller.restartController
    course := some ⟨d.controller.base.jointStateData.position, 0, 0,
      fun ii => d.controller.base.jointStateData.position.getD ii 0⟩ }

def update (d : Drive K) : Drive K :=
  { d with
    controller := d.controller.update
    updated := true
    course := d.course.map fun r => { r with updates := r.updates + 1 } }

def command (d : Drive K) : Drive K :=
  let position := d.controller.getJointCmdData.position
  { d with
    updated := false
    course := d.course.map fun r =>
      { r with commands := r.commands + 1, last := fun ii => position.getD ii 0 }
    sent := d.sent ++ d.course.toList.map fun r => ⟨r.start, r.commands + 1, r.last, position⟩ }

def step (d : Drive K) : Action K → Option (Drive K)
  | .message msg => some (d.message msg)
  | .restart => some d.restart
  | .update => if d.updated then none else some d.update
  | .command => if d.updated then some d.command else none

/-- A command is due where the controller is: the loop runs at a thousand cycles a second
or the transition is over by both counts, and no restart fell into the cycle; or the
controller keeps its angles, or has no way to go. -/
def OnTime (f : ℕ) (c : PDController K) (d : Drive K) : Action K → Prop
  | .command => c.isKeepController = true ∨ ∀ r ∈ d.course, ∀ ii < c.base.jointNames.length,
      r.start.getD ii 0 = c.base.initState.getD ii 0 ∨
        r.updates = r.commands + 1 ∧
          (f = 1000 ∨ 2000 ≤ r.commands + 1 ∧ 2 * f ≤ r.commands + 1)
  | _ => True

def Lawful (f : ℕ) (c : PDController K) (d : Drive K) : Prop := ∀ k ∈ d.sent, k.Lawful f c

def Missed (d : Drive K) (r : Course K) : Prop :=
  ∃ k ∈ d.sent, k.start = r.start ∧ k.commands = 1 ∧
    ∀ ii < d.controller.base.jointNames.length, k.position.getD ii 0 = r.start.getD ii 0

structure Following (d : Drive K) (r : Course K) : Prop where
  ramping : d.controller.Ramping r.start r.updates
  last : ∃ v, (∀ ii < d.controller.base.jointNames.length,
      r.last ii = d.controller.ramp r.start v ii) ∧
    if d.updated then r.updates = v + 1 ∨ r.updates = 0 ∧ v = 0 else r.updates = v
  counted : d.Missed r ∨
    if d.updated then r.updates = r.commands + 1 ∨ r.updates = 0 ∧ r.commands = 0
    else r.updates = r.commands

structure Inv (c : PDController K) (d : Drive K) : Prop where
  names : d.controller.base.jointNames = c.base.jointNames
  target : d.controller.base.initState = c.base.initState
  keep : d.controller.isKeepController = c.isKeepController
  course : ∀ r ∈ d.course, d.Following r

theorem step_cases {d e : Drive K} {a : Action K} (he : d.step a = some e) :
    (∃ msg, a = .message msg ∧ e = d.message msg) ∨ (a = .restart ∧ e = d.restart) ∨
      (a = .update ∧ d.updated = false ∧ e = d.update) ∨
      (a = .command ∧ d.updated = true ∧ e = d.command) := by
  cases a with
  | message msg => exact .inl ⟨msg, rfl, (Option.some.inj he).symm⟩
  | restart => exact .inr (.inl ⟨rfl, (Option.some.inj he).symm⟩)
  | update =>
    simp only [step] at he
    split_ifs at he with hupdated
    exact .inr (.inr (.inl ⟨rfl, Bool.eq_false_of_not_eq_true hupdated, (Option.some.inj he).symm⟩))
  | command =>
    simp only [step] at he
    split_ifs at he with hupdated
    exact .inr (.inr (.inr ⟨rfl, hupdated, (Option.some.inj he).symm⟩))

theorem inv_boot (c : PDController K) : (boot c).Inv c := ⟨rfl, rfl, rfl, by simp [boot]⟩

theorem Following.of_ramp {d e : Drive K} {r : Course K} (h : d.Following r)
    (hramping : e.controller.Ramping r.start r.updates) (hupdated : e.updated = d.updated)
    (hsent : e.sent = d.sent)
    (hkeep : e.controller.isKeepController = d.controller.isKeepController)
    (hnames : e.controller.base.jointNames = d.controller.base.jointNames)
    (htarget : e.controller.base.initState = d.controller.base.initState) : e.Following r := by
  refine ⟨hramping, ?_, ?_⟩
  · simpa only [PDController.ramp, hkeep, hnames, htarget, hupdated] using h.last
  · simpa only [Missed, hnames, hsent, hupdated] using h.counted

theorem Inv.message {c : PDController K} {d : Drive K} (h : d.Inv c) (msg : Message K) :
    (d.message msg).Inv c := by
  obtain ⟨joy, imu, data, hstore⟩ := Message.store_eq d.controller.base msg
  have hnames : (d.message msg).controller.base.jointNames = d.controller.base.jointNames := by
    simp only [Drive.message, hstore]
  have htarget : (d.message msg).controller.base.initState = d.controller.base.initState := by
    simp only [Drive.message, hstore]
  refine ⟨hnames.trans h.names, htarget.trans h.target, h.keep, fun r hr => ?_⟩
  have hfollow := h.course r hr
  exact hfollow.of_ramp hfollow.ramping rfl rfl rfl hnames htarget

theorem Following.position {d : Drive K} {r : Course K} (h : d.Following r) {ii : ℕ}
    (hii : ii < d.controller.base.jointNames.length) :
    d.controller.getJointCmdData.position.getD ii 0 = d.controller.ramp r.start r.updates ii := by
  rw [h.ramping.position]
  simp [List.getD_eq_getElem?_getD, hii]

variable [IsStrictOrderedRing K]

theorem Inv.restart {c : PDController K} {d : Drive K} (h : d.Inv c) : d.restart.Inv c := by
  refine ⟨h.names, h.target, h.keep, fun r hr => ?_⟩
  obtain rfl := Option.some.inj hr
  refine ⟨d.controller.restartController_ramping,
    ⟨0, fun ii _ => (PDController.ramp_zero _ _ ii).symm, ?_⟩, .inr ?_⟩
  · split_ifs
    · exact .inr ⟨rfl, rfl⟩
    · rfl
  · split_ifs
    · exact .inr ⟨rfl, rfl⟩
    · rfl

theorem Inv.update {c : PDController K} {d : Drive K} (h : d.Inv c) (hidle : d.updated = false) :
    d.update.Inv c := by
  obtain ⟨hbase, hkeep⟩ := d.controller.update_fixed
  have hnames : d.update.controller.base.jointNames = d.controller.base.jointNames :=
    congrArg ControllerBase.jointNames hbase
  have htarget : d.update.controller.base.initState = d.controller.base.initState :=
    congrArg ControllerBase.initState hbase
  refine ⟨hnames.trans h.names, htarget.trans h.target, hkeep.trans h.keep, fun r hr => ?_⟩
  obtain ⟨r, hcourse, rfl⟩ := Option.map_eq_some_iff.mp hr
  have hfollow := h.course r hcourse
  obtain ⟨v, hv, hcount⟩ := hfollow.last
  rw [hidle] at hcount
  refine ⟨hfollow.ramping.update, ⟨v, fun ii hii => ?_, .inl (congrArg (· + 1) hcount)⟩, ?_⟩
  · rw [hnames] at hii
    refine (hv ii hii).trans ?_
    simp only [PDController.ramp, Drive.update, hkeep, hbase]
  · refine hfollow.counted.imp (fun hmissed => ?_) fun hcounted => ?_
    · obtain ⟨k, hk, hstart, hfirst, hposition⟩ := hmissed
      exact ⟨k, hk, hstart, hfirst, fun ii hii => hposition ii (hnames ▸ hii)⟩
    · rw [hidle] at hcounted
      exact .inl (congrArg (· + 1) hcounted)

theorem Inv.command {c : PDController K} {d : Drive K} (h : d.Inv c) (hupdated : d.updated = true) :
    d.command.Inv c := by
  refine ⟨h.names, h.target, h.keep, fun r hr => ?_⟩
  obtain ⟨r, hcourse, rfl⟩ := Option.map_eq_some_iff.mp hr
  have hfollow := h.course r hcourse
  have hsent : d.command.sent =
      d.sent ++ [⟨r.start, r.commands + 1, r.last, d.controller.getJointCmdData.position⟩] := by
    simp [Drive.command, hcourse]
  refine ⟨hfollow.ramping, ⟨r.updates, fun ii hii => hfollow.position hii, rfl⟩, ?_⟩
  have hcounted := hfollow.counted
  rw [hupdated] at hcounted
  rcases hcounted with ⟨k, hk, hmissed⟩ | hcounted | ⟨hupdates, hcommands⟩
  · exact .inl ⟨k, by simp [hsent, hk], hmissed⟩
  · exact .inr hcounted
  · -- the restart fell between the update and this command
    refine .inl ⟨⟨r.start, r.commands + 1, r.last, d.controller.getJointCmdData.position⟩,
      by simp [hsent], rfl, by simp [hcommands], fun ii hii => ?_⟩
    refine (hfollow.position hii).trans ?_
    rw [hupdates, PDController.ramp_zero]

theorem Missed.start_eq {c : PDController K} {d : Drive K} {r : Course K} {f : ℕ} (hf : 0 < f)
    (h : d.Inv c) (hmissed : d.Missed r) (hlawful : d.Lawful f c)
    (hkeep : c.isKeepController = false) {ii : ℕ} (hii : ii < c.base.jointNames.length) :
    r.start.getD ii 0 = c.base.initState.getD ii 0 := by
  obtain ⟨k, hk, hstart, hfirst, hposition⟩ := hmissed
  have hlaw := hlawful k hk ii hii
  rw [hkeep, if_neg (by simp), hposition ii (h.names ▸ hii), hstart, hfirst] at hlaw
  have hzero := hlaw.law
  -- a part of the way was due
  have hdue : 0 < PDController.due (K := K) f 1 := PDController.due_pos hf one_pos
  have hway : PDController.due f 1 * (c.base.initState.getD ii 0 - r.start.getD ii 0) = 0 := by
    linarith
  exact (sub_eq_zero.mp ((mul_eq_zero.mp hway).resolve_left hdue.ne')).symm

theorem onTheWay_iff {c : PDController K} {d : Drive K} {r : Course K} {f : ℕ} (hf : 0 < f)
    (h : d.Inv c) (hr : r ∈ d.course) (hupdated : d.updated = true) (hlawful : d.Lawful f c)
    (hkeep : c.isKeepController = false) {ii : ℕ} (hii : ii < c.base.jointNames.length) :
    Commanded.OnTheWay f (r.commands + 1) (r.start.getD ii 0) (c.base.initState.getD ii 0)
        (r.last ii) (d.controller.getJointCmdData.position.getD ii 0) ↔
      r.start.getD ii 0 = c.base.initState.getD ii 0 ∨
        r.updates = r.commands + 1 ∧
          (f = 1000 ∨ 2000 ≤ r.commands + 1 ∧ 2 * f ≤ r.commands + 1) := by
  have hfollow := h.course r hr
  have hdkeep : d.controller.isKeepController = false := h.keep.trans hkeep
  obtain ⟨v, hlast, hcount⟩ := hfollow.last
  have hii' : ii < d.controller.base.jointNames.length := h.names ▸ hii
  rw [hlast ii hii', hfollow.position hii', PDController.ramp_eq_way _ hdkeep,
    PDController.ramp_eq_way _ hdkeep, h.target]
  constructor
  · intro hway
    rcases PDController.way_eq_iff.mp hway.law with heq | hpercent
    · exact .inl heq
    · have hcounted := hfollow.counted
      rw [hupdated] at hcounted
      rcases hcounted with hmissed | hcounted | ⟨hupdates, hcommands⟩
      · exact .inl (hmissed.start_eq hf h hlawful hkeep hii)
      · rw [hcounted] at hpercent
        exact .inr ⟨hcounted, (PDController.percentAfter_eq_due hf (Nat.succ_pos _)).mp hpercent⟩
      · -- a way of length zero is not due at the first command
        rw [hupdates, hcommands, PDController.percentAfter_zero] at hpercent
        exact absurd hpercent (PDController.due_pos hf one_pos).ne
  · rintro (heq | ⟨hupdates, htime⟩)
    · rw [heq, PDController.way_self, PDController.way_self]
      exact .of_eq _ _ _
    · rw [hupdated] at hcount
      obtain rfl : v = r.commands := by
        rcases hcount with hv | ⟨hv, -⟩ <;> omega
      rw [hupdates]
      exact .of_onTime hf htime _ _

theorem lawful_command_iff {c : PDController K} {d : Drive K} {f : ℕ} (hf : 0 < f) (h : d.Inv c)
    (hupdated : d.updated = true) (hlawful : d.Lawful f c) :
    d.command.Lawful f c ↔ d.OnTime f c .command := by
  have hsplit : d.command.Lawful f c ↔ ∀ r ∈ d.course, Commanded.Lawful f c
      ⟨r.start, r.commands + 1, r.last, d.controller.getJointCmdData.position⟩ := by
    simp only [Lawful, Drive.command, List.mem_append, or_imp, forall_and, List.mem_map,
      forall_exists_index, and_imp, forall_apply_eq_imp_iff₂, Option.mem_toList]
    exact and_iff_right hlawful
  rw [hsplit, OnTime]
  cases hkeep : c.isKeepController with
  | true =>
    refine iff_of_true (fun r hr ii hii => ?_) (.inl rfl)
    rw [hkeep, if_pos rfl]
    refine ((h.course r hr).position (h.names ▸ hii)).trans ?_
    simp [PDController.ramp, h.keep, hkeep]
  | false =>
    simp only [Commanded.Lawful, hkeep, Bool.false_eq_true, if_false, false_or]
    refine forall₄_congr fun r hr ii hii => ?_
    exact onTheWay_iff hf h hr hupdated hlawful hkeep hii

theorem inv_step {c : PDController K} {d e : Drive K} {a : Action K} (h : d.Inv c)
    (he : d.step a = some e) : e.Inv c := by
  obtain ⟨msg, -, rfl⟩ | ⟨-, rfl⟩ | ⟨-, hidle, rfl⟩ | ⟨-, hupdated, rfl⟩ := step_cases he
  · exact h.message msg
  · exact h.restart
  · exact h.update hidle
  · exact h.command hupdated

theorem lawful_step_iff {c : PDController K} {d e : Drive K} {a : Action K} {f : ℕ} (hf : 0 < f)
    (h : d.Inv c) (he : d.step a = some e) : e.Lawful f c ↔ d.Lawful f c ∧ d.OnTime f c a := by
  obtain ⟨msg, rfl, rfl⟩ | ⟨rfl, rfl⟩ | ⟨rfl, -, rfl⟩ | ⟨rfl, hupdated, rfl⟩ := step_cases he
  · exact (and_iff_left trivial).symm
  · exact (and_iff_left trivial).symm
  · exact (and_iff_left trivial).symm
  · constructor
    · intro hlawful
      have hbefore : d.Lawful f c := fun k hk => hlawful k (List.mem_append_left _ hk)
      exact ⟨hbefore, (lawful_command_iff hf h hupdated hbefore).mp hlawful⟩
    · rintro ⟨hbefore, htime⟩
      exact (lawful_command_iff hf h hupdated hbefore).mpr htime

/-- The commands of a run obey the law exactly if each was due where the
controller stood. -/
theorem transition_iff (c : PDController K) {f : ℕ} (hf : 0 < f) {as : List (Action K)}
    {d : Drive K} (h : Run step (boot c) as d) :
    d.Lawful f c ↔ Along step (fun d a => d.OnTime f c a) (boot c) as := by
  refine h.iff_along (fun d a => d.OnTime f c a) (Lawful f c) (by simp [Lawful, boot]) ?_
  intro p s a t hr ht
  have hinv : s.Inv c := hr.invariant (Inv c) (inv_boot c) fun _ _ _ h ht => inv_step h ht
  exact lawful_step_iff hf hinv ht

def knee : PDController ℚ := .new (.new ["knee"] [1] [80] [2]) false

theorem knee_run :
    Run step (boot knee) [.restart, .update, .command] (boot knee).restart.update.command :=
  Runs.run_of_exec _ rfl

theorem knee_transition :
    (boot knee).restart.update.command.Lawful 1000 knee ↔
      Along step (fun d a => d.OnTime 1000 knee a) (boot knee) [.restart, .update, .command] :=
  transition_iff knee (by norm_num) knee_run

/-- At five hundred cycles a second the first command is half of what is due. -/
theorem knee_late : ¬ ∀ (c : PDController ℚ) (f : ℕ) (as : List (Action ℚ)) (d : Drive ℚ), 0 < f →
    Run step (boot c) as d → d.Lawful f c := by
  intro hall
  have hlawful := hall knee 500 _ _ (by norm_num) knee_run
  have hlaw := Commanded.OnTheWay.law (hlawful _ (List.Mem.head _) 0 (by decide))
  have hfirst : ((boot knee).restart.update.controller.getJointCmdData.position).getD 0 0 =
      1 / 2000 := by
    decide +kernel
  rw [hfirst] at hlaw
  norm_num [PDController.due, PDController.transModeDurationS, knee, PDController.new,
    ControllerBase.new, zeros, boot] at hlaw

end Drive
end MybipedalDeploy.Control
