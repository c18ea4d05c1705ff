import Mathlib.Algebra.Field.Rat
import Mathlib.Algebra.Order.Ring.Rat
import Mathlib.Data.List.TakeWhile
import MybipedalDeploy.Imu.ImuFrameFix
import MybipedalDeploy.Library.Runs

/-!
# The publish loop against the shutdown

`PublishLoop` tests `is_running_` once per iteration; `Shutdown` clears the flag and
resets `imu_` without waiting for the loop to see it. Whether the loop gets through
depends on the steps it takes in between.
-/

namespace MybipedalDeploy.Imu
open Runs (Run)

/-- Where the publish thread stands; `crashed` is `getObs` on a null pointer. -/
inductive LoopPhase (K : Type)
  | test
  | getObs
  | publish (msg : Msg.Imu K)
  | sleep
  | ended
  | crashed
  deriving DecidableEq

inductive ShutdownPhase
  | uncalled
  | testImu
  | clearCallback
  | closeImu
  | resetImu
  | leave
  | returned
  deriving DecidableEq

structure ImuModule (K : Type) where
  isRunning : Bool
  imu : Option (ImuDriver K)
  frameFix : ImuFrameFix K
  published : List (Msg.Imu K)
  loop : LoopPhase K
  shutdown : ShutdownPhase

namespace ImuModule
variable {K : Type}

inductive Action
  | loop
  | shutdown
  | receive (chunk : List Byte)
  deriving DecidableEq

def started (d : ImuDriver K) (fix : ImuFrameFix K) : ImuModule K :=
  ⟨true, some d, fix, [], .test, .uncalled⟩

def remaining : LoopPhase K → ℕ
  | .getObs => 4
  | .publish _ => 3
  | .sleep => 2
  | .test => 1
  | .ended | .crashed => 0

def position : ShutdownPhase → ℕ
  | .uncalled => 0
  | .testImu => 1
  | .clearCallback => 2
  | .closeImu => 3
  | .resetImu => 4
  | .leave => 5
  | .returned => 6

def clearObsCallback (d : ImuDriver K) : ImuDriver K :=
  { d with sensor := { d.sensor with hasObsCb := false, cbEveryN := 1 } }

/-- No null pointer was used, and the thread does not outlive the shutdown. -/
def Safe (m : ImuModule K) : Prop :=
  m.loop ≠ .crashed ∧ (m.shutdown = .returned → m.loop = .ended)

/-- The steps taken since the flag was cleared, when the thread stood at `φ`: an
admitted `getObs` comes before the reset, and the thread takes the steps it has left
before `Shutdown` takes its last. -/
def InTurn (φ : LoopPhase K) (taken : List Action) : Action → Prop
  | .loop => φ = .getObs → taken.count .loop = 0 → taken.count .shutdown < 4
  | .shutdown => taken.count .shutdown = 4 → remaining φ ≤ taken.count .loop
  | .receive _ => True

def InTime (φ : LoopPhase K) (as : List Action) : Prop :=
  ∀ p a q, as = p ++ a :: q → InTurn φ p a

instance (φ : LoopPhase K) (taken : List Action) (a : Action) [DecidableEq (LoopPhase K)] :
    Decidable (InTurn φ taken a) := by
  unfold InTurn
  split <;> infer_instance

theorem inTime_iff (φ : LoopPhase K) (as : List Action) :
    (∀ i : Fin as.length, InTurn φ (as.take i) as[i]) ↔ InTime φ as := by
  constructor
  · rintro hturn p a q rfl
    simpa using hturn ⟨p.length, by simp⟩
  · intro htime i
    exact htime _ _ (as.drop (i + 1)) (by simp)

instance (φ : LoopPhase K) (as : List Action) [DecidableEq (LoopPhase K)] :
    Decidable (InTime φ as) :=
  decidable_of_iff _ (inTime_iff φ as)

structure Running (m : ImuModule K) : Prop where
  flag : m.isRunning = true
  driver : m.imu.isSome = true
  uncalled : m.shutdown = .uncalled
  alive : m.loop ≠ .ended
  safe : m.loop ≠ .crashed

structure Stopping (φ : LoopPhase K) (taken : List Action) (m : ImuModule K) : Prop where
  flag : m.isRunning = false
  driver : m.imu.isSome = true ↔ taken.count .shutdown < 4
  shutdown : position m.shutdown = taken.count .shutdown + 1
  loop : remaining m.loop + taken.count .loop = remaining φ

@[simp] theorem remaining_getObs : remaining (K := K) .getObs = 4 := rfl

theorem remaining_le (φ : LoopPhase K) : remaining φ ≤ 4 := by
  cases φ <;> simp [remaining]

theorem getObs_of_remaining {φ : LoopPhase K} (h : remaining φ = 4) : φ = .getObs := by
  cases φ with
  | getObs => rfl
  | _ => simp [remaining] at h

theorem Running.isSafe {m : ImuModule K} (h : m.Running) : m.Safe := by
  refine ⟨h.safe, fun hreturned => ?_⟩
  rw [h.uncalled] at hreturned
  cases hreturned

section Stopping
variable {φ : LoopPhase K} {taken : List Action} {m t : ImuModule K}

theorem Stopping.getObs_iff (h : Stopping φ taken m) :
    m.loop = .getObs ↔ φ = .getObs ∧ taken.count Action.loop = 0 := by
  have hloop := h.loop
  constructor
  · intro hget
    have hle := remaining_le φ
    rw [hget, remaining_getObs] at hloop
    exact ⟨getObs_of_remaining (by omega), by omega⟩
  · rintro ⟨rfl, hcount⟩
    exact getObs_of_remaining (by simpa only [hcount, remaining_getObs, Nat.add_zero] using hloop)

theorem Stopping.of_loop (h : Stopping φ taken m) (hflag : t.isRunning = m.isRunning)
    (himu : t.imu = m.imu) (hshutdown : t.shutdown = m.shutdown)
    (hloop : remaining t.loop + 1 = remaining m.loop) : Stopping φ (taken ++ [.loop]) t := by
  have hcount : (taken ++ [Action.loop]).count .loop = taken.count .loop + 1 := by simp
  have hsame : (taken ++ [Action.loop]).count .shutdown = taken.count .shutdown := by simp
  refine ⟨hflag ▸ h.flag, ?_, ?_, ?_⟩
  · rw [himu, hsame]
    exact h.driver
  · rw [hshutdown, hsame]
    exact h.shutdown
  · have hleft := h.loop
    omega

theorem Stopping.of_shutdown (h : Stopping φ taken m) (hflag : t.isRunning = m.isRunning)
    (himu : t.imu.isSome = true ↔ m.imu.isSome = true ∧ position m.shutdown ≠ 4)
    (hshutdown : position t.shutdown = position m.shutdown + 1) (hloop : t.loop = m.loop) :
    Stopping φ (taken ++ [.shutdown]) t := by
  have hcount : (taken ++ [Action.shutdown]).count .shutdown = taken.count .shutdown + 1 := by simp
  have hsame : (taken ++ [Action.shutdown]).count .loop = taken.count .loop := by simp
  have hposition := h.shutdown
  refine ⟨hflag ▸ h.flag, ?_, ?_, ?_⟩
  · rw [himu, h.driver, hcount]
    omega
  · omega
  · rw [hloop, hsame]
    exact h.loop

theorem Safe.of_loop (hm : m.Safe) (halive : m.loop ≠ .ended) (hshutdown : t.shutdown = m.shutdown)
    (ht : t.loop ≠ .crashed) : t.Safe :=
  ⟨ht, fun hreturned => absurd (hm.2 (hshutdown ▸ hreturned)) halive⟩

end Stopping

variable [Field K] [LinearOrder K] (io : Platform K)

def loopStep (m : ImuModule K) : Option (ImuModule K) :=
  match m.loop with
  | .test => some { m with loop := if m.isRunning then .getObs else .ended }
  | .getObs =>
    match m.imu with
    | none => some { m with loop := .crashed }
    | some d => some { m with loop := .publish (m.frameFix.message io d.sensor.obs) }
  | .publish msg => some { m with published := m.published ++ [msg], loop := .sleep }
  | .sleep => some { m with loop := .test }
  | .ended | .crashed => none

def shutdownStep (m : ImuModule K) : Option (ImuModule K) :=
  match m.shutdown with
  | .uncalled => some { m with isRunning := false, shutdown := .testImu }
  | .testImu => some { m with shutdown := if m.imu.isSome then .clearCallback else .leave }
  | .clearCallback => some { m with imu := m.imu.map clearObsCallback, shutdown := .closeImu }
  | .closeImu => some { m with shutdown := .resetImu }
  | .resetImu => some { m with imu := none, shutdown := .leave }
  | .leave => some { m with shutdown := .returned }
  | .returned => none

def step (m : ImuModule K) : Action → Option (ImuModule K)
  | .loop => loopStep io m
  | .shutdown => m.shutdownStep
  -- `close` has joined the reader thread
  | .receive chunk =>
    if position m.shutdown ≤ position .closeImu then
      some { m with imu := m.imu.map fun d => d.readChunk io chunk }
    else none

theorem Running.keeps {m t : ImuModule K} {a : Action} (h : m.Running) (ha : a ≠ .shutdown)
    (ht : step io m a = some t) : t.Running := by
  obtain ⟨isRunning, imu, fix, published, loop, shutdown⟩ := m
  obtain ⟨hflag, hdriver, huncalled, halive, hsafe⟩ := h
  cases a with
  | shutdown => exact absurd rfl ha
  | receive chunk =>
    simp only [step] at ht
    split_ifs at ht
    cases ht
    exact ⟨hflag, by simpa using hdriver, huncalled, halive, hsafe⟩
  | loop =>
    obtain ⟨d, rfl⟩ := Option.isSome_iff_exists.mp hdriver
    cases hflag
    cases loop with
    | test | getObs | publish | sleep =>
      cases ht
      exact ⟨rfl, rfl, huncalled, by simp, by simp⟩
    | ended | crashed => cases ht

theorem running_of_run (d : ImuDriver K) (fix : ImuFrameFix K) {as : List Action}
    {m : ImuModule K} (h : Run (step io) (started d fix) as m) (has : .shutdown ∉ as) :
    m.Running := by
  induction h with
  | start => exact ⟨rfl, rfl, rfl, by simp [started], by simp [started]⟩
  | next _ ht ih =>
    simp only [List.mem_append, List.mem_singleton, not_or] at has
    exact (ih has.1).keeps io (Ne.symm has.2) ht

theorem stopping_of_clear {m t : ImuModule K} (h : m.Running)
    (ht : step io m .shutdown = some t) : Stopping m.loop [] t ∧ t.Safe := by
  simp only [step, shutdownStep, h.uncalled, Option.some.injEq] at ht
  subst ht
  exact ⟨⟨rfl, by simp [h.driver], rfl, by simp⟩, h.safe, by simp⟩

section Steps
variable {φ : LoopPhase K} {taken : List Action} {m t : ImuModule K}

theorem Stopping.afterLoop (h : Stopping φ taken m) (hm : m.Safe)
    (ht : step io m .loop = some t) :
    (t.Safe ↔ InTurn φ taken .loop) ∧ (t.Safe → Stopping φ (taken ++ [.loop]) t) := by
  have hget := h.getObs_iff
  have hpast : m.loop ≠ .getObs → InTurn φ taken .loop :=
    fun hne hφ hzero => absurd (hget.mpr ⟨hφ, hzero⟩) hne
  obtain ⟨isRunning, imu, fix, published, loop, shutdown⟩ := m
  obtain rfl : isRunning = false := h.flag
  cases loop with
  | ended | crashed => cases ht
  | test | publish | sleep =>
    cases ht
    exact ⟨iff_of_true (hm.of_loop (by simp) rfl (by simp)) (hpast (by simp)),
      fun _ => h.of_loop rfl rfl rfl rfl⟩
  | getObs =>
    obtain ⟨rfl, hzero⟩ := hget.mp rfl
    cases imu with
    | none =>
      cases ht
      have hlate : ¬ taken.count Action.shutdown < 4 := fun hlt => by simpa using h.driver.mpr hlt
      have hcrash : ¬ Safe (K := K) ⟨false, none, fix, published, .crashed, shutdown⟩ :=
        fun hsafe => hsafe.1 rfl
      exact ⟨iff_of_false hcrash fun hturn => hlate (hturn rfl hzero),
        fun hsafe => absurd hsafe hcrash⟩
    | some d =>
      cases ht
      exact ⟨iff_of_true (hm.of_loop (by simp) rfl (by simp)) fun _ _ => h.driver.mp rfl,
        fun _ => h.of_loop rfl rfl rfl rfl⟩

theorem Stopping.afterShutdown (h : Stopping φ taken m) (hm : m.Safe)
    (ht : step io m .shutdown = some t) :
    (t.Safe ↔ InTurn φ taken .shutdown) ∧ (t.Safe → Stopping φ (taken ++ [.shutdown]) t) := by
  have hleft := h.loop
  have hposition := h.shutdown
  obtain ⟨isRunning, imu, fix, published, loop, shutdown⟩ := m
  have hearly : taken.count Action.shutdown ≠ 4 → InTurn φ taken .shutdown :=
    fun hne heq => absurd heq hne
  cases shutdown with
  | uncalled => simp [position] at hposition
  | returned => cases ht
  | clearCallback | closeImu | resetImu =>
    cases ht
    simp only [position] at hposition
    refine ⟨iff_of_true ⟨hm.1, by simp⟩ (hearly (by omega)), fun _ => h.of_shutdown rfl ?_ rfl rfl⟩
    simp [position]
  | testImu =>
    simp only [position] at hposition
    obtain ⟨d, rfl⟩ := Option.isSome_iff_exists.mp (h.driver.mpr (by omega))
    cases ht
    refine ⟨iff_of_true ⟨hm.1, by simp⟩ (hearly (by omega)), fun _ => h.of_shutdown rfl ?_ rfl rfl⟩
    simp [position]
  | leave =>
    cases ht
    simp only [position] at hposition
    refine ⟨?_, fun _ => h.of_shutdown rfl (by simp [position]) rfl rfl⟩
    have hended : loop = .ended ↔ remaining loop = 0 := by
      have hcrash : loop ≠ .crashed := hm.1
      cases loop <;> simp_all [remaining]
    constructor
    · intro hsafe _
      have hzero := hended.mp (hsafe.2 rfl)
      dsimp only at hleft
      omega
    · intro hturn
      have hle := hturn (by omega)
      refine ⟨hm.1, fun _ => hended.mpr ?_⟩
      dsimp only at hleft
      omega

theorem Stopping.afterReceive (h : Stopping φ taken m) (hm : m.Safe) {chunk : List Byte}
    (ht : step io m (.receive chunk) = some t) :
    t.Safe ∧ Stopping φ (taken ++ [.receive chunk]) t := by
  have hloops : (taken ++ [Action.receive chunk]).count .loop = taken.count .loop := by simp
  have hsame : (taken ++ [Action.receive chunk]).count .shutdown = taken.count .shutdown := by simp
  simp only [step] at ht
  split_ifs at ht
  cases ht
  refine ⟨hm, h.flag, ?_, ?_, ?_⟩
  · rw [hsame, Option.isSome_map]
    exact h.driver
  · rw [hsame]
    exact h.shutdown
  · rw [hloops]
    exact h.loop

end Steps

def beforeClear (as : List Action) : List Action := as.takeWhile (· ≠ .shutdown)

def afterClear (as : List Action) : List Action := (as.dropWhile (· ≠ .shutdown)).tail

theorem split_clear (as : List Action) :
    (as = beforeClear as ∧ afterClear as = []) ∨
      as = beforeClear as ++ .shutdown :: afterClear as := by
  induction as with
  | nil => exact .inl ⟨rfl, rfl⟩
  | cons a as ih =>
    by_cases ha : a = .shutdown
    · right
      simp [beforeClear, afterClear, ha]
    · simpa [beforeClear, afterClear, ha] using ih

theorem safe_iff_after_clear {m c : ImuModule K} (hm : m.Running)
    (hc : step io m .shutdown = some c) {as : List Action} {s : ImuModule K}
    (h : Run (step io) c as s) :
    (∀ p t, p <+: as → Run (step io) c p t → t.Safe) ↔ InTime m.loop as := by
  obtain ⟨hstopping, hsafe⟩ := stopping_of_clear io hm hc
  rw [h.always_iff_history (Stopping m.loop) Safe (fun p _ => InTurn m.loop p) hstopping hsafe]
  · constructor
    · rintro hturn p a q rfl
      obtain ⟨t, ht⟩ := h.of_prefix
      exact hturn p a q t rfl ht
    · intro htime p a q s hsplit _
      exact htime p a q hsplit
  · intro p s a t hp hs ht
    cases a with
    | loop => exact hp.afterLoop io hs ht
    | shutdown => exact hp.afterShutdown io hs ht
    | receive chunk =>
      obtain ⟨hsafe, hkeeps⟩ := hp.afterReceive io hs ht
      exact ⟨iff_of_true hsafe trivial, fun _ => hkeeps⟩

theorem not_mem_beforeClear (as : List Action) : .shutdown ∉ beforeClear as := fun hmem => by
  simpa using List.mem_takeWhile_imp hmem

/-- In every run, `getObs` is not called on the reset pointer and no thread outlives
the shutdown, exactly if the thread takes its steps in time after the flag is cleared. -/
theorem safe_iff_inTime (d : ImuDriver K) (fix : ImuFrameFix K) {as : List Action}
    {s : ImuModule K} (h : Run (step io) (started d fix) as s) :
    (∀ p t, p <+: as → Run (step io) (started d fix) p t → t.Safe) ↔
      ∀ m, Run (step io) (started d fix) (beforeClear as) m → InTime m.loop (afterClear as) := by
  have hcalm : ∀ p t, p <+: beforeClear as → Run (step io) (started d fix) p t → t.Safe :=
    fun p t hp ht =>
      (running_of_run io d fix ht fun hmem => not_mem_beforeClear as (hp.subset hmem)).isSafe
  rcases split_clear as with ⟨hall, hnone⟩ | hsplit
  · refine iff_of_true (fun p t hp ht => hcalm p t (hall ▸ hp) ht) ?_
    rw [hnone]
    intro m _ p a q hnil
    simp at hnil
  · have hbefore := not_mem_beforeClear as
    generalize beforeClear as = before, afterClear as = after at *
    subst hsplit
    obtain ⟨m, hm, hq⟩ := Runs.run_append_iff.mp h
    obtain ⟨c, hc, hq⟩ := Runs.run_cons_iff.mp hq
    have hafter := safe_iff_after_clear io (running_of_run io d fix hm hbefore) hc hq
    constructor
    · intro hsafe m' hm'
      obtain rfl := hm.unique hm'
      refine hafter.mp fun r t hr ht => hsafe (before ++ .shutdown :: r) t ?_ ?_
      · exact (List.prefix_append_right_inj _).mpr (List.cons_prefix_cons.mpr ⟨rfl, hr⟩)
      · exact Runs.run_append_iff.mpr ⟨m, hm, Runs.run_cons_iff.mpr ⟨c, hc, ht⟩⟩
    · intro htime p t hp ht
      rcases List.prefix_or_prefix_of_prefix hp (List.prefix_append before _) with hp' | ⟨r, rfl⟩
      · exact hcalm p t hp' ht
      · rw [List.prefix_append_right_inj] at hp
        cases r with
        | nil => exact hcalm _ t (by simp) ht
        | cons a r =>
          obtain ⟨rfl, hr⟩ := List.cons_prefix_cons.mp hp
          obtain ⟨m', hm', hr'⟩ := Runs.run_append_iff.mp ht
          obtain ⟨c', hc', hr'⟩ := Runs.run_cons_iff.mp hr'
          obtain rfl := hm.unique hm'
          obtain rfl := Option.some.inj (hc.symm.trans hc')
          exact hafter.mpr (htime m hm) r t hr hr'

section Schedules

def platform : Platform ℚ := ⟨fun _ => 0, fun x => x, fun _ => 0⟩

def idleModule : ImuModule ℚ := started (.new (.new false 1)) .off

def resetFirst : List Action :=
  [.loop, .shutdown, .shutdown, .shutdown, .shutdown, .shutdown, .loop]

def asleep : List Action :=
  [.loop, .loop, .loop, .shutdown, .shutdown, .shutdown, .shutdown, .shutdown, .shutdown]

theorem outruns :
    (Runs.exec (step platform) idleModule resetFirst).map loop = some .crashed ∧
      (Runs.exec (step platform) idleModule asleep).map (fun m => (m.loop, m.shutdown)) =
        some (.sleep, .returned) := by
  decide +kernel

theorem unsafe_shutdown :
    ¬ ∀ (d : ImuDriver ℚ) (fix : ImuFrameFix ℚ) (as : List Action) (m : ImuModule ℚ),
      Run (step platform) (started d fix) as m → m.Safe := by
  intro h
  obtain ⟨m, hm, hcrashed⟩ := Option.map_eq_some_iff.mp outruns.1
  exact (h _ .off resetFirst m (Runs.run_of_exec _ hm)).1 hcrashed

def soonAwake : List Action :=
  [.loop, .loop, .loop, .shutdown, .shutdown, .loop, .shutdown, .shutdown, .loop, .shutdown,
    .shutdown]

theorem soonAwake_ended :
    (Runs.exec (step platform) idleModule soonAwake).map (fun m => (m.loop, m.shutdown)) =
      some (.ended, .returned) := by
  decide +kernel

theorem safe_soonAwake :
    (Runs.exec (step platform) idleModule soonAwake).map (fun m => (m.loop, m.shutdown)) =
        some (.ended, .returned) ∧
      ∀ p t, p <+: soonAwake → Run (step platform) idleModule p t → t.Safe := by
  obtain ⟨s, hs, -⟩ := Option.map_eq_some_iff.mp soonAwake_ended
  refine ⟨soonAwake_ended,
    (safe_iff_inTime platform _ .off (Runs.run_of_exec soonAwake hs)).mpr fun m hm => ?_⟩
  have hloop : (Runs.exec (step platform) idleModule (beforeClear soonAwake)).map loop =
      some .sleep := by
    decide +kernel
  rw [idleModule, hm.exec_eq, Option.map_some, Option.some.injEq] at hloop
  rw [hloop]
  decide

end Schedules

end ImuModule
end MybipedalDeploy.Imu
