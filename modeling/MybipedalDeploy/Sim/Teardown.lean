import MybipedalDeploy.Sim.SimModule

/-!
# The teardown is safe

What holds at each control point of a thread, kept by every other thread: a callback
between its second check and its last use finds both pointers live, a shutdown past its
poll has seen the exit of the render loop.
-/

namespace MybipedalDeploy.Sim
open Runs (Run)
open CriticalSection (Exclusive)

/-- Between taking the mutex and releasing it; without a simulation there is none. -/
def Phase.Locked (sim : Bool) : Phase → Prop
  | .recheck | .writeMotorCmd | .mjStep | .readSensorData => True
  | .delete _ | .forget _ | .unlock => sim = true
  | .frame | .unlockFrame | .reportExit | .unlockExit => True
  | _ => False

namespace SimModule

/-- What a thread may rely on where it stands. -/
def Allowed (s : SimModule) (t : Thread) : Phase → Prop
  | .checkElapsed | .lockCallback | .recheck => s.sim = true
  | .writeMotorCmd | .mjStep | .readSensorData =>
    s.sim = true ∧ (s.block .data).ptr = .live ∧ (s.block .model).ptr = .live
  | .requestExit | .poll _ | .checkExit => s.sim = true
  | .lockShutdown => s.sim = true ∧ s.exitrequest = 2
  | .delete r | .forget r =>
    (s.sim = true → s.exitrequest = 2) ∧ (r = .model → (s.block .data).ptr = .null)
  | .loopTest | .lockFrame | .frame | .unlockFrame | .lockExit | .reportExit =>
    s.sim = true ∧ t = .render ∧ s.exitrequest ≠ 2
  | .unlockExit => s.sim = true
  | .idle | .checkRunning | .testSim | .unlock => True

structure Inv (s : SimModule) : Prop where
  mutex : Exclusive (Phase.Locked s.sim) s.owner s.pc
  bare : s.sim = false → s.running = false ∧ ∀ r, s.block r = ⟨.null, 0⟩
  threads : ∀ t, s.Allowed t (s.pc t)
  sound : ∀ r, (s.block r).frees ≤ 1 ∧ ((s.block r).ptr = .live → (s.block r).frees = 0)
  freeing : ∀ r, (s.block r).ptr = .dangling → ∃ t, s.pc t = .forget r
  dataLast : (s.block .data).ptr = .live → (s.block .model).ptr = .live
  reported : ∀ r, 0 < (s.block r).frees → s.exitrequest = 2
  noFault : s.fault = false

theorem inv_initial (start data : Bool) : (initial start data).Inv where
  mutex := by
    intro t ht
    cases t <;> cases start <;> cases ht
  bare := by
    rintro rfl
    refine ⟨rfl, fun r => ?_⟩
    cases r <;> rfl
  threads := by
    intro t
    cases t <;> cases start <;> simp [initial, Allowed]
  sound := by
    intro r
    cases r <;> simp [initial]
  freeing := by
    intro r
    cases r <;> cases start <;> cases data <;> simp [initial]
  dataLast := by cases start <;> simp [initial]
  reported := by
    intro r
    cases r <;> simp [initial]
  noFault := rfl

section Moves
variable {s s' : SimModule} {t : Thread} {p : Phase}

theorem Allowed.mono {u : Thread} {q : Phase} (h : s.Allowed u q) (hsim : s'.sim = s.sim)
    (hblock : s'.block = s.block)
    (hexit : s.exitrequest = 2 → s'.exitrequest = 2)
    (hrender : s'.exitrequest = 2 → s.exitrequest = 2 ∨ u ≠ .render) : s'.Allowed u q := by
  cases q <;> simp only [Allowed, hsim, hblock] at h ⊢ <;> try assumption
  · exact ⟨h.1, hexit h.2⟩
  · exact ⟨fun hs => hexit (h.1 hs), h.2⟩
  · exact ⟨fun hs => hexit (h.1 hs), h.2⟩
  all_goals
    refine ⟨h.1, h.2.1, fun hreq => ?_⟩
    rcases hrender hreq with hold | hother
    · exact h.2.2 hold
    · exact hother h.2.1

theorem Inv.advance (h : s.Inv) (hpc : s'.pc = Function.update s.pc t p)
    (hsim : s'.sim = s.sim) (hblock : s'.block = s.block) (hfault : s'.fault = s.fault)
    (hrunning : s'.running = true → s.running = true)
    (hexit : s.exitrequest = 2 → s'.exitrequest = 2)
    (hrender : s'.exitrequest = 2 → s.exitrequest = 2 ∨ t = .render)
    (hmutex : Exclusive (Phase.Locked s'.sim) s'.owner s'.pc) (hat : s'.Allowed t p)
    (hstay : ∀ r, s.pc t ≠ .forget r) : s'.Inv where
  mutex := hmutex
  bare := by
    intro hs
    obtain ⟨hstop, hblocks⟩ := h.bare (hsim ▸ hs)
    exact ⟨Bool.eq_false_iff.mpr fun hr => by simp [hrunning hr] at hstop, hblock ▸ hblocks⟩
  threads := by
    intro u
    rw [hpc]
    by_cases heq : u = t
    · subst heq
      rwa [Function.update_self]
    · rw [Function.update_of_ne heq]
      refine (h.threads u).mono hsim hblock hexit fun hreq => ?_
      exact (hrender hreq).imp_right fun ht hu => heq (hu.trans ht.symm)
  sound := hblock ▸ h.sound
  freeing := by
    intro r hr
    rw [hblock] at hr
    obtain ⟨u, hu⟩ := h.freeing r hr
    refine ⟨u, ?_⟩
    have hne : u ≠ t := fun heq => hstay r (heq ▸ hu)
    rw [hpc, Function.update_of_ne hne, hu]
  dataLast := hblock ▸ h.dataLast
  reported := by
    intro r hr
    rw [hblock] at hr
    exact hexit (h.reported r hr)
  noFault := hfault.trans h.noFault

theorem Inv.goto (h : s.Inv) (hin : p.Locked s.sim → (s.pc t).Locked s.sim)
    (hat : s.Allowed t p) (hstay : ∀ r, s.pc t ≠ .forget r) : (s.goto t p).Inv :=
  h.advance rfl rfl rfl rfl id id .inl (h.mutex.move hin) hat hstay

theorem Inv.lock (h : s.Inv) (hsim : s.sim = true) (hs : s.lock t p = some s')
    (hat : s.Allowed t p) (hstay : ∀ r, s.pc t ≠ .forget r) : s'.Inv := by
  rw [SimModule.lock, if_pos hsim] at hs
  split_ifs at hs with hfree
  cases hs
  have hmutex := hfree ▸ h.mutex
  exact h.advance rfl rfl rfl rfl id id .inl (hmutex.acquire t p) hat hstay

theorem Inv.not_locked (h : s.Inv) (hsim : s.sim = false) (u : Thread) :
    ¬ (s.pc u).Locked s.sim := by
  have hu := h.threads u
  cases hpc : s.pc u <;> simp [hpc, Allowed, Phase.Locked, hsim] at hu ⊢

theorem Inv.unlock (h : s.Inv) (hin : s.sim = true → (s.pc t).Locked s.sim)
    (hout : ¬ p.Locked s.sim) (hat : s.Allowed t p) (hstay : ∀ r, s.pc t ≠ .forget r) :
    (s.unlock t p).Inv := by
  refine h.advance rfl rfl rfl rfl id id .inl ?_ hat hstay
  cases hsim : s.sim with
  | true => exact hsim ▸ h.mutex.release (hin hsim) hout
  | false =>
    have hvacant : Exclusive (Phase.Locked s.sim) none s.pc :=
      fun u hu => absurd hu (h.not_locked hsim u)
    exact hsim ▸ hvacant.move fun hp => absurd hp hout

theorem Inv.use (h : s.Inv) (hpc : (s.pc t).Locked s.sim) (hlive : s.usable = true)
    (hat : s.Allowed t p) (hstay : ∀ r, s.pc t ≠ .forget r) : (s.use t p).Inv := by
  refine h.advance rfl rfl rfl ?_ id id .inl (h.mutex.move fun _ => hpc) hat hstay
  simp [SimModule.use, SimModule.goto, hlive]

theorem Allowed.setBlock {u : Thread} {q : Phase} {r : Resource} {b : Block}
    (h : s.Allowed u q) (hq : s.sim = true → ¬ q.Locked s.sim)
    (hdata : (s.block .data).ptr = .null → ((s.setBlock r b).block .data).ptr = .null) :
    (s.setBlock r b).Allowed u q := by
  cases q with
  | writeMotorCmd | mjStep | readSensorData => exact absurd trivial (hq h.1)
  | delete | forget => exact ⟨h.1, fun hr => hdata (h.2 hr)⟩
  | _ => exact h

theorem setBlock_cases {r : Resource} {b : Block} {P : Resource → Block → Prop} (hb : P r b)
    (hother : ∀ r', r' ≠ r → P r' (s.block r')) (r' : Resource) :
    P r' ((s.setBlock r b).block r') := by
  by_cases hr : r' = r
  · subst hr
    rwa [setBlock_self]
  · rw [s.setBlock_of_ne hr]
    exact hother r' hr

theorem Inv.free (h : s.Inv) {r : Resource} {b : Block}
    (ht : s.pc t = .delete r ∨ s.pc t = .forget r) (hlive : b.ptr ≠ .live) (hfrees : b.frees ≤ 1)
    (hnull : (s.block r).ptr = .null → b = s.block r) (hdangling : b.ptr = .dangling → p = .forget r)
    (hlock : p.Locked s.sim → s.sim = true) (hat : (s.setBlock r b).Allowed t p) :
    ((s.setBlock r b).goto t p).Inv := by
  have hin : s.sim = true → (s.pc t).Locked s.sim := fun hsim => by
    rcases ht with ht | ht <;> rw [ht] <;> exact hsim
  have hallowed : (s.sim = true → s.exitrequest = 2) ∧
      (r = .model → (s.block .data).ptr = .null) := by
    have hthread := h.threads t
    rcases ht with ht | ht <;> rwa [ht] at hthread
  have hsame : s.sim = false → b = s.block r := fun hsim => hnull (by rw [(h.bare hsim).2 r])
  have hdata : (s.block .data).ptr = .null → ((s.setBlock r b).block .data).ptr = .null := by
    intro hd
    refine setBlock_cases (P := fun r' b' => (s.block r').ptr = .null → b'.ptr = .null) ?_
      (fun _ _ hd => hd) .data hd
    intro hd
    rw [hnull hd, hd]
  constructor
  · exact h.mutex.move fun hp => hin (hlock hp)
  · intro hsim
    refine ⟨(h.bare hsim).1, setBlock_cases (P := fun _ b' => b' = ⟨.null, 0⟩) ?_ ?_⟩
    · exact (hsame hsim).trans ((h.bare hsim).2 r)
    · exact fun r' _ => (h.bare hsim).2 r'
  · intro u
    change (s.setBlock r b).Allowed u _
    by_cases heq : u = t
    · subst heq
      rwa [goto_pc_self]
    · rw [goto_pc_of_ne _ _ heq]
      exact (h.threads u).setBlock (fun hsim hu => heq (h.mutex.eq hu (hin hsim))) hdata
  · exact setBlock_cases (P := fun _ b' => b'.frees ≤ 1 ∧ (b'.ptr = .live → b'.frees = 0))
      ⟨hfrees, fun hl => absurd hl hlive⟩ fun r' _ => h.sound r'
  · refine setBlock_cases (P := fun r' b' =>
      b'.ptr = .dangling → ∃ u, ((s.setBlock r b).goto t p).pc u = .forget r') ?_ ?_
    · exact fun hd => ⟨t, by rw [goto_pc_self, hdangling hd]⟩
    · intro r' hr hd
      obtain ⟨u, hu⟩ := h.freeing r' hd
      have hne : u ≠ t := fun heq => by
        subst heq
        rcases ht with ht | ht <;> rw [ht] at hu <;> cases hu
        exact hr rfl
      exact ⟨u, by rw [goto_pc_of_ne _ _ hne, show (s.setBlock r b).pc u = _ from hu]⟩
  · intro hd
    change ((s.setBlock r b).block .data).ptr = _ at hd
    change ((s.setBlock r b).block .model).ptr = _
    have hne : .model ≠ r := fun hr => by
      rw [hdata (hallowed.2 hr.symm)] at hd
      cases hd
    rw [s.setBlock_of_ne hne]
    refine h.dataLast (setBlock_cases
      (P := fun r' b' => b'.ptr = .live → (s.block r').ptr = .live) ?_ (fun _ _ hl => hl) .data hd)
    exact fun hl => absurd hl hlive
  · refine setBlock_cases (P := fun _ b' => 0 < b'.frees → s.exitrequest = 2) ?_
      fun r' _ => h.reported r'
    intro hfreed
    cases hsim : s.sim with
    | true => exact hallowed.1 hsim
    | false =>
      rw [hsame hsim, (h.bare hsim).2] at hfreed
      exact absurd hfreed (Nat.lt_irrefl 0)
  · exact h.noFault

theorem Inv.sim_of_dangling (h : s.Inv) {r : Resource} (hd : (s.block r).ptr = .dangling) :
    s.sim = true := by
  by_contra hbare
  rw [(h.bare (by simpa using hbare)).2 r] at hd
  cases hd

theorem Inv.not_dangling (h : s.Inv) {r : Resource} (ht : (s.pc t).Locked s.sim)
    (hne : s.pc t ≠ .forget r) : (s.block r).ptr ≠ .dangling := by
  intro hd
  obtain ⟨u, hu⟩ := h.freeing r hd
  have hsim := h.sim_of_dangling hd
  exact hne (h.mutex.eq (hu ▸ hsim : (s.pc u).Locked s.sim) ht ▸ hu)

theorem Inv.delete_frees (h : s.Inv) {r : Resource} (hpc : s.pc t = .delete r) :
    (s.block r).delete.frees ≤ 1 := by
  cases hptr : (s.block r).ptr with
  | null => simpa [Block.delete, hptr] using (h.sound r).1
  | live => simp [Block.delete, hptr, (h.sound r).2 hptr]
  | dangling =>
    have hlocked : (s.pc t).Locked s.sim := hpc ▸ h.sim_of_dangling hptr
    exact absurd hptr (h.not_dangling hlocked (by simp [hpc]))

theorem Inv.allowed (h : s.Inv) {q : Phase} (hpc : s.pc t = q) : s.Allowed t q :=
  hpc ▸ h.threads t

theorem Inv.checkRunning (h : s.Inv) (hpc : s.pc t = .checkRunning) :
    (s.goto t (if s.running then .checkElapsed else .idle)).Inv := by
  split_ifs with hrun
  · refine h.goto (by simp [Phase.Locked]) ?_ (by simp [hpc])
    by_contra hbare
    simp [(h.bare (by simpa [Allowed] using hbare)).1] at hrun
  · exact h.goto (by simp [Phase.Locked]) trivial (by simp [hpc])

theorem Inv.recheck (h : s.Inv) (hpc : s.pc t = .recheck) :
    (s.goto t (if s.running ∧ (s.block .data).ptr ≠ .null then .writeMotorCmd else .unlock)).Inv := by
  split_ifs with hcheck
  · have hlive : (s.block .data).ptr = .live := by
      have hd := h.not_dangling (t := t) (r := .data) (by rw [hpc]; trivial) (by simp [hpc])
      cases hptr : (s.block .data).ptr <;> simp_all
    have hsim : s.sim = true := h.allowed hpc
    exact h.goto (by simp [Phase.Locked, hpc]) ⟨hsim, hlive, h.dataLast hlive⟩ (by simp [hpc])
  · exact h.goto (by simp [Phase.Locked, hpc]) trivial (by simp [hpc])

theorem Inv.useLive (h : s.Inv) {q : Phase} (hpc : s.pc t = q)
    (hq : q = .writeMotorCmd ∨ q = .mjStep ∨ q = .readSensorData) (hat : s.Allowed t p) :
    (s.use t p).Inv := by
  have hlive : s.usable = true := by
    have hrely := h.allowed hpc
    rcases hq with rfl | rfl | rfl <;> simp [usable, hrely.2.1, hrely.2.2]
  refine h.use ?_ hlive hat ?_
  · rcases hq with rfl | rfl | rfl <;> rw [hpc] <;> trivial
  · rcases hq with rfl | rfl | rfl <;> simp [hpc]

theorem Inv.requestExit (h : s.Inv) (hpc : s.pc t = .requestExit) :
    ({ s with exitrequest := if s.exitrequest = 0 then 1 else s.exitrequest }.goto t (.poll 0)).Inv := by
  have hsim : s.sim = true := h.allowed hpc
  refine h.advance rfl rfl rfl rfl id ?_ ?_ (h.mutex.move (by simp [Phase.Locked])) hsim
    (by simp [hpc])
  · intro htwo
    simp [SimModule.goto, htwo]
  · intro htwo
    simp only [SimModule.goto] at htwo
    split_ifs at htwo
    · cases htwo
    · exact .inl htwo

theorem Inv.delete (h : s.Inv) {r : Resource} (hpc : s.pc t = .delete r) :
    ((s.setBlock r (s.block r).delete).goto t (.forget r)).Inv := by
  have hat := h.allowed hpc
  exact h.free (.inl hpc) (Block.delete_ptr_ne_live _) (h.delete_frees hpc) Block.delete_of_null
    (fun _ => rfl) id ⟨hat.1, fun hr => by rw [s.setBlock_of_ne (by simp [hr]), hat.2 hr]⟩

theorem Inv.forget (h : s.Inv) {r : Resource} (hpc : s.pc t = .forget r) :
    ((s.setBlock r (s.block r).forget).goto t (afterForget r)).Inv := by
  have hat := h.allowed hpc
  refine h.free (.inr hpc) (by simp [Block.forget]) (h.sound r).1 Block.forget_of_null
    (by simp [Block.forget]) ?_ ?_
  · cases r <;> exact id
  · cases r with
    | ctrlNoise => exact ⟨hat.1, by simp⟩
    | data => exact ⟨hat.1, fun _ => by rw [setBlock_self]; rfl⟩
    | model => trivial

theorem Inv.frame (h : s.Inv) (hpc : s.pc t = .frame) (choice : Bool) :
    ({ s with exitrequest := if choice then 1 else s.exitrequest }.goto t .unlockFrame).Inv := by
  obtain ⟨hsim, hrender, hne⟩ := h.allowed hpc
  refine h.advance rfl rfl rfl rfl id ?_ (fun _ => .inr hrender)
    (h.mutex.move fun _ => by rw [hpc]; trivial) ⟨hsim, hrender, ?_⟩ (by simp [hpc])
  · intro htwo
    exact absurd htwo hne
  · simp only [SimModule.goto]
    split_ifs
    · decide
    · exact hne

theorem Inv.step {choice : Bool} (h : s.Inv) (hs : s.step t choice = some s') : s'.Inv := by
  unfold SimModule.step at hs
  cases hpc : s.pc t <;> simp only [hpc] at hs
  case idle =>
    cases t with
    | callback i =>
      cases hs
      exact h.goto (by simp [Phase.Locked]) trivial (by simp [hpc])
    | shutdown i =>
      cases hs
      refine h.advance rfl rfl rfl rfl (by simp [SimModule.goto]) id .inl (h.mutex.move ?_) trivial
        (by simp [hpc])
      simp [Phase.Locked]
    | render => cases hs
  case checkRunning =>
    cases hs
    exact h.checkRunning hpc
  case checkElapsed =>
    cases hs
    have hat := h.allowed hpc
    split_ifs
    · exact h.goto (by simp [Phase.Locked]) hat (by simp [hpc])
    · exact h.goto (by simp [Phase.Locked]) trivial (by simp [hpc])
  case lockCallback =>
    have hat := h.allowed hpc
    exact h.lock hat hs hat (by simp [hpc])
  case recheck =>
    cases hs
    exact h.recheck hpc
  case writeMotorCmd =>
    cases hs
    have hat := h.allowed hpc
    exact h.useLive hpc (.inl rfl) hat
  case mjStep =>
    cases hs
    have hat := h.allowed hpc
    exact h.useLive hpc (.inr (.inl rfl)) hat
  case readSensorData =>
    cases hs
    exact h.useLive hpc (.inr (.inr rfl)) trivial
  case testSim =>
    cases hs
    split_ifs with hsim
    · exact h.goto (by simp [Phase.Locked]) hsim (by simp [hpc])
    · exact h.goto (fun hlock => absurd hlock hsim) ⟨fun hs => absurd hs hsim, by simp⟩
        (by simp [hpc])
  case requestExit =>
    cases hs
    exact h.requestExit hpc
  case poll i =>
    cases hs
    have hat := h.allowed hpc
    split_ifs <;> exact h.goto (by simp [Phase.Locked]) hat (by simp [hpc])
  case checkExit =>
    cases hs
    split_ifs with hexit
    · exact h.goto (by simp [Phase.Locked]) trivial (by simp [hpc])
    · exact h.goto (by simp [Phase.Locked]) ⟨h.allowed hpc, not_not.mp hexit⟩ (by simp [hpc])
  case lockShutdown =>
    have hat := h.allowed hpc
    exact h.lock hat.1 hs ⟨fun _ => hat.2, by simp⟩ (by simp [hpc])
  case delete r =>
    cases hs
    exact h.delete hpc
  case forget r =>
    cases hs
    exact h.forget hpc
  case unlock =>
    cases hs
    exact h.unlock (fun hsim => by rw [hpc]; exact hsim) (by simp [Phase.Locked]) trivial
      (by simp [hpc])
  case loopTest =>
    cases hs
    have hat := h.allowed hpc
    split_ifs <;> exact h.goto (by simp [Phase.Locked]) hat (by simp [hpc])
  case lockFrame =>
    have hat := h.allowed hpc
    exact h.lock hat.1 hs hat (by simp [hpc])
  case frame =>
    cases hs
    exact h.frame hpc choice
  case unlockFrame =>
    cases hs
    have hat := h.allowed hpc
    exact h.unlock (fun _ => by rw [hpc]; trivial) (by simp [Phase.Locked]) hat (by simp [hpc])
  case lockExit =>
    have hat := h.allowed hpc
    exact h.lock hat.1 hs hat (by simp [hpc])
  case reportExit =>
    cases hs
    have hat := h.allowed hpc
    exact h.advance rfl rfl rfl rfl id (fun _ => rfl) (fun _ => .inr hat.2.1)
      (h.mutex.move fun _ => by rw [hpc]; trivial) hat.1 (by simp [hpc])
  case unlockExit =>
    cases hs
    exact h.unlock (fun _ => by rw [hpc]; trivial) (by simp [Phase.Locked]) trivial
      (by simp [hpc])

end Moves

/-- In every run no callback uses a null or freed pointer, every block is freed at most
once, and none before the render loop has reported its exit. -/
theorem teardown_safe (start data : Bool) {as : List (Thread × Bool)} {s : SimModule}
    (h : Run act (initial start data) as s) :
    s.fault = false ∧ ∀ r, (s.block r).frees ≤ 1 ∧ (0 < (s.block r).frees → s.exitrequest = 2) := by
  have hinv : s.Inv := h.invariant Inv (inv_initial start data) fun _ _ _ h hs => h.step hs
  exact ⟨hinv.noFault, fun r => ⟨(hinv.sound r).1, hinv.reported r⟩⟩

def orderly : List (Thread × Bool) :=
  List.replicate 9 (.callback 0, true) ++ List.replicate 4 (.shutdown 0, false) ++
    List.replicate 4 (.render, false) ++ List.replicate 10 (.shutdown 0, false)

theorem orderly_runs : (Runs.exec act (initial true true) orderly).isSome = true := by decide

theorem teardown_safe_orderly :
    ((Runs.exec act (initial true true) orderly).get orderly_runs).fault = false ∧
      ∀ r, (((Runs.exec act (initial true true) orderly).get orderly_runs).block r).frees = 1 := by
  refine ⟨(teardown_safe true true (Runs.run_of_exec orderly (Option.some_get _).symm)).1,
    fun r => ?_⟩
  cases r <;> decide

end SimModule
end MybipedalDeploy.Sim
