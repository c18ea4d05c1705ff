import MybipedalDeploy.JointDriver.SocketCan
import MybipedalDeploy.Library.Runs

/-!
# The wake-ups of the sender

The sender thread holds `tx_mutex_` from the evaluation of its predicate until it
blocks, but who pushes a frame or clears `receiving_` notifies without it. A notice
that comes in between is lost.
-/

namespace MybipedalDeploy.JointDriver
open Runs (Run Along)

inductive SenderPhase
  | top
  | evaluate
  | falling
  | blocked
  | awake
  | write (f : CanFrame)
  | done
  deriving DecidableEq

/-- A socket among any number of threads; `notices` counts those that have pushed a
frame or cleared the flag and have yet to call `notify_one`. -/
structure Sending where
  socket : SocketCan
  receiving : Bool
  notices : ℕ
  sender : SenderPhase

namespace Sending

inductive Action
  | push (f : CanFrame)
  | clear
  | notify
  | sender
  | spurious
  | joined

def boot (socket : SocketCan) : Sending := ⟨socket, true, 0, .top⟩

def predicate (s : Sending) : Bool := !s.socket.txQueue.isEmpty || !s.receiving

def senderStep (s : Sending) : Option Sending :=
  match s.sender with
  | .top => some { s with sender := if s.receiving then .evaluate else .done }
  | .evaluate => some { s with sender := if s.predicate then .awake else .falling }
  | .falling => some { s with sender := .blocked }
  | .blocked => none
  | .awake =>
    if s.receiving then
      match s.socket.txQueue with
      | [] => some { s with sender := .top }
      | f :: _ => some { s with socket := s.socket.pop, sender := .write f }
    else some { s with sender := .done }
  | .write _ => some { s with sender := .top }
  | .done => none

def wake (s : Sending) : Sending :=
  { s with sender := if s.sender = .blocked then .evaluate else s.sender }

def step (s : Sending) : Action → Option Sending
  | .push f =>
    if s.socket.opened then some { s with socket := s.socket.transmit f, notices := s.notices + 1 }
    else some s
  | .clear => some { s with receiving := false, notices := s.notices + 1 }
  | .notify => if s.notices = 0 then none else some { s.wake with notices := s.notices - 1 }
  | .sender => s.senderStep
  | .spurious => if s.sender = .blocked then some s.wake else none
  -- `close` gets past its join
  | .joined =>
    if s.sender = .done then some { s with socket := { s.socket with opened := false } } else none

/-- The sender sleeps, there is something to do, and nobody is about to say so. -/
def Lost (s : Sending) : Prop := s.sender = .blocked ∧ s.predicate = true ∧ s.notices = 0

def Heeded (s : Sending) : Action → Prop
  | .sender => s.sender = .falling → s.predicate = true → 0 < s.notices
  | _ => True

instance (s : Sending) : Decidable s.Lost := inferInstanceAs (Decidable (_ ∧ _))

instance (s : Sending) (a : Action) : Decidable (s.Heeded a) := by
  unfold Heeded
  split <;> infer_instance

theorem wake_ne_blocked (s : Sending) : s.wake.sender ≠ .blocked := by
  unfold wake
  split_ifs with h
  · simp
  · exact h

theorem senderStep_blocked {s t : Sending} (h : s.senderStep = some t) (ht : t.sender = .blocked) :
    s.sender = .falling ∧ t = { s with sender := .blocked } := by
  cases hphase : s.sender with
  | falling =>
    simp only [senderStep, hphase, Option.some.injEq] at h
    exact ⟨rfl, h.symm⟩
  | top =>
    simp only [senderStep, hphase, Option.some.injEq] at h
    subst h
    dsimp only at ht
    split_ifs at ht
  | evaluate =>
    simp only [senderStep, hphase, Option.some.injEq] at h
    subst h
    dsimp only at ht
    split_ifs at ht
  | awake =>
    simp only [senderStep, hphase] at h
    split_ifs at h
    · split at h
      · cases h
        cases ht
      · cases h
        cases ht
    · cases h
      cases ht
  | write f =>
    simp only [senderStep, hphase, Option.some.injEq] at h
    subst h
    cases ht
  | blocked => simp [senderStep, hphase] at h
  | done => simp [senderStep, hphase] at h

theorem lost_step {s t : Sending} {a : Action} (hs : ¬ s.Lost) (h : s.step a = some t) :
    ¬ t.Lost ↔ s.Heeded a := by
  have hnotice : t.notices ≠ 0 → ¬ t.Lost := fun hne hlost => hne hlost.2.2
  cases a with
  | push f =>
    refine iff_of_true ?_ trivial
    simp only [step] at h
    split_ifs at h
    · cases h
      exact hnotice (Nat.succ_ne_zero _)
    · cases h
      exact hs
  | clear =>
    cases h
    exact iff_of_true (hnotice (Nat.succ_ne_zero _)) trivial
  | notify =>
    refine iff_of_true (fun hlost => ?_) trivial
    simp only [step] at h
    split_ifs at h
    cases h
    exact s.wake_ne_blocked hlost.1
  | spurious =>
    refine iff_of_true (fun hlost => ?_) trivial
    simp only [step] at h
    split_ifs at h
    cases h
    exact s.wake_ne_blocked hlost.1
  | joined =>
    refine iff_of_true (fun hlost => ?_) trivial
    simp only [step] at h
    split_ifs at h with hdone
    cases h
    have hblocked : s.sender = .blocked := hlost.1
    rw [hdone] at hblocked
    cases hblocked
  | sender =>
    by_cases ht : t.sender = .blocked
    · obtain ⟨hfalling, rfl⟩ := senderStep_blocked h ht
      simp only [Lost, Heeded, hfalling, true_and, true_implies, not_and, Nat.pos_iff_ne_zero]
      rfl
    · refine iff_of_true (fun hlost => ht hlost.1) fun hfalling => ?_
      simp only [step, senderStep, hfalling, Option.some.injEq] at h
      exact absurd (h ▸ rfl) ht

/-- No wake-up is lost in any state of a run exactly if the sender never falls asleep
over a change whose notice has passed. -/
theorem no_lost_wakeup_iff (socket : SocketCan) {as : List Action} {s : Sending}
    (h : Run step (boot socket) as s) :
    (∀ p t, p <+: as → Run step (boot socket) p t → ¬ t.Lost) ↔
      Along step Heeded (boot socket) as :=
  h.always_iff_along Heeded (fun s => ¬ s.Lost) (by simp [Lost, boot])
    fun _ _ _ _ _ hs hstep => lost_step hs hstep

theorem lost_of_notice_while_falling {s : Sending} (hfalling : s.sender = .falling)
    (hpredicate : s.predicate = true) (hlast : s.notices = 1) :
    ∃ t u, s.step .notify = some t ∧ t.step .sender = some u ∧ u.Lost := by
  refine ⟨{ s with notices := 0 }, { s with notices := 0, sender := .blocked }, ?_, ?_, rfl,
    hpredicate, rfl⟩
  · simp [step, wake, hlast, hfalling]
  · simp [step, senderStep, hfalling]

def enableFrame : CanFrame := ⟨0x8300FF01#32, .replicate 8 0⟩

def pushInGap : List Action := [.sender, .sender, .push enableFrame, .notify, .sender]

def clearInGap : List Action := [.sender, .sender, .clear, .notify, .sender]

theorem lost_in_gap :
    ((Runs.exec step (boot .new) pushInGap).any fun s => decide s.Lost) = true ∧
      ((Runs.exec step (boot .new) clearInGap).any fun s => decide s.Lost) = true := by
  decide +kernel

theorem wakeup_lost :
    ¬ ∀ (socket : SocketCan) (as : List Action) (s : Sending),
      Run step (boot socket) as s → ¬ s.Lost := by
  intro h
  obtain ⟨s, hs, hlost⟩ := (Option.any_eq_true _ _).mp lost_in_gap.1
  exact h .new pushInGap s (Runs.run_of_exec pushInGap hs) (of_decide_eq_true hlost)

def inTime : List Action :=
  [.push enableFrame, .sender, .notify, .sender, .sender, .sender, .sender, .sender, .sender, .clear,
    .notify, .sender, .sender, .joined]

theorem inTime_done :
    ((Runs.exec step (boot .new) inTime).map sender) = some .done := by decide +kernel

theorem no_lost_wakeup_inTime :
    (Runs.exec step (boot .new) inTime).map sender = some .done ∧
      ∀ p t, p <+: inTime → Run step (boot .new) p t → ¬ t.Lost := by
  obtain ⟨s, hs, -⟩ := Option.map_eq_some_iff.mp inTime_done
  exact ⟨inTime_done, (no_lost_wakeup_iff .new (Runs.run_of_exec inTime hs)).mpr
    (Runs.along_of_guardsHold (by decide +kernel))⟩

end Sending
end MybipedalDeploy.JointDriver
