import MybipedalDeploy.Library.Runs
import MybipedalDeploy.Oled.UiRenderer

/-!
# The input thread

The thread polls the lines of the rotary encoder and of the two buttons. A click is counted
where the clock line falls, by what the data line shows then, and not where the knob
arrives: a knob that goes back over the edge it came by is counted too often.
-/

namespace MybipedalDeploy.Oled

/-- What the lines show in one round; `dt` and `confirmed` are read only after an edge. -/
structure Lines where
  clk : ℤ
  dt : ℤ
  sw : ℤ
  confirmed : ℤ
  back : ℤ

structure InputThread where
  lastClk : ℤ
  lastSw : ℤ
  lastBack : ℤ

namespace InputThread
variable (t : InputThread) (l : Lines)

def encoder : List Event :=
  if l.clk ≠ t.lastClk ∧ l.clk = 0 then [if l.dt ≠ l.clk then .encCcw else .encCw] else []

/-- A change counts only if it is still there after the wait. -/
def encoderPush : ℤ × List Event :=
  if l.sw ≠ t.lastSw ∧ l.confirmed = l.sw then
    (l.confirmed, if l.confirmed = 0 then [.encPush] else [])
  else (t.lastSw, [])

def backButton : List Event := if l.back ≠ t.lastBack ∧ l.back = 0 then [.btnBack] else []

def round : InputThread × List Event :=
  (⟨l.clk, (t.encoderPush l).1, l.back⟩, t.encoder l ++ (t.encoderPush l).2 ++ t.backButton l)

end InputThread

inductive Turn
  | back
  | rest
  | on

def Turn.quarters : Turn → ℤ
  | .back => -1
  | .rest => 0
  | .on => 1

/-- The clock line is low in the last two quarters of a step, the data line in the middle
two; both are high in the detents, at the multiples of four. -/
def clockLow (position : ℤ) : Prop := 2 ≤ position % 4

instance (position : ℤ) : Decidable (clockLow position) := inferInstanceAs (Decidable (_ ≤ _))

def clkAt (position : ℤ) : ℤ := if clockLow position then 0 else 1

def dtAt (position : ℤ) : ℤ := if position % 4 = 1 ∨ position % 4 = 2 then 0 else 1

structure Dial where
  position : ℤ
  ahead : Bool

namespace Dial
variable (d : Dial) (turn : Turn)

def next : Dial :=
  let position := d.position + turn.quarters
  ⟨position, if ¬ clockLow d.position ∧ clockLow position then turn.quarters = 1 else d.ahead⟩

def heading : ℤ := d.position / 4 + if clockLow d.position ∧ d.ahead then 1 else 0

/-- The knob leaves the low phase where it entered it. -/
def Slips : Prop :=
  clockLow d.position ∧ ¬ clockLow (d.next turn).position ∧ (d.ahead = true ↔ turn.quarters = -1)

end Dial

structure Round where
  turn : Turn
  sw : ℤ
  confirmed : ℤ
  back : ℤ

structure Bench where
  thread : InputThread
  dial : Dial
  pushed : List Event

def netClicks (evs : List Event) : ℤ := evs.count .encCw - evs.count .encCcw

theorem netClicks_append (evs evs' : List Event) :
    netClicks (evs ++ evs') = netClicks evs + netClicks evs' := by
  unfold netClicks
  rw [List.count_append, List.count_append]
  omega

namespace Bench

def resting (k lastSw lastBack : ℤ) : Bench := ⟨⟨1, lastSw, lastBack⟩, ⟨4 * k, false⟩, []⟩

def poll (b : Bench) (r : Round) : Bench :=
  let dial := b.dial.next r.turn
  let out := b.thread.round ⟨clkAt dial.position, dtAt dial.position, r.sw, r.confirmed, r.back⟩
  ⟨out.1, dial, b.pushed ++ out.2⟩

def error (b : Bench) : ℤ := netClicks b.pushed - b.dial.heading

def Seen (b : Bench) : Prop := b.thread.lastClk = clkAt b.dial.position

theorem netClicks_round (t : InputThread) (l : Lines) :
    netClicks (t.round l).2 =
      if l.clk ≠ t.lastClk ∧ l.clk = 0 then (if l.dt ≠ l.clk then -1 else 1) else 0 := by
  have hpush : netClicks (t.encoderPush l).2 = 0 := by
    unfold InputThread.encoderPush
    split_ifs <;> rfl
  have hback : netClicks (t.backButton l) = 0 := by
    unfold InputThread.backButton
    split_ifs <;> rfl
  have hencoder : netClicks (t.encoder l) =
      if l.clk ≠ t.lastClk ∧ l.clk = 0 then (if l.dt ≠ l.clk then -1 else 1) else 0 := by
    unfold InputThread.encoder
    split_ifs <;> rfl
  simp only [InputThread.round, netClicks_append, hpush, hback, hencoder, add_zero]

theorem netClicks_poll {b : Bench} (h : b.Seen) (r : Round) :
    netClicks (b.poll r).pushed = netClicks b.pushed +
      if ¬ clockLow b.dial.position ∧ clockLow (b.dial.next r.turn).position then r.turn.quarters
      else 0 := by
  have hclk : b.thread.lastClk = clkAt b.dial.position := h
  rw [poll, netClicks_append, netClicks_round, hclk]
  congr 1
  cases r.turn <;> simp only [Dial.next, clkAt, dtAt, clockLow, Turn.quarters] <;> grind

theorem heading_next (d : Dial) (turn : Turn) :
    (d.next turn).heading = d.heading + (if ¬ clockLow d.position ∧
      clockLow (d.next turn).position then turn.quarters else 0) ↔ ¬ d.Slips turn := by
  obtain ⟨position, ahead⟩ := d
  cases turn <;> cases ahead <;>
    simp only [Dial.next, Dial.heading, Dial.Slips, clockLow, Turn.quarters] <;> grind

theorem error_poll {b : Bench} (h : b.Seen) (r : Round) :
    (b.poll r).error = b.error ↔ ¬ b.dial.Slips r.turn := by
  have hdial : (b.poll r).dial = b.dial.next r.turn := rfl
  rw [← heading_next, error, error, netClicks_poll h, hdial]
  constructor <;> intro heq <;> omega

theorem seen_poll (b : Bench) (r : Round) : (b.poll r).Seen := rfl

/-- After every round the clicks add up to the detents the knob went on, exactly if it
never leaves the low phase of the clock line where it entered it. -/
theorem clicks_right_iff (k lastSw lastBack : ℤ) (rounds : List Round) :
    (∀ p, p <+: rounds → netClicks (p.foldl poll (resting k lastSw lastBack)).pushed =
        (p.foldl poll (resting k lastSw lastBack)).dial.heading - k) ↔
      ∀ p r q, rounds = p ++ r :: q →
        ¬ (p.foldl poll (resting k lastSw lastBack)).dial.Slips r.turn := by
  have hseen (p : List Round) : (p.foldl poll (resting k lastSw lastBack)).Seen := by
    refine Runs.foldl_invariant poll Seen ?_ (fun b r _ => seen_poll b r) p
    simp [Seen, resting, clkAt, clockLow]
  have hstart : (resting k lastSw lastBack).error = -k := by
    simp [error, resting, netClicks, Dial.heading, clockLow]
  rw [← Runs.foldl_always_iff poll (fun b r => ¬ b.dial.Slips r.turn) (fun _ b => b.error = -k)
    hstart (fun p r hp => ?_) rounds]
  · refine forall₂_congr fun p _ => ?_
    unfold error
    omega
  · rw [← hp]
    exact error_poll (hseen p) r

example : let b := ([.on, .on, .back, .on].map (⟨·, 1, 1, 1⟩)).foldl poll (resting 0 1 1)
    b.pushed = [.encCw, .encCw] ∧ b.dial.heading = 1 := by
  decide

end Bench
end MybipedalDeploy.Oled
