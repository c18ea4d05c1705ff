import Mathlib.Data.List.Pairwise
import Mathlib.Logic.Function.Basic
import Mathlib.Tactic.SplitIfs

/-!
# Values relayed from registers

Each key has a register. What is written there is copied to the outlet while it is
in place, or taken out to wait and passed on later. Stamps number the writes. The
outlet keeps their order as long as nothing passes a value that waits.
-/

namespace MybipedalDeploy.Relay

structure Item (κ φ : Type*) where
  key : κ
  stamp : ℕ
  payload : φ

structure State (κ φ : Type*) where
  clock : ℕ
  latest : κ → ℕ
  waiting : List (Item κ φ)
  sent : List (Item κ φ)

namespace State
variable {κ φ : Type*}

def new : State κ φ := ⟨1, fun _ => 0, [], []⟩

def copy (r : State κ φ) (k : κ) (v : φ) : State κ φ :=
  { r with sent := r.sent ++ [⟨k, r.latest k, v⟩] }

def drop (r : State κ φ) (i : ℕ) : State κ φ := { r with waiting := r.waiting.eraseIdx i }

def pass (r : State κ φ) (i : ℕ) (a : Item κ φ) : State κ φ :=
  { r.drop i with sent := r.sent ++ [a] }

def InOrder (r : State κ φ) : Prop :=
  r.sent.Pairwise fun a b => a.key = b.key → a.stamp ≤ b.stamp

structure Sound (r : State κ φ) : Prop where
  latest_lt : ∀ k, r.latest k < r.clock
  waiting_lt : ∀ a ∈ r.waiting, a.stamp < r.latest a.key
  sent_le : ∀ a ∈ r.sent, a.stamp ≤ r.latest a.key

structure Timely (r : State κ φ) : Prop where
  inOrder : r.InOrder
  ahead : ∀ a ∈ r.sent, ∀ b ∈ r.waiting, a.key = b.key → a.stamp ≤ b.stamp

variable {r : State κ φ}

theorem inOrder_concat {xs : List (Item κ φ)} {a : Item κ φ} :
    (xs ++ [a]).Pairwise (fun a b => a.key = b.key → a.stamp ≤ b.stamp) ↔
      xs.Pairwise (fun a b => a.key = b.key → a.stamp ≤ b.stamp) ∧
        ∀ b ∈ xs, b.key = a.key → b.stamp ≤ a.stamp := by
  simp [List.pairwise_append]

theorem Sound.new : (State.new : State κ φ).Sound :=
  ⟨fun _ => Nat.zero_lt_one, by simp [State.new], by simp [State.new]⟩

theorem Timely.new : (State.new : State κ φ).Timely :=
  ⟨List.Pairwise.nil, by simp [State.new]⟩

theorem Sound.copy (h : r.Sound) (k : κ) (v : φ) : (r.copy k v).Sound := by
  refine ⟨h.latest_lt, h.waiting_lt, fun a ha => ?_⟩
  rcases List.mem_append.mp ha with ha | ha
  · exact h.sent_le a ha
  · rw [List.mem_singleton.mp ha]
    exact Nat.le_refl _

theorem Sound.drop (h : r.Sound) (i : ℕ) : (r.drop i).Sound :=
  ⟨h.latest_lt, fun a ha => h.waiting_lt a (List.mem_of_mem_eraseIdx ha), h.sent_le⟩

theorem Sound.pass (h : r.Sound) {i : ℕ} {a : Item κ φ} (hi : r.waiting[i]? = some a) :
    (r.pass i a).Sound := by
  refine ⟨h.latest_lt, (h.drop i).waiting_lt, fun b hb => ?_⟩
  rcases List.mem_append.mp hb with hb | hb
  · exact h.sent_le b hb
  · rw [List.mem_singleton.mp hb]
    exact Nat.le_of_lt (h.waiting_lt a (List.mem_of_getElem? hi))

theorem Timely.copy (h : r.Timely) (hr : r.Sound) {k : κ} (v : φ)
    (hk : ∀ a ∈ r.waiting, a.key ≠ k) : (r.copy k v).Timely := by
  constructor
  · refine inOrder_concat.mpr ⟨h.inOrder, fun b hb hkey => ?_⟩
    have hle := hr.sent_le b hb
    rwa [hkey] at hle
  · intro a ha b hb hkey
    rcases List.mem_append.mp ha with ha | ha
    · exact h.ahead a ha b hb hkey
    · rw [List.mem_singleton.mp ha] at hkey
      exact absurd hkey.symm (hk b hb)

theorem Timely.drop (h : r.Timely) (i : ℕ) : (r.drop i).Timely :=
  ⟨h.inOrder, fun a ha b hb => h.ahead a ha b (List.mem_of_mem_eraseIdx hb)⟩

theorem Timely.pass (h : r.Timely) {i : ℕ} {a : Item κ φ} (hi : r.waiting[i]? = some a)
    (hfirst : ∀ b ∈ r.waiting, b.key = a.key → a.stamp ≤ b.stamp) : (r.pass i a).Timely := by
  constructor
  · exact inOrder_concat.mpr ⟨h.inOrder, fun b hb => h.ahead b hb a (List.mem_of_getElem? hi)⟩
  · intro b hb c hc hkey
    have hc := List.mem_of_mem_eraseIdx hc
    rcases List.mem_append.mp hb with hb | hb
    · exact h.ahead b hb c hc hkey
    · rw [List.mem_singleton.mp hb] at hkey ⊢
      exact hfirst c hc hkey.symm

theorem not_inOrder_of_passed {a : Item κ φ} (ha : a ∈ r.sent) {i : ℕ} {b : Item κ φ}
    (hkey : a.key = b.key) (hnewer : b.stamp < a.stamp) : ¬ (r.pass i b).InOrder := by
  intro h
  have hle := (inOrder_concat.mp h).2 a ha hkey
  omega

section Write
variable [DecidableEq κ]

def write (r : State κ φ) (k : κ) : State κ φ :=
  { r with clock := r.clock + 1, latest := Function.update r.latest k r.clock }

/-- Taking the value out leaves a cleared register, which counts as a write. -/
def take (r : State κ φ) (k : κ) (v : φ) : State κ φ :=
  { r.write k with waiting := r.waiting ++ [⟨k, r.latest k, v⟩] }

theorem latest_le_write (h : r.Sound) (k k' : κ) : r.latest k' ≤ (r.write k).latest k' := by
  have hlt := h.latest_lt k'
  simp only [write, Function.update_apply]
  split_ifs
  · exact Nat.le_of_lt hlt
  · exact Nat.le_refl _

theorem Sound.write (h : r.Sound) (k : κ) : (r.write k).Sound := by
  refine ⟨fun k' => ?_, fun a ha => ?_, fun a ha => ?_⟩
  · have hlt := h.latest_lt k'
    simp only [State.write, Function.update_apply]
    split_ifs <;> omega
  · exact Nat.lt_of_lt_of_le (h.waiting_lt a ha) (latest_le_write h k a.key)
  · exact Nat.le_trans (h.sent_le a ha) (latest_le_write h k a.key)

theorem Timely.write (h : r.Timely) (k : κ) : (r.write k).Timely := ⟨h.inOrder, h.ahead⟩

theorem Sound.take (h : r.Sound) (k : κ) (v : φ) : (r.take k v).Sound := by
  have hwrite := h.write k
  refine ⟨hwrite.latest_lt, fun a ha => ?_, hwrite.sent_le⟩
  rcases List.mem_append.mp ha with ha | ha
  · exact hwrite.waiting_lt a ha
  · rw [List.mem_singleton.mp ha]
    simpa [State.take, State.write] using h.latest_lt k

theorem Timely.take (h : r.Timely) (hr : r.Sound) (k : κ) (v : φ) : (r.take k v).Timely := by
  refine ⟨h.inOrder, fun a ha b hb hkey => ?_⟩
  rcases List.mem_append.mp hb with hb | hb
  · exact h.ahead a ha b hb hkey
  · rw [List.mem_singleton.mp hb] at hkey ⊢
    have hle := hr.sent_le a ha
    rwa [hkey] at hle

end Write
end State
end MybipedalDeploy.Relay
