import Mathlib.Logic.Function.Basic
import Mathlib.Data.List.Basic

/-!
# A cell of several words with a version count

One writer replaces the words one by one; the count is odd while a write is under
way. `log` keeps the values written, the initial one first. A copy whose words
were taken while the count stayed at an even number is the value of that count.
-/

namespace MybipedalDeploy.VersionedCell

variable {ι : Type*} {β : ι → Type*}

structure Cell (β : ι → Type*) where
  word : (i : ι) → β i
  /-- The value being written, with the words still to be stored. -/
  writing : Option (((i : ι) → β i) × List ι)
  count : ℕ
  log : List ((i : ι) → β i)

namespace Cell

def init (v : (i : ι) → β i) : Cell β := ⟨v, none, 0, [v]⟩

section Operations
variable (c : Cell β)

def start (v : (i : ι) → β i) (order : List ι) : Cell β :=
  { c with writing := some (v, order), count := c.count + 1, log := c.log ++ [v] }

def store [DecidableEq ι] : Cell β :=
  match c.writing with
  | some (v, i :: left) =>
    { c with word := Function.update c.word i (v i), writing := some (v, left) }
  | _ => c

def finish : Cell β := { c with writing := none, count := c.count + 1 }

@[simp] theorem store_count [DecidableEq ι] : c.store.count = c.count := by
  unfold store
  split <;> rfl

@[simp] theorem store_log [DecidableEq ι] : c.store.log = c.log := by
  unfold store
  split <;> rfl

end Operations

structure WellFormed (c : Cell β) : Prop where
  parity : c.writing = none ↔ c.count % 2 = 0
  idle : c.writing = none → c.word ∈ c.log
  busy : ∀ v left, c.writing = some (v, left) → v ∈ c.log ∧ ∀ i ∉ left, c.word i = v i

variable {c : Cell β}

theorem wellFormed_init (v : (i : ι) → β i) : (init v).WellFormed :=
  ⟨by simp [init], fun _ => by simp [init], fun _ _ h => by simp [init] at h⟩

theorem WellFormed.start (h : c.WellFormed) (hidle : c.writing = none) (v : (i : ι) → β i)
    {order : List ι} (horder : ∀ i, i ∈ order) : (c.start v order).WellFormed := by
  refine ⟨?_, fun hnone => (nomatch hnone), fun v' left hw => ?_⟩
  · have heven := h.parity.mp hidle
    simp only [Cell.start, reduceCtorEq, false_iff]
    omega
  · cases hw
    exact ⟨by simp [Cell.start], fun i hi => absurd (horder i) hi⟩

theorem WellFormed.store [DecidableEq ι] (h : c.WellFormed) : c.store.WellFormed := by
  unfold Cell.store
  split
  next v i left hw =>
    refine ⟨?_, fun hnone => (nomatch hnone), fun v' left' hw' => ?_⟩
    · have hodd := h.parity
      simpa [hw] using hodd
    · cases hw'
      obtain ⟨hv, hdone⟩ := h.busy v (i :: left) hw
      refine ⟨hv, fun j hj => ?_⟩
      by_cases hji : j = i
      · subst hji
        simp
      · simpa [hji] using hdone j (by simp [hji, hj])
  next => exact h

theorem WellFormed.finish (h : c.WellFormed) {v : (i : ι) → β i}
    (hlast : c.writing = some (v, [])) : c.finish.WellFormed := by
  obtain ⟨hv, hdone⟩ := h.busy v [] hlast
  refine ⟨?_, fun _ => ?_, fun _ _ hw => nomatch hw⟩
  · have hodd : ¬ c.count % 2 = 0 := fun heven => by simp [h.parity.mpr heven] at hlast
    simp only [Cell.finish, true_iff]
    omega
  · have hword : c.word = v := funext fun i => hdone i (by simp)
    rwa [Cell.finish, hword]

end Cell

structure Copy (β : ι → Type*) where
  since : ℕ
  out : (i : ι) → β i
  left : List ι

namespace Copy

def take [DecidableEq ι] (r : Copy β) (c : Cell β) : Copy β :=
  match r.left with
  | [] => r
  | i :: left => { r with out := Function.update r.out i (c.word i), left := left }

/-- As long as the count has not moved, the words taken are those of the cell. -/
structure Faithful (c : Cell β) (r : Copy β) : Prop where
  even : r.since % 2 = 0
  le : r.since ≤ c.count
  same : c.count = r.since → ∀ i ∉ r.left, r.out i = c.word i

variable {c : Cell β} {r : Copy β}

theorem faithful_begin (heven : c.count % 2 = 0) (out : (i : ι) → β i) {order : List ι}
    (horder : ∀ i, i ∈ order) : Faithful c ⟨c.count, out, order⟩ :=
  ⟨heven, Nat.le_refl _, fun _ i hi => absurd (horder i) hi⟩

theorem Faithful.take [DecidableEq ι] (h : Faithful c r) : Faithful c (r.take c) := by
  obtain ⟨since, out, left⟩ := r
  cases left with
  | nil => exact h
  | cons i left =>
    refine ⟨h.even, h.le, fun hcount j hj => ?_⟩
    by_cases hji : j = i
    · subst hji
      simp [Copy.take]
    · have hj' : j ∉ i :: left := by simpa [Copy.take, hji] using hj
      simpa [Copy.take, hji] using h.same hcount j hj'

theorem Faithful.start (h : Faithful c r) (v : (i : ι) → β i) (order : List ι) :
    Faithful (c.start v order) r := by
  have hle := h.le
  exact ⟨h.even, Nat.le_succ_of_le hle, fun hcount => by simp only [Cell.start] at hcount; omega⟩

theorem Faithful.finish (h : Faithful c r) : Faithful c.finish r := by
  have hle := h.le
  exact ⟨h.even, Nat.le_succ_of_le hle, fun hcount => by simp only [Cell.finish] at hcount; omega⟩

theorem Faithful.store [DecidableEq ι] (hc : c.WellFormed) (h : Faithful c r) :
    Faithful c.store r := by
  unfold Cell.store
  split
  next v i left hw =>
    refine ⟨h.even, h.le, fun hcount => ?_⟩
    have heven : c.count % 2 = 0 := by
      have hsince := h.even
      rwa [← show c.count = r.since from hcount] at hsince
    simp [hc.parity.mpr heven] at hw
  next => exact h

theorem Faithful.complete (hc : c.WellFormed) (h : Faithful c r) (hleft : r.left = [])
    (hcount : c.count = r.since) : r.out ∈ c.log := by
  have hout : r.out = c.word := funext fun i => h.same hcount i (by simp [hleft])
  rw [hout]
  exact hc.idle (hc.parity.mpr (hcount ▸ h.even))

end Copy

section Numbered

structure Numbered (c : Cell β) : Prop where
  length : c.log.length = (c.count + 1) / 2 + 1
  idle : c.writing = none → c.log[c.count / 2]? = some c.word
  busy : ∀ v left, c.writing = some (v, left) → c.log[(c.count + 1) / 2]? = some v

variable {c : Cell β}

theorem numbered_init (v : (i : ι) → β i) : Numbered (Cell.init v) :=
  ⟨by simp [Cell.init], fun _ => by simp [Cell.init], fun _ _ h => nomatch h⟩

theorem Numbered.start (h : Numbered c) (hc : c.WellFormed) (hidle : c.writing = none)
    (v : (i : ι) → β i) (order : List ι) : Numbered (c.start v order) := by
  have heven := hc.parity.mp hidle
  have hlength := h.length
  refine ⟨?_, fun hnone => (nomatch hnone), fun v' left hw => ?_⟩
  · simp only [Cell.start, List.length_append, List.length_singleton]
    omega
  · cases hw
    have hlast : (c.count + 1 + 1) / 2 = c.log.length := by omega
    simp only [Cell.start, hlast, List.getElem?_concat_length]

theorem Numbered.store [DecidableEq ι] (h : Numbered c) : Numbered c.store := by
  unfold Cell.store
  split
  next v i left hw =>
    refine ⟨h.length, fun hnone => (nomatch hnone), fun v' left' hw' => ?_⟩
    cases hw'
    exact h.busy v (i :: left) hw
  next => exact h

theorem Numbered.finish (h : Numbered c) (hc : c.WellFormed) {v : (i : ι) → β i}
    (hlast : c.writing = some (v, [])) : Numbered c.finish := by
  have hodd : ¬ c.count % 2 = 0 := fun heven => by simp [hc.parity.mpr heven] at hlast
  have hlength := h.length
  have hword : c.word = v := funext fun i => (hc.busy v [] hlast).2 i (by simp)
  refine ⟨?_, fun _ => ?_, fun _ _ hw => nomatch hw⟩
  · simp only [Cell.finish]
    omega
  · rw [Cell.finish, hword]
    exact h.busy v [] hlast

/-- A copy that ends at the count it began at is the value of that count. -/
theorem Copy.Faithful.complete_at {r : Copy β} (h : r.Faithful c) (hc : c.WellFormed)
    (hn : Numbered c) (hleft : r.left = []) (hcount : c.count = r.since) :
    c.log[r.since / 2]? = some r.out := by
  have hout : r.out = c.word := funext fun i => h.same hcount i (by simp [hleft])
  rw [hout, ← hcount]
  exact hn.idle (hc.parity.mpr (hcount ▸ h.even))

end Numbered
end MybipedalDeploy.VersionedCell
