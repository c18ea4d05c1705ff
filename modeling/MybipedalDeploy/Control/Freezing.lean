import Mathlib.Data.List.GetD
import Mathlib.Data.List.Perm.Basic
import MybipedalDeploy.Control.RingTrace

/-!
# A dump among pushes

`Push` and `Dump` run in different threads and share no lock. A push looks at `frozen_`,
stores its row word by word and only then counts it; a dump freezes the recorder, reads the
count and walks over the slots. A push that passed its test before the freeze may still be
storing while the dump reads, and the slot it stores into is that of the oldest row.
-/

namespace MybipedalDeploy.Control
open RingBuffer (slot_ne start_add_mod)
open Runs (Run)

/-- Where a call of `Push` stands; `left` are the values that are still to be copied. -/
inductive Pusher (F : Type)
  | idle
  | time (row : TraceRow F)
  | copy (row : TraceRow F) (left : List ℕ)

/-- Where the call of `Dump` stands. A row is read word by word: `part` are its words so
far. -/
inductive Dumper (F : Type)
  | idle
  | frozen
  | read (n : ℕ) (rows : List (TraceRow F)) (part : Option (TraceRow F))
  | failed
  | done (rows : List (TraceRow F))

structure Recorder (F : Type) where
  trace : RingTrace F
  pusher : Pusher F
  dumper : Dumper F
  pushed : List (TraceRow F)

def Pusher.inHand {F : Type} : Pusher F → Option (TraceRow F)
  | .idle => none
  | .time row | .copy row _ => some row

namespace Recorder
variable {F : Type}

section Words
variable {α : Type} {cap k : ℕ} {rows : List (TraceRow F)} {inHand : Option (TraceRow F)}
  {row : TraceRow F} {word : TraceRow F → α} {x : α}

/-- The rows whose words the slot of row `k` may hold. The row in hand goes over the oldest
one. -/
def candidates (cap : ℕ) (rows : List (TraceRow F)) (inHand : Option (TraceRow F)) (k : ℕ) :
    List (TraceRow F) :=
  rows[k]?.toList ++ if k + cap = rows.length then inHand.toList else []

def Shows (cap : ℕ) (rows : List (TraceRow F)) (inHand : Option (TraceRow F)) (k : ℕ)
    (word : TraceRow F → α) (x : α) : Prop :=
  ∃ row ∈ candidates cap rows inHand k, word row = x

theorem shows_inHand (hk : k + cap = rows.length) :
    Shows cap rows (some row) k word (word row) :=
  ⟨row, by simp [candidates, hk], rfl⟩

theorem Shows.take (h : Shows cap rows none k word x) : Shows cap rows inHand k word x := by
  obtain ⟨row, hrow, hx⟩ := h
  refine ⟨row, ?_, hx⟩
  simp only [candidates, Option.toList_none, ite_self, List.append_nil] at hrow
  exact List.mem_append_left _ hrow

theorem Shows.eq_or (hk : k < rows.length) (h : Shows cap rows inHand k word x) :
    x = word rows[k] ∨ ∃ new, inHand = some new ∧ x = word new := by
  obtain ⟨row, hrow, rfl⟩ := h
  rw [candidates, List.getElem?_eq_getElem hk] at hrow
  rcases List.mem_append.mp hrow with hrow | hrow
  · rw [Option.toList_some, List.mem_singleton] at hrow
    exact .inl (by rw [hrow])
  · split_ifs at hrow
    · exact .inr ⟨row, Option.mem_toList.mp hrow, rfl⟩
    · exact absurd hrow List.not_mem_nil

theorem Shows.eq (hk : k < rows.length)
    (h : Shows cap rows inHand k word x) (hkept : k + cap ≠ rows.length ∨ inHand = none) :
    x = word rows[k] := by
  obtain ⟨row, hrow, rfl⟩ := h
  have hnone : (if k + cap = rows.length then inHand.toList else []) = [] := by
    rcases hkept with hne | rfl
    · exact if_neg hne
    · simp
  rw [candidates, hnone, List.append_nil, List.getElem?_eq_getElem hk] at hrow
  rw [List.mem_singleton.mp hrow]

end Words

/-- The order in which `memcpy` copies the values is free. -/
inductive Action (F : Type)
  | push (row : TraceRow F)
  | store (order : List ℕ)
  | freeze
  | count (opened : Bool)
  | read

def slot (s : Recorder F) : ℕ := s.trace.head.toNat % s.trace.cap

structure Laid (cols : List String) (cap : ℕ) (r : RingTrace F) : Prop where
  enabled : r.enabled = true
  cols_eq : r.cols = cols
  ncols_eq : r.ncols = cols.length
  cap_eq : r.cap = cap
  times : r.tNs.length = cap
  values : r.data.length = cap * cols.length

theorem Laid.slot_eq {cols : List String} {cap : ℕ} {s : Recorder F} (h : Laid cols cap s.trace)
    (hhead : s.trace.head = BitVec.ofNat 64 s.pushed.length) (hlength : s.pushed.length < 2 ^ 64) :
    s.slot = s.pushed.length % cap := by
  rw [slot, h.cap_eq, hhead, BitVec.toNat_ofNat, Nat.mod_eq_of_lt hlength]

variable [Zero F]

def started (cols : List String) (cap : ℕ) : Recorder F :=
  ⟨RingTrace.new.init cols cap, .idle, .idle, []⟩

def storeStep (s : Recorder F) (order : List ℕ) : Option (Recorder F) :=
  match s.pusher with
  | .idle => none
  | .time row =>
    if order.Perm (List.range s.trace.ncols) then
      some { s with
        trace := { s.trace with tNs := s.trace.tNs.set s.slot row.1 }
        pusher := .copy row order }
    else none
  | .copy row (c :: left) =>
    some { s with
      trace := { s.trace with
        data := s.trace.data.set (s.slot * s.trace.ncols + c) (row.2.getD c 0) }
      pusher := .copy row left }
  | .copy row [] =>
    some { s with
      trace := { s.trace with head := s.trace.head + 1 }
      pusher := .idle
      pushed := s.pushed ++ [row] }

/-- One word of row `rows.length`, or the end of the row or of the walk. -/
def readStep (r : RingTrace F) (n : ℕ) (rows : List (TraceRow F)) :
    Option (TraceRow F) → Dumper F
  | none =>
    if rows.length < (if n < r.cap then n else r.cap) then
      .read n rows (some (r.tNs.getD ((RingBuffer.start r.cap n + rows.length) % r.cap) 0, []))
    else .done rows
  | some (t, values) =>
    if values.length < r.ncols then
      let i := (RingBuffer.start r.cap n + rows.length) % r.cap
      .read n rows (some (t, values ++ [r.data.getD (i * r.ncols + values.length) 0]))
    else .read n (rows ++ [(t, values)]) none

def step (s : Recorder F) : Action F → Option (Recorder F)
  | .push row =>
    match s.pusher with
    | .idle =>
      some (if !s.trace.enabled || s.trace.frozen then s else { s with pusher := .time row })
    | _ => none
  | .store order => s.storeStep order
  | .freeze =>
    match s.dumper with
    | .idle =>
      some (if !s.trace.enabled then { s with dumper := .failed }
        else { s with trace := { s.trace with frozen := true }, dumper := .frozen })
    | _ => none
  | .count opened =>
    match s.dumper with
    | .frozen =>
      some { s with dumper := if opened then .read s.trace.head.toNat [] none else .failed }
    | _ => none
  | .read =>
    match s.dumper with
    | .read n rows part => some { s with dumper := readStep s.trace n rows part }
    | _ => none

section Step
variable {s t : Recorder F} {order : List ℕ}

theorem storeStep_cases (h : s.storeStep order = some t) :
    (∃ row, s.pusher = .time row ∧ order.Perm (List.range s.trace.ncols) ∧
      t = { s with
        trace := { s.trace with tNs := s.trace.tNs.set s.slot row.1 }
        pusher := .copy row order }) ∨
    (∃ row c left, s.pusher = .copy row (c :: left) ∧
      t = { s with
        trace := { s.trace with
          data := s.trace.data.set (s.slot * s.trace.ncols + c) (row.2.getD c 0) }
        pusher := .copy row left }) ∨
    ∃ row, s.pusher = .copy row [] ∧
      t = { s with
        trace := { s.trace with head := s.trace.head + 1 }
        pusher := .idle
        pushed := s.pushed ++ [row] } := by
  unfold storeStep at h
  split at h
  · cases h
  next row hpusher =>
    split_ifs at h with horder
    cases h
    exact .inl ⟨row, hpusher, horder, rfl⟩
  next row c left hpusher =>
    cases h
    exact .inr (.inl ⟨row, c, left, hpusher, rfl⟩)
  next row hpusher =>
    cases h
    exact .inr (.inr ⟨row, hpusher, rfl⟩)

end Step

section Slots
variable {cols : List String} {cap : ℕ} {rows : List (TraceRow F)} {inHand : Option (TraceRow F)}
  {r : RingTrace F} {row : TraceRow F}

structure Slots (cols : List String) (cap : ℕ) (rows : List (TraceRow F))
    (inHand : Option (TraceRow F)) (r : RingTrace F) : Prop where
  time : ∀ k < rows.length, rows.length ≤ k + cap →
    Shows cap rows inHand k Prod.fst (r.tNs.getD (k % cap) 0)
  value : ∀ k < rows.length, rows.length ≤ k + cap → ∀ c < cols.length,
    Shows cap rows inHand k (fun row => row.2.getD c 0)
      (r.data.getD (k % cap * cols.length + c) 0)

theorem cell_ne {width i j c d : ℕ} (hc : c < width) (hd : d < width) (h : i ≠ j ∨ c ≠ d) :
    i * width + c ≠ j * width + d := by
  intro heq
  have hdiv : (i * width + c) / width = (j * width + d) / width := congrArg (· / width) heq
  have hpos : 0 < width := Nat.zero_lt_of_lt hc
  rw [Nat.mul_comm i, Nat.mul_comm j, Nat.mul_add_div hpos, Nat.mul_add_div hpos,
    Nat.div_eq_of_lt hc, Nat.div_eq_of_lt hd] at hdiv
  have hij : i = j := hdiv
  subst hij
  omega

theorem cell_lt {width i c : ℕ} (hi : i < cap) (hc : c < width) :
    i * width + c < cap * width :=
  calc i * width + c < i * width + width := Nat.add_lt_add_left hc _
    _ = (i + 1) * width := (Nat.succ_mul i width).symm
    _ ≤ cap * width := Nat.mul_le_mul_right width hi

theorem Slots.setTime (h : Slots cols cap rows (some row) r) (hlaid : Laid cols cap r) :
    Slots cols cap rows (some row)
      { r with tNs := r.tNs.set (rows.length % cap) row.1 } := by
  refine ⟨fun k hk hold => ?_, h.value⟩
  by_cases hoverwrite : k + cap = rows.length
  · have hslot : k % cap = rows.length % cap := by rw [← hoverwrite, Nat.add_mod_right]
    have hlt : rows.length % cap < r.tNs.length := by
      rw [hlaid.times]
      exact Nat.mod_lt _ (by omega)
    have hread : (r.tNs.set (rows.length % cap) row.1).getD (k % cap) 0 = row.1 := by
      simp [List.getD, hslot, hlt]
    rw [hread]
    exact shows_inHand hoverwrite
  · have hslot : rows.length % cap ≠ k % cap := (slot_ne hk (by omega)).symm
    have hread : (r.tNs.set (rows.length % cap) row.1).getD (k % cap) 0 = r.tNs.getD (k % cap) 0 := by
      simp [List.getD, hslot]
    rw [hread]
    exact h.time k hk hold

theorem Slots.setValue (h : Slots cols cap rows (some row) r) (hlaid : Laid cols cap r) {c : ℕ}
    (hc : c < cols.length) : Slots cols cap rows (some row)
      { r with data := r.data.set (rows.length % cap * cols.length + c) (row.2.getD c 0) } := by
  refine ⟨h.time, fun k hk hold d hd => ?_⟩
  by_cases hoverwrite : k + cap = rows.length ∧ d = c
  · obtain ⟨hk', rfl⟩ := hoverwrite
    have hslot : k % cap = rows.length % cap := by rw [← hk', Nat.add_mod_right]
    have hlt : rows.length % cap * cols.length + d < r.data.length := by
      rw [hlaid.values]
      exact cell_lt (Nat.mod_lt _ (by omega)) hd
    have hread : (r.data.set (rows.length % cap * cols.length + d) (row.2.getD d 0)).getD
        (k % cap * cols.length + d) 0 = row.2.getD d 0 := by
      rw [hslot, List.getD, List.getElem?_set_self hlt, Option.getD_some]
    rw [hread]
    exact shows_inHand hk'
  · have hcell : rows.length % cap * cols.length + c ≠ k % cap * cols.length + d := by
      refine cell_ne hc hd ?_
      by_cases hk' : k + cap = rows.length
      · exact .inr fun heq => hoverwrite ⟨hk', heq.symm⟩
      · exact .inl (slot_ne hk (by omega)).symm
    have hread : (r.data.set (rows.length % cap * cols.length + c) (row.2.getD c 0)).getD
        (k % cap * cols.length + d) 0 = r.data.getD (k % cap * cols.length + d) 0 := by
      rw [List.getD, List.getElem?_set_ne hcell, List.getD]
    rw [hread]
    exact h.value k hk hold d hd

end Slots

section Filling
variable {cols : List String} {cap : ℕ} {s t : Recorder F}

structure Stored (cols : List String) (slot : ℕ) (r : RingTrace F) (row : TraceRow F)
    (left : List ℕ) : Prop where
  time : r.tNs.getD slot 0 = row.1
  value : ∀ c < cols.length, c ∉ left →
    r.data.getD (slot * cols.length + c) 0 = row.2.getD c 0
  left : ∀ c ∈ left, c < cols.length

structure Filling (cols : List String) (cap : ℕ) (s : Recorder F) : Prop where
  laid : Laid cols cap s.trace
  head : s.trace.head = BitVec.ofNat 64 s.pushed.length
  wide : ∀ row ∈ s.pushed, row.2.length = cols.length
  wideInHand : ∀ row, s.pusher.inHand = some row → row.2.length = cols.length
  slots : Slots cols cap s.pushed s.pusher.inHand s.trace
  stored : ∀ row left, s.pusher = .copy row left →
    Stored cols (s.pushed.length % cap) s.trace row left
  stopped : s.dumper = .frozen → s.trace.frozen = true

theorem Slots.hold {rows : List (TraceRow F)} {r : RingTrace F} (h : Slots cols cap rows none r)
    (inHand : Option (TraceRow F)) : Slots cols cap rows inHand r :=
  ⟨fun k hk hold => (h.time k hk hold).take,
    fun k hk hold c hc => (h.value k hk hold c hc).take⟩

theorem filling_started (hcols : 0 < cols.length) (hcap : 0 < cap) :
    Filling cols cap (started cols cap : Recorder F) := by
  have hr := RingTrace.recorded_init hcols hcap (RingTrace.new : RingTrace F)
  have hslots : Slots cols cap [] none (started cols cap : Recorder F).trace :=
    ⟨fun _ hk => absurd hk (Nat.not_lt_zero _), fun _ hk => absurd hk (Nat.not_lt_zero _)⟩
  refine ⟨⟨hr.enabled, hr.cols_eq, hr.ncols_eq, hr.cap_eq, hr.times, hr.values⟩, hr.head,
    ?_, ?_, hslots, ?_, ?_⟩
  · exact fun row hrow => absurd hrow List.not_mem_nil
  · intro row hrow
    cases hrow
  · intro row left hrow
    cases hrow
  · intro hfrozen
    cases hfrozen

theorem Slots.append {rows : List (TraceRow F)} {r : RingTrace F} {row : TraceRow F}
    (h : Slots cols cap rows (some row) r)
    (hstored : Stored cols (rows.length % cap) r row []) :
    Slots cols cap (rows ++ [row]) none r := by
  have hlength : (rows ++ [row]).length = rows.length + 1 := by simp
  constructor
  · intro k hk hold
    rw [hlength] at hk hold
    rcases Nat.lt_or_ge k rows.length with hlt | hge
    · have hread := (h.time k hlt (by omega)).eq hlt (.inl (by omega))
      have hsame : (rows ++ [row])[k]? = some rows[k] := by
        rw [List.getElem?_append_left hlt, List.getElem?_eq_getElem hlt]
      exact ⟨rows[k], by simp [candidates, hsame], hread.symm⟩
    · obtain rfl : k = rows.length := by omega
      rw [hstored.time]
      exact ⟨row, by simp [candidates], rfl⟩
  · intro k hk hold c hc
    rw [hlength] at hk hold
    rcases Nat.lt_or_ge k rows.length with hlt | hge
    · have hread := (h.value k hlt (by omega) c hc).eq hlt (.inl (by omega))
      have hsame : (rows ++ [row])[k]? = some rows[k] := by
        rw [List.getElem?_append_left hlt, List.getElem?_eq_getElem hlt]
      exact ⟨rows[k], by simp [candidates, hsame], hread.symm⟩
    · obtain rfl : k = rows.length := by omega
      rw [hstored.value c hc (List.not_mem_nil)]
      exact ⟨row, by simp [candidates], rfl⟩

theorem Filling.store (h : Filling cols cap s) (hcap : 0 < cap)
    (hlength : s.pushed.length < 2 ^ 64) {order : List ℕ} (hstep : s.storeStep order = some t) :
    Filling cols cap t := by
  have hslot := h.laid.slot_eq h.head hlength
  have hslots := h.slots
  obtain ⟨row, hpusher, horder, rfl⟩ | ⟨row, c, left, hpusher, rfl⟩ | ⟨row, hpusher, rfl⟩ :=
    storeStep_cases hstep
  · rw [hpusher] at hslots
    rw [h.laid.ncols_eq] at horder
    refine ⟨?_, h.head, h.wide, fun row' hrow' => ?_, ?_, fun row' left hrow' => ?_, h.stopped⟩
    · refine ⟨h.laid.enabled, h.laid.cols_eq, h.laid.ncols_eq, h.laid.cap_eq, ?_, h.laid.values⟩
      rw [List.length_set, h.laid.times]
    · exact h.wideInHand row' (hpusher ▸ hrow')
    · rw [hslot]
      exact hslots.setTime h.laid
    · cases hrow'
      refine ⟨?_, fun c hc hleft => ?_, fun c hleft => ?_⟩
      · have hlt : s.pushed.length % cap < s.trace.tNs.length := by
          rw [h.laid.times]
          exact Nat.mod_lt _ hcap
        rw [hslot, List.getD, List.getElem?_set_self hlt, Option.getD_some]
      · exact absurd (horder.mem_iff.mpr (List.mem_range.mpr hc)) hleft
      · exact List.mem_range.mp (horder.mem_iff.mp hleft)
  · rw [hpusher] at hslots
    have hrow := h.stored row (c :: left) hpusher
    have hc := hrow.left c List.mem_cons_self
    rw [hslot, h.laid.ncols_eq]
    refine ⟨?_, h.head, h.wide, fun row' hrow' => ?_, hslots.setValue h.laid hc,
      fun row' left' hrow' => ?_, h.stopped⟩
    · refine ⟨h.laid.enabled, h.laid.cols_eq, h.laid.ncols_eq, h.laid.cap_eq, h.laid.times, ?_⟩
      rw [List.length_set, h.laid.values]
    · exact h.wideInHand row' (hpusher ▸ hrow')
    · cases hrow'
      refine ⟨hrow.time, fun d hd hleft => ?_,
        fun d hleft => hrow.left d (List.mem_cons_of_mem c hleft)⟩
      by_cases hdc : d = c
      · subst hdc
        have hlt : s.pushed.length % cap * cols.length + d < s.trace.data.length := by
          rw [h.laid.values]
          exact cell_lt (Nat.mod_lt _ hcap) hd
        rw [List.getD, List.getElem?_set_self hlt, Option.getD_some]
      · rw [List.getD, List.getElem?_set_ne (cell_ne hc hd (.inr (Ne.symm hdc)))]
        exact hrow.value d hd (List.not_mem_cons_of_ne_of_not_mem hdc hleft)
  · rw [hpusher] at hslots
    have happend := hslots.append (h.stored row [] hpusher)
    refine ⟨?_, ?_, fun row' hrow' => ?_, ?_, ⟨happend.time, happend.value⟩, ?_, h.stopped⟩
    · exact ⟨h.laid.enabled, h.laid.cols_eq, h.laid.ncols_eq, h.laid.cap_eq, h.laid.times,
        h.laid.values⟩
    · rw [h.head, List.length_append, List.length_singleton]
      exact (BitVec.ofNat_add _ _).symm
    · rcases List.mem_append.mp hrow' with hrow' | hrow'
      · exact h.wide row' hrow'
      · rw [List.mem_singleton.mp hrow']
        exact h.wideInHand row (by rw [hpusher]; rfl)
    · intro row' hrow'
      cases hrow'
    · intro row' left hrow'
      cases hrow'

theorem pushed_storeStep {order : List ℕ} (hstep : s.storeStep order = some t) :
    s.pushed <+: t.pushed := by
  obtain ⟨row, _, _, rfl⟩ | ⟨row, c, left, _, rfl⟩ | ⟨row, _, rfl⟩ := storeStep_cases hstep
  · exact List.prefix_rfl
  · exact List.prefix_rfl
  · exact List.prefix_append _ _

theorem dumper_storeStep {order : List ℕ} (hstep : s.storeStep order = some t) :
    t.dumper = s.dumper := by
  obtain ⟨row, _, _, rfl⟩ | ⟨row, c, left, _, rfl⟩ | ⟨row, _, rfl⟩ := storeStep_cases hstep <;> rfl

def Before (d : Dumper F) : Prop := d = .idle ∨ d = .frozen

theorem not_before_readStep (r : RingTrace F) (n : ℕ) (rows : List (TraceRow F))
    (part : Option (TraceRow F)) : ¬ Before (readStep r n rows part) := by
  unfold readStep Before
  split <;> split_ifs <;> simp

theorem filling_step (hcap : 0 < cap) {a : Action F}
    (h : Before s.dumper → s.pushed.length < 2 ^ 64 → Filling cols cap s)
    (hwide : ∀ row, a = .push row → row.2.length = cols.length)
    (hstep : s.step a = some t) (ht : Before t.dumper) (hlength : t.pushed.length < 2 ^ 64) :
    Filling cols cap t := by
  cases a with
  | push row =>
    simp only [step] at hstep
    split at hstep
    next hpusher =>
      cases hstep
      split_ifs at hlength ht ⊢
      · exact h ht hlength
      · have hs := h ht hlength
        have hslots := hs.slots
        rw [hpusher] at hslots
        refine ⟨hs.laid, hs.head, hs.wide, fun row' hrow' => ?_, hslots.hold (some row), ?_,
          hs.stopped⟩
        · cases hrow'
          exact hwide row rfl
        · intro row' left hrow'
          cases hrow'
    next => cases hstep
  | store order =>
    have hgrows := (pushed_storeStep hstep).length_le
    have hs := h (dumper_storeStep hstep ▸ ht) (by omega)
    exact hs.store hcap (by omega) hstep
  | freeze =>
    simp only [step] at hstep
    split at hstep
    next hdumper =>
      cases hstep
      split_ifs at hlength ht ⊢ with henabled
      · rcases ht with ht | ht <;> cases ht
      · have hs := h (.inl hdumper) hlength
        refine ⟨?_, hs.head, hs.wide, hs.wideInHand, ⟨hs.slots.time, hs.slots.value⟩, ?_,
          fun _ => rfl⟩
        · exact ⟨hs.laid.enabled, hs.laid.cols_eq, hs.laid.ncols_eq, hs.laid.cap_eq,
            hs.laid.times, hs.laid.values⟩
        · intro row left hrow
          have hstored := hs.stored row left hrow
          exact ⟨hstored.time, hstored.value, hstored.left⟩
    next => cases hstep
  | count opened =>
    simp only [step] at hstep
    split at hstep
    · cases hstep
      cases opened <;> rcases ht with ht | ht <;> cases ht
    · cases hstep
  | read =>
    simp only [step] at hstep
    split at hstep
    · cases hstep
      exact absurd ht (not_before_readStep _ _ _ _)
    · cases hstep

theorem filling_run (hcols : 0 < cols.length) (hcap : 0 < cap) {as : List (Action F)}
    (hwide : ∀ row, .push row ∈ as → row.2.length = cols.length)
    (h : Run step (started cols cap) as s) (hs : Before s.dumper)
    (hlength : s.pushed.length < 2 ^ 64) : Filling cols cap s := by
  refine h.guarded (fun _ a => ∀ row, a = .push row → row.2.length = cols.length)
    (fun _ s => Before s.dumper → s.pushed.length < 2 ^ 64 → Filling cols cap s)
    (fun _ _ => filling_started hcols hcap)
    (fun _ _ _ _ hs hG hstep => filling_step hcap hs hG hstep) ?_ hs hlength
  rintro p a q s' rfl _ row rfl
  exact hwide row (by simp)

end Filling

section Walking
variable {cols : List String} {cap : ℕ} {rows : List (TraceRow F)} {inHand : Option (TraceRow F)}
  {s t : Recorder F}

structure RowShown (cols : List String) (cap : ℕ) (rows : List (TraceRow F))
    (inHand : Option (TraceRow F)) (k : ℕ) (w : TraceRow F) : Prop where
  time : Shows cap rows inHand k Prod.fst w.1
  short : w.2.length ≤ cols.length
  value : ∀ c < w.2.length, Shows cap rows inHand k (fun row => row.2.getD c 0) (w.2.getD c 0)

structure Walked (cols : List String) (cap : ℕ) (rows : List (TraceRow F))
    (inHand : Option (TraceRow F)) (found : List (TraceRow F)) : Prop where
  short : found.length ≤ min rows.length cap
  shown : ∀ j (hj : j < found.length),
    RowShown cols cap rows inHand (rows.length - cap + j) found[j] ∧
      found[j].2.length = cols.length

def Reading (cols : List String) (cap : ℕ) (rows : List (TraceRow F))
    (inHand : Option (TraceRow F)) : Dumper F → Prop
  | .idle | .frozen => False
  | .read n found part => n = rows.length ∧ Walked cols cap rows inHand found ∧
      ∀ w, part = some w → found.length < min rows.length cap ∧
        RowShown cols cap rows inHand (rows.length - cap + found.length) w
  | .failed => True
  | .done found => Walked cols cap rows inHand found ∧ found.length = min rows.length cap

structure Walking (cols : List String) (cap : ℕ) (rows : List (TraceRow F))
    (inHand : Option (TraceRow F)) (s : Recorder F) : Prop where
  laid : Laid cols cap s.trace
  frozen : s.trace.frozen = true
  slots : Slots cols cap rows inHand s.trace
  busy : ∀ row, s.pusher.inHand = some row → inHand = some row ∧ s.slot = rows.length % cap
  left : ∀ row left, s.pusher = .copy row left → ∀ c ∈ left, c < cols.length
  reading : Reading cols cap rows inHand s.dumper

theorem Walked.readStep {r : RingTrace F} (hlaid : Laid cols cap r)
    (hslots : Slots cols cap rows inHand r) {n : ℕ} {found : List (TraceRow F)}
    {part : Option (TraceRow F)} (h : Reading cols cap rows inHand (.read n found part)) :
    Reading cols cap rows inHand (readStep r n found part) := by
  obtain ⟨rfl, hwalked, hpart⟩ := h
  have hcount : (if rows.length < cap then rows.length else cap) = min rows.length cap := by
    split_ifs <;> omega
  have hshort := hwalked.short
  cases part with
  | none =>
    simp only [Recorder.readStep, hlaid.cap_eq, hcount]
    split_ifs with hmore
    · refine ⟨rfl, hwalked, fun w hw => ⟨hmore, ?_⟩⟩
      cases hw
      rw [start_add_mod]
      exact ⟨hslots.time _ (by omega) (by omega), Nat.zero_le _,
        fun c hc => absurd hc (Nat.not_lt_zero c)⟩
    · exact ⟨hwalked, by omega⟩
  | some w =>
    obtain ⟨time, values⟩ := w
    obtain ⟨hmore, hshown⟩ := hpart _ rfl
    simp only [Recorder.readStep, hlaid.cap_eq, hlaid.ncols_eq]
    split_ifs with hwords
    · refine ⟨rfl, hwalked, fun w hw => ⟨hmore, ?_⟩⟩
      cases hw
      rw [start_add_mod]
      refine ⟨hshown.time, ?_, fun c hc => ?_⟩
      · rw [List.length_append, List.length_singleton]
        exact hwords
      · rw [List.length_append, List.length_singleton] at hc
        rcases Nat.lt_or_ge c values.length with hlt | hge
        · rw [List.getD_append _ _ _ _ hlt]
          exact hshown.value c hlt
        · obtain rfl : c = values.length := by omega
          rw [List.getD_append_right _ _ _ _ hge, Nat.sub_self, List.getD_cons_zero]
          exact hslots.value _ (by omega) (by omega) _ hwords
    · refine ⟨rfl, ⟨?_, fun j hj => ?_⟩, fun w hw => nomatch hw⟩
      · rw [List.length_append, List.length_singleton]
        omega
      · have hwide : values.length = cols.length :=
          Nat.le_antisymm hshown.short (Nat.not_lt.mp hwords)
        rw [List.length_append, List.length_singleton] at hj
        rcases Nat.lt_or_ge j found.length with hlt | hge
        · rw [List.getElem_append_left hlt]
          exact hwalked.shown j hlt
        · obtain rfl : j = found.length := by omega
          rw [List.getElem_concat_length rfl]
          exact ⟨hshown, hwide⟩

theorem Filling.count (h : Filling cols cap s) (hlength : s.pushed.length < 2 ^ 64)
    (hstep : s.step (.count true) = some t) :
    Walking cols cap s.pushed s.pusher.inHand t := by
  simp only [step] at hstep
  split at hstep
  next hdumper =>
    cases hstep
    have hhead : s.trace.head.toNat = s.pushed.length := by
      rw [h.head, BitVec.toNat_ofNat, Nat.mod_eq_of_lt hlength]
    refine ⟨h.laid, h.stopped hdumper, h.slots, fun row hrow => ⟨hrow, ?_⟩,
      fun row left hrow => (h.stored row left hrow).left, hhead, ⟨Nat.zero_le _, ?_⟩, ?_⟩
    · exact h.laid.slot_eq h.head hlength
    · exact fun j hj => absurd hj (Nat.not_lt_zero j)
    · exact fun w hw => nomatch hw
  next => cases hstep

theorem Walking.store (h : Walking cols cap rows inHand s) {order : List ℕ}
    (hstep : s.storeStep order = some t) : Walking cols cap rows inHand t := by
  have hreading := h.reading
  rw [← dumper_storeStep hstep] at hreading
  obtain ⟨row, hpusher, horder, rfl⟩ | ⟨row, c, left, hpusher, rfl⟩ | ⟨row, hpusher, rfl⟩ :=
    storeStep_cases hstep
  · obtain ⟨rfl, hslot⟩ := h.busy row (by rw [hpusher]; rfl)
    rw [h.laid.ncols_eq] at horder
    refine ⟨?_, h.frozen, ?_, fun row' hrow' => ?_, fun row' left hrow' c hc => ?_, hreading⟩
    · refine ⟨h.laid.enabled, h.laid.cols_eq, h.laid.ncols_eq, h.laid.cap_eq, ?_, h.laid.values⟩
      rw [List.length_set, h.laid.times]
    · rw [hslot]
      exact h.slots.setTime h.laid
    · cases hrow'
      exact ⟨rfl, hslot⟩
    · cases hrow'
      exact List.mem_range.mp (horder.mem_iff.mp hc)
  · obtain ⟨rfl, hslot⟩ := h.busy row (by rw [hpusher]; rfl)
    have hleft := h.left row (c :: left) hpusher
    refine ⟨?_, h.frozen, ?_, fun row' hrow' => ?_, fun row' left' hrow' d hd => ?_, hreading⟩
    · refine ⟨h.laid.enabled, h.laid.cols_eq, h.laid.ncols_eq, h.laid.cap_eq, h.laid.times, ?_⟩
      rw [List.length_set, h.laid.values]
    · rw [hslot, h.laid.ncols_eq]
      exact h.slots.setValue h.laid (hleft c List.mem_cons_self)
    · cases hrow'
      exact ⟨rfl, hslot⟩
    · cases hrow'
      exact hleft d (List.mem_cons_of_mem c hd)
  · refine ⟨?_, h.frozen, ⟨h.slots.time, h.slots.value⟩, fun row' hrow' => ?_,
      fun row' left' hrow' => ?_, hreading⟩
    · exact ⟨h.laid.enabled, h.laid.cols_eq, h.laid.ncols_eq, h.laid.cap_eq, h.laid.times,
        h.laid.values⟩
    · cases hrow'
    · cases hrow'

theorem walking_step (h : Walking cols cap rows inHand s) {a : Action F}
    (hstep : s.step a = some t) : Walking cols cap rows inHand t := by
  have hreading := h.reading
  cases a with
  | push row =>
    simp only [step, h.frozen, Bool.or_true, if_true] at hstep
    split at hstep
    · cases hstep
      exact h
    · cases hstep
  | store order => exact h.store hstep
  | freeze =>
    simp only [step] at hstep
    split at hstep
    next hdumper =>
      rw [hdumper] at hreading
      exact hreading.elim
    next => cases hstep
  | count opened =>
    simp only [step] at hstep
    split at hstep
    next hdumper =>
      rw [hdumper] at hreading
      exact hreading.elim
    next => cases hstep
  | read =>
    simp only [step] at hstep
    split at hstep
    next n found part hdumper =>
      cases hstep
      rw [hdumper] at hreading
      exact ⟨h.laid, h.frozen, h.slots, h.busy, h.left,
        Walked.readStep h.laid h.slots hreading⟩
    next => cases hstep

theorem RowShown.eq {k : ℕ} {w : TraceRow F} (h : RowShown cols cap rows inHand k w)
    (hk : k < rows.length) (hwide : w.2.length = cols.length)
    (hrow : rows[k].2.length = cols.length) (hkept : k + cap ≠ rows.length ∨ inHand = none) :
    w = rows[k] := by
  refine Prod.ext (h.time.eq hk hkept) (List.ext_getElem (hwide.trans hrow.symm) ?_)
  intro c hc hc'
  have hvalue := (h.value c hc).eq hk hkept
  rwa [List.getD_eq_getElem _ _ hc, List.getD_eq_getElem _ _ hc'] at hvalue

end Walking

/-- Each word of a row comes from one of two rows. -/
structure Torn (old new w : TraceRow F) : Prop where
  length : w.2.length = old.2.length
  time : w.1 = old.1 ∨ w.1 = new.1
  value : ∀ c < w.2.length, w.2.getD c 0 = old.2.getD c 0 ∨ w.2.getD c 0 = new.2.getD c 0

structure Found (cap : ℕ) (rows : List (TraceRow F)) (inHand : Option (TraceRow F))
    (found : List (TraceRow F)) : Prop where
  length : found.length = min rows.length cap
  newer : found.tail = (rows.drop (rows.length - cap)).tail
  whole : rows.length < cap ∨ inHand = none → found = rows.drop (rows.length - cap)
  oldest : ∀ old new w, (rows.drop (rows.length - cap)).head? = some old → inHand = some new →
    found.head? = some w → Torn old new w

section Found
variable {cols : List String} {cap : ℕ} {rows : List (TraceRow F)} {inHand : Option (TraceRow F)}
  {s t : Recorder F} {found : List (TraceRow F)}

theorem Walked.toFound (h : Walked cols cap rows inHand found)
    (hlength : found.length = min rows.length cap)
    (hwide : ∀ row ∈ rows, row.2.length = cols.length) : Found cap rows inHand found := by
  have hnewest : ∀ j (hj : j < found.length), rows.length - cap + j < rows.length :=
    fun j hj => by omega
  have hsame : ∀ j (hj : j < found.length),
      rows.length - cap + j + cap ≠ rows.length ∨ inHand = none →
        found[j] = rows.get ⟨rows.length - cap + j, hnewest j hj⟩ := fun j hj hkept =>
    (h.shown j hj).1.eq (hnewest j hj) (h.shown j hj).2
      (hwide _ (List.getElem_mem (hnewest j hj))) hkept
  have hdrop : (rows.drop (rows.length - cap)).length = min rows.length cap := by
    rw [List.length_drop]
    omega
  refine ⟨hlength, ?_, fun hwhole => ?_, fun old new w hold hnew hw => ?_⟩
  · refine List.ext_getElem (by rw [List.length_tail, List.length_tail, hlength, hdrop]) ?_
    intro j hj hj'
    rw [List.length_tail] at hj
    rw [List.getElem_tail, List.getElem_tail, List.getElem_drop]
    exact hsame (j + 1) (by omega) (.inl (by omega))
  · refine List.ext_getElem (hlength.trans hdrop.symm) fun j hj hj' => ?_
    rw [List.getElem_drop]
    refine hsame j hj ?_
    rcases hwhole with hroom | hnone
    · exact .inl (by omega)
    · exact .inr hnone
  · rw [List.head?_eq_getElem?] at hold hw
    obtain ⟨hpos, rfl⟩ := List.getElem?_eq_some_iff.mp hw
    obtain ⟨_, rfl⟩ := List.getElem?_eq_some_iff.mp hold
    obtain ⟨hshown, hwidth⟩ := h.shown 0 hpos
    have hk := hnewest 0 hpos
    have hrow := hwide _ (List.getElem_mem hk)
    rw [List.getElem_drop]
    refine ⟨hwidth.trans hrow.symm, ?_, fun c hc => ?_⟩
    · obtain htime | ⟨new', hnew', htime⟩ := hshown.time.eq_or hk
      · exact .inl htime
      · cases hnew.symm.trans hnew'
        exact .inr htime
    · obtain hvalue | ⟨new', hnew', hvalue⟩ := (hshown.value c hc).eq_or hk
      · exact .inl hvalue
      · cases hnew.symm.trans hnew'
        exact .inr hvalue

theorem Filling.window (h : Filling cols cap s) (hcap : 0 < cap) (hidle : s.pusher.inHand = none) :
    RingBuffer.Window cap s.trace.readRow s.pushed := by
  have hslots := h.slots
  rw [hidle] at hslots
  intro k hk hold
  have hslot : k % cap < cap := Nat.mod_lt k hcap
  have hrow : s.pushed[k].2.length = cols.length := h.wide _ (List.getElem_mem hk)
  have hroom : k % cap * cols.length + cols.length ≤ s.trace.data.length := by
    rw [h.laid.values, ← Nat.succ_mul]
    exact Nat.mul_le_mul_right _ hslot
  refine Prod.ext ((hslots.time k hk hold).eq hk (.inr rfl)) (List.ext_getElem ?_ ?_)
  · simp only [RingTrace.readRow, RingBuffer.row, h.laid.ncols_eq, List.length_take,
      List.length_drop]
    omega
  · intro c hc hc'
    have hvalue := (hslots.value k hk hold c (hrow ▸ hc')).eq hk (.inr rfl)
    have hcell : k % cap * cols.length + c < s.trace.data.length := by omega
    rw [List.getD_eq_getElem _ _ hcell, List.getD_eq_getElem _ _ hc'] at hvalue
    simp only [RingTrace.readRow, RingBuffer.row, h.laid.ncols_eq, List.getElem_take,
      List.getElem_drop]
    exact hvalue

theorem Filling.dump_lines (h : Filling cols cap s) (hcap : 0 < cap)
    (hlength : s.pushed.length < 2 ^ 64) (hidle : s.pusher.inHand = none)
    (io : Printer F) (originNs : BitVec 64) : (s.trace.dump io true originNs).lines =
      RingTrace.header cols ::
        (s.pushed.drop (s.pushed.length - cap)).map (RingTrace.line io originNs) := by
  have hhead : s.trace.head.toNat = s.pushed.length := by
    rw [h.head, BitVec.toNat_ofNat, Nat.mod_eq_of_lt hlength]
  have hcount : (if s.pushed.length < cap then s.pushed.length else cap) =
      min s.pushed.length cap := by
    split_ifs <;> omega
  rw [← (h.window hcap hidle).newest]
  simp only [RingTrace.dump, h.laid.enabled, h.laid.cap_eq, h.laid.cols_eq, hhead, hcount,
    Bool.not_true, Bool.false_eq_true, if_false]
  rfl

/-- Whatever is pushed meanwhile: the rows found are the newest of those that were counted
when the dump read the count, the oldest of them excepted, whose words may be those of the
row that was in hand. Where none was, the file is that of an undisturbed dump. -/
theorem dump_keeps (hcols : 0 < cols.length) (hcap : 0 < cap) {p q : List (Action F)}
    {s' : Recorder F} (hwide : ∀ row, .push row ∈ p → row.2.length = cols.length)
    (h : Run step (started cols cap) p s) (hlength : s.pushed.length < 2 ^ 64)
    (hcount : s.step (.count true) = some s') (h' : Run step s' q t)
    (hdone : t.dumper = .done found) (io : Printer F) (originNs : BitVec 64) :
    Found cap s.pushed s.pusher.inHand found ∧
      (s.pusher.inHand = none → RingTrace.header cols :: found.map (RingTrace.line io originNs) =
        (s.trace.dump io true originNs).lines) := by
  have hbefore : Before s.dumper := by
    simp only [step] at hcount
    split at hcount
    next hfrozen => exact .inr hfrozen
    next => cases hcount
  have hfilling := filling_run hcols hcap hwide h hbefore hlength
  have hwalking : Walking cols cap s.pushed s.pusher.inHand t :=
    h'.invariant _ (hfilling.count hlength hcount) fun _ _ _ hs hstep => walking_step hs hstep
  have hreading := hwalking.reading
  rw [hdone] at hreading
  have hfound := hreading.1.toFound hreading.2 hfilling.wide
  refine ⟨hfound, fun hidle => ?_⟩
  rw [hfilling.dump_lines hcap hlength hidle, hfound.whole (.inr hidle)]

def stores : List (Action ℕ) := [.store [0], .store [], .store []]

def beforeCount : List (Action ℕ) :=
  .push (1, [10]) :: stores ++ .push (2, [20]) :: stores ++ [.push (3, [30]), .freeze]

def afterCount : List (Action ℕ) :=
  [.store [0], .read, .read, .store [], .read, .store [], .read, .read, .read, .read]

theorem dump_keeps_torn :
    Found 2 [(1, [10]), (2, [20])] (some (3, [30])) [(3, [10]), ((2, [20]) : TraceRow ℕ)] := by
  obtain ⟨s, hrun, hpushed, hinHand, s', hcount, t, hrun', hdone⟩ : ∃ s,
      Run step (started ["x"] 2) beforeCount s ∧ s.pushed = [(1, [10]), (2, [20])] ∧
      s.pusher.inHand = some (3, [30]) ∧ ∃ s', s.step (.count true) = some s' ∧
        ∃ t, Run step s' afterCount t ∧ t.dumper = .done [(3, [10]), (2, [20])] :=
    ⟨_, Runs.run_of_exec beforeCount rfl, rfl, rfl, _, rfl, _, Runs.run_of_exec afterCount rfl, rfl⟩
  have hwide : ∀ row, .push row ∈ beforeCount → row.2.length = 1 := by
    intro row hrow
    have hrows : row = (1, [10]) ∨ row = (2, [20]) ∨ row = (3, [30]) := by
      simpa [beforeCount, stores] using hrow
    rcases hrows with rfl | rfl | rfl <;> rfl
  have hfound := (dump_keeps (by decide) (by decide) hwide hrun
    (by rw [hpushed]; decide) hcount hrun' hdone RingTrace.plain 0).1
  rwa [hpushed, hinHand] at hfound

end Found

end Recorder
end MybipedalDeploy.Control
