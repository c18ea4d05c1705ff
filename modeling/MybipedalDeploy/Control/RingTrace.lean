import Mathlib.Data.List.Induction
import MybipedalDeploy.Library.RingBuffer
import MybipedalDeploy.Library.Runs

/-!
# The flight recorder

`RingTrace` keeps the newest rows of a trace in two parallel arrays, both indexed by one
running count of 64 bits, and writes them to a file once it is frozen. What `fprintf` makes
of a time and of a value is a parameter; so is whether the file can be opened.
-/

namespace MybipedalDeploy.Control
open RingBuffer (Window)

structure RingTrace (F : Type) where
  enabled : Bool
  cols : List String
  ncols : ℕ
  cap : ℕ
  tNs : List (BitVec 64)
  data : List F
  head : BitVec 64
  frozen : Bool

/-- `"%.6f"` of the seconds from the origin to a time, and `"%.7g"` of a value. -/
structure Printer (F : Type) where
  seconds : BitVec 64 → BitVec 64 → String
  value : F → String

/-- What `Dump` leaves behind: the recorder, the count it returns and the lines written. -/
structure Dumped (F : Type) where
  trace : RingTrace F
  count : ℕ
  lines : List String

abbrev TraceRow (F : Type) := BitVec 64 × List F

def memcpy {F : Type} (dest : List F) (pos : ℕ) (src : List F) (n : ℕ) : List F :=
  RingBuffer.overwrite dest pos (src.take n)

namespace RingTrace
variable {F : Type}

section Init
variable [Zero F]

def new : RingTrace F := ⟨false, [], 0, 0, [], [], 0, false⟩

def init (colNames : List String) (capacityRows : ℕ) (r : RingTrace F) : RingTrace F :=
  let r := { r with
    cols := colNames
    ncols := colNames.length
    cap := capacityRows
    enabled := decide (0 < capacityRows) && decide (0 < colNames.length) }
  if !r.enabled then r
  else
    { r with
      tNs := List.replicate r.cap 0
      data := List.replicate (r.cap * r.ncols) 0
      head := 0
      frozen := false }

end Init

def push (r : RingTrace F) (tNs : BitVec 64) (vals : List F) : RingTrace F :=
  if !r.enabled || r.frozen then r
  else
    let i := r.head.toNat % r.cap
    { r with
      tNs := r.tNs.set i tNs
      data := memcpy r.data (i * r.ncols) vals r.ncols
      head := r.head + 1 }

def pushAll (r : RingTrace F) (rows : List (TraceRow F)) : RingTrace F :=
  rows.foldl (fun r row => r.push row.1 row.2) r

def totalPushed (r : RingTrace F) : BitVec 64 := r.head

def header (cols : List String) : String := String.join ("t_s" :: cols.map ("," ++ ·))

def line (io : Printer F) (originNs : BitVec 64) (row : TraceRow F) : String :=
  String.join (io.seconds row.1 originNs :: row.2.map fun v => "," ++ io.value v)

def readRow (r : RingTrace F) (i : ℕ) : TraceRow F :=
  (r.tNs.getD i 0, RingBuffer.row r.ncols r.data i)

def dump (io : Printer F) (opened : Bool) (originNs : BitVec 64) (r : RingTrace F) : Dumped F :=
  if !r.enabled then ⟨r, 0, []⟩
  else
    let r := { r with frozen := true }
    let n := r.head.toNat
    let count := if n < r.cap then n else r.cap
    let start := if n > r.cap then n % r.cap else 0
    if !opened then ⟨r, 0, []⟩
    else
      let rows := (List.range count).map fun k => r.readRow ((start + k) % r.cap)
      ⟨r, count, header r.cols :: rows.map (line io originNs)⟩

structure Recorded (cols : List String) (cap : ℕ) (rows : List (TraceRow F)) (r : RingTrace F) :
    Prop where
  enabled : r.enabled = true
  frozen : r.frozen = false
  cols_eq : r.cols = cols
  ncols_eq : r.ncols = cols.length
  cap_eq : r.cap = cap
  times : r.tNs.length = cap
  values : r.data.length = cap * cols.length
  head : r.head = BitVec.ofNat 64 rows.length
  window : rows.length < 2 ^ 64 → Window cap r.readRow rows

theorem recorded_init [Zero F] {cols : List String} (hcols : 0 < cols.length) {cap : ℕ}
    (hcap : 0 < cap) (r : RingTrace F) : Recorded cols cap [] (r.init cols cap) := by
  have hinit : r.init cols cap = ⟨true, cols, cols.length, cap, List.replicate cap 0,
      List.replicate (cap * cols.length) 0, 0, false⟩ := by
    simp [init, hcols, hcap]
  rw [hinit]
  exact ⟨rfl, rfl, rfl, rfl, rfl, List.length_replicate, List.length_replicate, rfl,
    fun _ => RingBuffer.Window.nil⟩

section Push
variable {cols : List String} {cap : ℕ} {rows : List (TraceRow F)} {r : RingTrace F}
  {row : TraceRow F}

theorem Recorded.head_toNat (h : Recorded cols cap rows r) (hlength : rows.length < 2 ^ 64) :
    r.head.toNat = rows.length := by
  rw [h.head, BitVec.toNat_ofNat, Nat.mod_eq_of_lt hlength]

theorem Recorded.slot_fits (h : Recorded cols cap rows r) (hcap : 0 < cap) :
    r.head.toNat % cap * cols.length + cols.length ≤ r.data.length := by
  rw [h.values, ← Nat.succ_mul]
  exact Nat.mul_le_mul_right _ (Nat.mod_lt _ hcap)

theorem Recorded.push_eq (h : Recorded cols cap rows r) (hrow : row.2.length = cols.length) :
    r.push row.1 row.2 = { r with
      tNs := r.tNs.set (r.head.toNat % cap) row.1
      data := RingBuffer.overwrite r.data (r.head.toNat % cap * cols.length) row.2
      head := r.head + 1 } := by
  have htake : row.2.take cols.length = row.2 := List.take_of_length_le hrow.le
  simp only [RingTrace.push, h.enabled, h.frozen, h.cap_eq, h.ncols_eq, memcpy, htake,
    Bool.not_true, Bool.or_false, Bool.false_eq_true, if_false]

theorem Recorded.readRow_push (hcap : 0 < cap) (h : Recorded cols cap rows r)
    (hrow : row.2.length = cols.length) (i : ℕ) : (r.push row.1 row.2).readRow i =
      if i = r.head.toNat % cap then row else r.readRow i := by
  have hslot : r.head.toNat % cap < cap := Nat.mod_lt _ hcap
  have hfits := h.slot_fits hcap
  rw [h.push_eq hrow]
  simp only [readRow, h.ncols_eq]
  split_ifs with hi
  · rw [hi, RingBuffer.row_overwrite_same hrow (by omega)]
    simp [List.getD, h.times, hslot]
  · rw [RingBuffer.row_overwrite_ne hrow hfits hi]
    simp [List.getD, Ne.symm hi]

theorem Recorded.push (hcap : 0 < cap) (h : Recorded cols cap rows r)
    (hrow : row.2.length = cols.length) :
    Recorded cols cap (rows ++ [row]) (r.push row.1 row.2) := by
  have hfits : r.head.toNat % cap * cols.length + row.2.length ≤ r.data.length :=
    hrow.symm ▸ h.slot_fits hcap
  have hread := h.readRow_push hcap hrow
  have hwindow : (rows ++ [row]).length < 2 ^ 64 →
      Window cap (r.push row.1 row.2).readRow (rows ++ [row]) := by
    intro hlength
    rw [List.length_append, List.length_singleton] at hlength
    rw [h.head_toNat (by omega)] at hread
    refine (h.window (by omega)).push ?_ fun i hi => ?_
    · rw [hread, if_pos rfl]
    · rw [hread, if_neg hi]
  rw [h.push_eq hrow] at hwindow ⊢
  refine ⟨h.enabled, h.frozen, h.cols_eq, h.ncols_eq, h.cap_eq, ?_, ?_, ?_, hwindow⟩
  · rw [List.length_set, h.times]
  · rw [RingBuffer.length_overwrite hfits, h.values]
  · rw [h.head, List.length_append, List.length_singleton]
    exact (BitVec.ofNat_add _ _).symm

theorem recorded_pushAll [Zero F] (hcols : 0 < cols.length) (hcap : 0 < cap) (r₀ : RingTrace F)
    (hrows : ∀ row ∈ rows, row.2.length = cols.length) :
    Recorded cols cap rows ((r₀.init cols cap).pushAll rows) := by
  induction rows using List.reverseRecOn with
  | nil => exact recorded_init hcols hcap r₀
  | append_singleton rows row ih =>
    have hrecorded := ih fun row' hmem => hrows row' (List.mem_append_left _ hmem)
    rw [pushAll, List.foldl_append, List.foldl_cons, List.foldl_nil]
    exact hrecorded.push hcap (hrows row (by simp))

end Push

section Dump
variable {cols : List String} {cap : ℕ} {rows : List (TraceRow F)} {r : RingTrace F}

theorem Recorded.dump_eq (h : Recorded cols cap rows r) (hlength : rows.length < 2 ^ 64)
    (io : Printer F) (originNs : BitVec 64) : r.dump io true originNs =
      ⟨{ r with frozen := true }, min rows.length cap,
        header cols :: (rows.drop (rows.length - cap)).map (line io originNs)⟩ := by
  have hhead := h.head_toNat hlength
  have hcount : (if rows.length < cap then rows.length else cap) = min rows.length cap := by
    split_ifs <;> omega
  rw [← (h.window hlength).newest]
  simp only [dump, h.enabled, h.cap_eq, h.cols_eq, hhead, hcount, Bool.not_true, Bool.false_eq_true,
    if_false]
  rfl

theorem pushAll_of_frozen {r : RingTrace F} (h : r.frozen = true) (later : List (TraceRow F)) :
    r.pushAll later = r := by
  refine Runs.foldl_invariant _ (fun s => s = r) rfl ?_ later
  rintro s row rfl
  simp only [RingTrace.push, h, Bool.or_true, if_true]

/-- Less than 2^64 rows, pushed one after another and written to a file that opens: the file
holds the newest of them, as many as fit, in their order, and is what every later dump
writes, whatever is pushed in between. -/
theorem keeps_newest [Zero F] (cols : List String) (hcols : 0 < cols.length) (cap : ℕ)
    (hcap : 0 < cap) (r₀ : RingTrace F) (rows : List (TraceRow F))
    (hrows : ∀ row ∈ rows, row.2.length = cols.length) (hlength : rows.length < 2 ^ 64)
    (io : Printer F) (originNs : BitVec 64) :
    let r := (r₀.init cols cap).pushAll rows
    let d := r.dump io true originNs
    r.totalPushed.toNat = rows.length ∧ d.count = min rows.length cap ∧
      d.lines = header cols :: (rows.drop (rows.length - cap)).map (line io originNs) ∧
      ∀ opened later, let frozen := (r.dump io opened originNs).trace
        frozen.pushAll later = frozen ∧
          ∀ origin', (frozen.pushAll later).dump io true origin' = r.dump io true origin' := by
  intro r d
  have hr : Recorded cols cap rows r := recorded_pushAll hcols hcap r₀ hrows
  have hd := hr.dump_eq hlength io originNs
  refine ⟨hr.head_toNat hlength, congrArg Dumped.count hd, congrArg Dumped.lines hd,
    fun opened later => ?_⟩
  have hfrozen : (r.dump io opened originNs).trace = { r with frozen := true } := by
    cases opened <;> simp [dump, hr.enabled]
  have hstays : RingTrace.pushAll { r with frozen := true } later = { r with frozen := true } :=
    pushAll_of_frozen rfl later
  dsimp only
  rw [hfrozen, hstays]
  refine ⟨rfl, fun origin' => ?_⟩
  simp only [dump, hr.enabled, Bool.not_true, Bool.false_eq_true, if_false]

def plain : Printer ℕ := ⟨fun t _ => toString t.toNat, fun v => toString v⟩

theorem keeps_newest_two :
    ((((new : RingTrace ℕ).init ["x"] 2).pushAll [(1, [10]), (2, [20]), (3, [30])]).dump
      plain true 0).lines = header ["x"] :: [(2, [20]), (3, [30])].map (line plain 0) :=
  (keeps_newest ["x"] (by decide) 2 (by decide) new [(1, [10]), (2, [20]), (3, [30])] (by decide)
    (by decide) plain 0).2.2.1

/-- The count starts again after 2^64 rows, and a file that does not open gets no row. -/
theorem keeps_newest_limits :
    (¬ ∀ rows : List (TraceRow ℕ), (∀ row ∈ rows, row.2.length = 1) →
      (((new : RingTrace ℕ).init ["x"] 1).pushAll rows).totalPushed.toNat = rows.length) ∧
    ¬ ∀ (opened : Bool) (rows : List (TraceRow ℕ)), (∀ row ∈ rows, row.2.length = 1) →
      rows.length < 2 ^ 64 →
      ((((new : RingTrace ℕ).init ["x"] 1).pushAll rows).dump plain opened 0).count =
        min rows.length 1 := by
  constructor
  · intro h
    obtain ⟨rows, hlength, hrows⟩ : ∃ rows : List (TraceRow ℕ),
        rows.length = 2 ^ 64 ∧ ∀ row ∈ rows, row.2.length = 1 :=
      ⟨List.replicate (2 ^ 64) (0, [0]), List.length_replicate, fun row hrow => by
        rw [List.eq_of_mem_replicate hrow]; rfl⟩
    have hr : Recorded ["x"] 1 rows ((new.init ["x"] 1).pushAll rows) :=
      recorded_pushAll (by decide) Nat.one_pos new hrows
    have hn := h rows hrows
    rw [totalPushed, hr.head, BitVec.toNat_ofNat, hlength, Nat.mod_self] at hn
    exact absurd hn (by decide)
  · intro h
    have hcount := h false [(0, [0])] (by decide) (by decide)
    revert hcount
    decide +kernel

end Dump
end RingTrace
end MybipedalDeploy.Control
