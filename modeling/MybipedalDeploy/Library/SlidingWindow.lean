import Mathlib.Data.List.Range

/-!
# A window that slides over blocks

A flat buffer holds the last blocks of a sequence one after another. It is filled
with the first block; every later block pushes the oldest one out.
-/

namespace MybipedalDeploy.SlidingWindow

variable {α : Type*} {size width n : ℕ}

/-- The last `size` of the blocks `0` to `n`; the first one stands for those before it. -/
def window (block : ℕ → List α) (size n : ℕ) : List α :=
  (List.range size).flatMap fun k => block (n + 1 + k - size)

def push (width : ℕ) (buffer block : List α) : List α := buffer.drop width ++ block

theorem window_zero (block : ℕ → List α) (size : ℕ) :
    window block size 0 = (List.replicate size (block 0)).flatten := by
  have hblocks : (List.range size).map (fun k => block (0 + 1 + k - size)) =
      List.replicate size (block 0) := by
    apply List.eq_replicate_iff.mpr
    constructor
    · simp
    · intro b hb
      obtain ⟨k, hk, rfl⟩ := List.mem_map.mp hb
      have hlt := List.mem_range.mp hk
      congr 1
      omega
  rw [window, List.flatMap_def, hblocks]

theorem window_congr {block block' : ℕ → List α} (h : ∀ i ≤ n, block i = block' i) (size : ℕ) :
    window block size n = window block' size n := by
  apply List.flatMap_congr
  intro k hk
  have hlt := List.mem_range.mp hk
  apply h
  omega

theorem window_succ {block : ℕ → List α} (hsize : 1 ≤ size)
    (hwidth : ∀ i ≤ n, (block i).length = width) :
    window block size (n + 1) = push width (window block size n) (block (n + 1)) := by
  obtain ⟨size, rfl⟩ := Nat.exists_eq_add_of_le' hsize
  have hold : window block (size + 1) n =
      block (n - size) ++ (List.range size).flatMap fun k => block (n + 1 + k - size) := by
    rw [window, List.range_succ_eq_map, List.flatMap_cons, List.flatMap_map]
    congr 1
    · congr 1
      omega
    · apply List.flatMap_congr
      intro k _
      congr 1
      omega
  have hnew : window block (size + 1) (n + 1) =
      ((List.range size).flatMap fun k => block (n + 1 + k - size)) ++ block (n + 1) := by
    rw [window, List.range_succ, List.flatMap_append, List.flatMap_singleton]
    congr 1
    · apply List.flatMap_congr
      intro k _
      congr 1
      omega
    · congr 1
      omega
  rw [hnew, push, hold, List.drop_left' (hwidth _ (Nat.sub_le n size))]

theorem push_replicate (hsize : 1 ≤ size) {block : List α} (hwidth : block.length = width) :
    push width (List.replicate size block).flatten block =
      (List.replicate size block).flatten := by
  obtain ⟨size, rfl⟩ := Nat.exists_eq_add_of_le' hsize
  have hcons : (List.replicate (size + 1) block).flatten =
      block ++ (List.replicate size block).flatten := by
    rw [List.replicate_succ, List.flatten_cons]
  have hsnoc : (List.replicate (size + 1) block).flatten =
      (List.replicate size block).flatten ++ block := by
    rw [List.replicate_succ', List.flatten_append, List.flatten_singleton]
  rw [push, hcons, List.drop_left' hwidth, ← hsnoc, hcons]

end MybipedalDeploy.SlidingWindow
