import Mathlib.Data.List.Range
import Mathlib.Data.Nat.ModEq

/-!
# Ring buffers with one running count

Element `k` of a sequence is put into slot `k % cap`. The slots then hold the newest
elements, and a walk over all slots from the oldest of these gives them in order. The
slots may be rows of a flat array.
-/

namespace MybipedalDeploy.RingBuffer

variable {α : Type*}

section Window
variable {cap : ℕ} {read : ℕ → α} {xs : List α}

/-- The slots hold the newest `cap` elements of the sequence. -/
def Window (cap : ℕ) (read : ℕ → α) (xs : List α) : Prop :=
  ∀ k (hk : k < xs.length), xs.length ≤ k + cap → read (k % cap) = xs[k]

theorem Window.nil : Window cap read [] := fun _ hk => absurd hk (Nat.not_lt_zero _)

theorem slot_ne {k n : ℕ} (hk : k < n) (hn : n < k + cap) : k % cap ≠ n % cap := by
  intro h
  have hdvd : cap ∣ n - k := (Nat.modEq_iff_dvd' hk.le).mp h
  have hle := Nat.le_of_dvd (by omega) hdvd
  omega

theorem Window.push {read' : ℕ → α} {x : α} (h : Window cap read xs)
    (hsame : read' (xs.length % cap) = x)
    (hother : ∀ i, i ≠ xs.length % cap → read' i = read i) : Window cap read' (xs ++ [x]) := by
  intro k hk hwithin
  rw [List.length_append, List.length_singleton] at hk hwithin
  rcases Nat.lt_or_ge k xs.length with hlt | hge
  · rw [hother _ (slot_ne hlt (by omega)), h k hlt (by omega), List.getElem_append_left hlt]
  · obtain rfl : k = xs.length := by omega
    rw [hsame, List.getElem_concat_length rfl]

def start (cap n : ℕ) : ℕ := if cap < n then n % cap else 0

theorem start_add_mod (n k : ℕ) : (start cap n + k) % cap = (n - cap + k) % cap := by
  unfold start
  split_ifs with h
  · rw [Nat.mod_add_mod, Nat.add_mod, Nat.mod_eq_sub_mod h.le, ← Nat.add_mod]
  · rw [Nat.sub_eq_zero_of_le (Nat.not_lt.mp h)]

theorem Window.newest (h : Window cap read xs) :
    (List.range (min xs.length cap)).map (fun k => read ((start cap xs.length + k) % cap)) =
      xs.drop (xs.length - cap) := by
  apply List.ext_getElem
  · rw [List.length_map, List.length_range, List.length_drop]
    omega
  · intro k hk hk'
    rw [List.length_map, List.length_range] at hk
    rw [List.getElem_map, List.getElem_range, List.getElem_drop, start_add_mod]
    exact h _ (by omega) (by omega)

end Window

section Rows
variable {width : ℕ}

def row (width : ℕ) (data : List α) (i : ℕ) : List α := (data.drop (i * width)).take width

def overwrite (data : List α) (pos : ℕ) (values : List α) : List α :=
  data.take pos ++ (values ++ data.drop (pos + values.length))

theorem length_overwrite {data values : List α} {pos : ℕ} (h : pos + values.length ≤ data.length) :
    (overwrite data pos values).length = data.length := by
  rw [overwrite, List.length_append, List.length_append, List.length_take, List.length_drop]
  omega

theorem row_overwrite_same {data values : List α} {i : ℕ} (hvalues : values.length = width)
    (h : i * width ≤ data.length) : row width (overwrite data (i * width) values) i = values := by
  rw [row, overwrite, List.drop_left' (List.length_take_of_le h), List.take_left' hvalues]

theorem row_overwrite_ne {data values : List α} {i j : ℕ} (hvalues : values.length = width)
    (h : i * width + width ≤ data.length) (hne : j ≠ i) :
    row width (overwrite data (i * width) values) j = row width data j := by
  rcases Nat.lt_or_gt_of_ne hne with hlt | hgt
  · have hfits : j * width + width ≤ i * width := by
      rw [← Nat.succ_mul]
      exact Nat.mul_le_mul_right width hlt
    rw [row, overwrite, List.drop_append_of_le_length (by rw [List.length_take]; omega),
      List.take_append_of_le_length (by rw [List.length_drop, List.length_take]; omega),
      List.drop_take, List.take_take, Nat.min_eq_left (by omega), row]
  · have hfits : i * width + width ≤ j * width := by
      rw [← Nat.succ_mul]
      exact Nat.mul_le_mul_right width hgt
    have hlength : (data.take (i * width) ++ values).length = i * width + width := by
      rw [List.length_append, List.length_take, hvalues, Nat.min_eq_left (by omega)]
    rw [row, overwrite, ← List.append_assoc, List.drop_append, List.drop_eq_nil_of_le (by omega),
      List.nil_append, hlength, List.drop_drop, hvalues, Nat.add_sub_cancel' hfits, row]

end Rows
end MybipedalDeploy.RingBuffer
