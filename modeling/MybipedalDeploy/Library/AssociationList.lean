import Mathlib.Data.List.Nodup

/-!
# Association lists

A map kept as the list of its entries. A list whose keys differ is read by key, and
an entry is changed in its place.
-/

namespace MybipedalDeploy.AssociationList

variable {κ α : Type*} [DecidableEq κ]

def modify (g : α → α) (key : κ) (data : List (κ × α)) : List (κ × α) :=
  data.map fun e => if e.1 = key then (e.1, g e.2) else e

theorem lookup_modify (data : List (κ × α)) (key other : κ) (g : α → α) :
    (modify g key data).lookup other =
      if other = key then (data.lookup other).map g else data.lookup other := by
  induction data with
  | nil => simp [modify]
  | cons e data ih =>
    obtain ⟨k, a⟩ := e
    have hcons : modify g key ((k, a) :: data) =
        (k, if k = key then g a else a) :: modify g key data := by
      simp only [modify, List.map_cons]
      split_ifs <;> rfl
    rw [hcons]
    by_cases hother : other = k
    · subst hother
      split_ifs with hkey <;> simp
    · have hbeq : (other == k) = false := by simpa using hother
      simp only [List.lookup_cons, hbeq, ih]

@[simp] theorem keys_modify (data : List (κ × α)) (key : κ) (g : α → α) :
    (modify g key data).map Prod.fst = data.map Prod.fst := by
  unfold modify
  rw [List.map_map]
  refine List.map_congr_left fun e _ => ?_
  simp only [Function.comp_apply]
  split_ifs <;> rfl

theorem lookup_mapValues (data : List (κ × α)) (g : κ → α → α) (key : κ) :
    (data.map fun e => (e.1, g e.1 e.2)).lookup key = (data.lookup key).map (g key) := by
  induction data with
  | nil => rfl
  | cons e data ih =>
    obtain ⟨k, a⟩ := e
    by_cases hkey : key = k
    · subst hkey
      simp
    · have hbeq : (key == k) = false := by simpa using hkey
      simp only [List.map_cons, List.lookup_cons, hbeq, ih]

theorem lookup_isSome_iff_mem {data : List (κ × α)} {key : κ} :
    (data.lookup key).isSome ↔ key ∈ data.map Prod.fst := by
  rw [List.lookup_isSome_iff, List.mem_map]
  exact exists_congr fun e => and_congr_right fun _ => by rw [beq_iff_eq, eq_comm]

theorem mem_of_lookup {data : List (κ × α)} {key : κ} {a : α} (h : data.lookup key = some a) :
    (key, a) ∈ data := by
  obtain ⟨before, after, rfl, _⟩ := List.lookup_eq_some_iff.mp h
  simp

end MybipedalDeploy.AssociationList
