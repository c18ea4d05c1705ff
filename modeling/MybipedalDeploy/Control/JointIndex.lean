import MybipedalDeploy.Control.PDController
import MybipedalDeploy.Library.AssociationList
import MybipedalDeploy.Library.LastWrite

/-!
# The indices of the joints

A map of names to indices, and what it holds after the indices of a list of names
were set one after another: the last place of each name.
-/

namespace MybipedalDeploy.Control
open LastWrite (lastHit)

def indexed (name : String) (e : String × ℕ) : Option ℕ := if e.1 = name then some e.2 else none

def lastPlace (names : List String) (name : String) : Option ℕ := lastHit (indexed name) names.zipIdx

theorem lastPlace_of_nodup {names : List String} (hnd : names.Nodup) {i : ℕ} {name : String}
    (h : names[i]? = some name) : lastPlace names name = some i := by
  have hmem : (name, i) ∈ names.zipIdx := List.mem_zipIdx_iff_getElem?.mpr h
  refine LastWrite.lastHit_of_unique _ hmem (by simp [indexed]) ?_
  rintro ⟨name', j⟩ hmem' k hk
  unfold indexed at hk
  split_ifs at hk with hname
  obtain rfl : name' = name := hname
  cases hk
  have hj : names[j]? = some name' := List.mem_zipIdx_iff_getElem?.mp hmem'
  have hlt : j < names.length := (List.getElem?_eq_some_iff.mp hj).1
  exact (List.getElem?_inj hlt hnd).mp (hj.trans h.symm)

theorem lastPlace_eq_none_iff {names : List String} {name : String} :
    lastPlace names name = none ↔ name ∉ names := by
  unfold lastPlace
  rw [LastWrite.lastHit_eq_none_iff]
  constructor
  · intro h hmem
    obtain ⟨i, hi⟩ := List.mem_iff_getElem?.mp hmem
    have hnone := h (name, i) (List.mem_zipIdx_iff_getElem?.mpr hi)
    simp [indexed] at hnone
  · rintro h ⟨name', i⟩ hmem
    have hne : name' ≠ name := by
      rintro rfl
      exact h (List.mem_iff_getElem?.mpr ⟨i, List.mem_zipIdx_iff_getElem?.mp hmem⟩)
    simp [indexed, hne]

theorem getElem?_of_lastPlace {names : List String} {name : String} {i : ℕ}
    (h : lastPlace names name = some i) : names[i]? = some name := by
  obtain ⟨_, ⟨name', j⟩, _, hsplit, hhit, _⟩ := LastWrite.lastHit_eq_some _ h
  unfold indexed at hhit
  split_ifs at hhit with hname
  cases hhit
  rw [← hname]
  exact List.mem_zipIdx_iff_getElem?.mp (by simp [hsplit])

namespace IndexMap

theorem set_of_mem {m : IndexMap} {name : String} (h : name ∈ m.map Prod.fst) (i : ℤ) :
    m.set name i = AssociationList.modify (fun _ => i) name m := by
  have hany : m.any (·.1 == name) = true := by
    obtain ⟨e, he, heq⟩ := List.mem_map.mp h
    exact List.any_eq_true.mpr ⟨e, he, beq_iff_eq.mpr heq⟩
  unfold set AssociationList.modify
  rw [if_pos hany]
  refine List.map_congr_left fun e _ => ?_
  by_cases heq : e.1 = name <;> simp [heq]

theorem set_of_not_mem {m : IndexMap} {name : String} (h : name ∉ m.map Prod.fst) (i : ℤ) :
    m.set name i = m ++ [(name, i)] := by
  have hany : ¬ m.any (·.1 == name) = true := by
    intro hany
    obtain ⟨e, he, heq⟩ := List.any_eq_true.mp hany
    exact h (List.mem_map.mpr ⟨e, he, beq_iff_eq.mp heq⟩)
  unfold set
  rw [if_neg hany]

theorem at?_set (m : IndexMap) (name other : String) (i : ℤ) :
    (m.set name i).at? other = if other = name then some i else m.at? other := by
  unfold at?
  by_cases hmem : name ∈ m.map Prod.fst
  · rw [set_of_mem hmem, AssociationList.lookup_modify]
    split_ifs with hname
    · subst hname
      obtain ⟨j, hj⟩ := Option.isSome_iff_exists.mp (AssociationList.lookup_isSome_iff_mem.mpr hmem)
      rw [hj, Option.map_some]
    · rfl
  · rw [set_of_not_mem hmem, List.lookup_append]
    by_cases hname : other = name
    · subst hname
      have hnone : m.lookup other = none := by
        rw [← Option.not_isSome_iff_eq_none, AssociationList.lookup_isSome_iff_mem]
        exact hmem
      simp [hnone]
    · have hbeq : (other == name) = false := by simpa using hname
      simp [hname, List.lookup_cons, hbeq]

theorem at?_foldl_set (names : List String) (m : IndexMap) (name : String) :
    (names.zipIdx.foldl (fun m e => m.set e.1 e.2) m).at? name =
      ((lastPlace names name).map Nat.cast).or (m.at? name) := by
  have hfold := LastWrite.view_foldl (fun e => (indexed name e).map fun i : ℕ => some (i : ℤ))
    (fun (m : IndexMap) (e : String × ℕ) => m.set e.1 e.2) (fun m => m.at? name)
    (fun _ => True) (fun _ _ _ => trivial) ?_ names.zipIdx (s := m) trivial
  · rw [hfold, LastWrite.lastHit_map_hit]
    unfold lastPlace
    cases lastHit (indexed name) names.zipIdx <;> rfl
  · intro m e _
    rw [at?_set]
    unfold indexed
    by_cases h : name = e.1
    · simp [h]
    · simp [h, Ne.symm h]

end IndexMap
end MybipedalDeploy.Control
