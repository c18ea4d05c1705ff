import Mathlib.Logic.Equiv.Fin.Basic

/-!
# Byte buffers cut into slots of one record each

`m` records of `w` bytes share one array; record `i` occupies the bytes from
`w*i` up to `w*(i+1)`. Reading and writing go through the byte representation,
so the laws below are what isolates one record from another.
-/

namespace MybipedalDeploy.SlotBuffer

variable {α β : Type*} {m w : ℕ}

structure Codec (α β : Type*) (w : ℕ) where
  encode : α → Fin w → β
  decode : (Fin w → β) → α
  decode_encode : ∀ a, decode (encode a) = a

abbrev Buffer (β : Type*) (m w : ℕ) := Fin (m * w) → β

namespace Codec
variable (c : Codec α β w)

def read (buf : Buffer β m w) (i : Fin m) : α :=
  c.decode fun k => buf (finProdFinEquiv (i, k))

def write (buf : Buffer β m w) (i : Fin m) (a : α) : Buffer β m w := fun j =>
  if (finProdFinEquiv.symm j).1 = i then c.encode a (finProdFinEquiv.symm j).2 else buf j

@[simp] theorem read_write_same (buf : Buffer β m w) (i : Fin m) (a : α) :
    c.read (c.write buf i a) i = a := by
  simp only [read, write, Equiv.symm_apply_apply, ↓reduceIte]
  exact c.decode_encode a

theorem read_write_ne (buf : Buffer β m w) {i j : Fin m} (h : j ≠ i) (a : α) :
    c.read (c.write buf i a) j = c.read buf j := by
  simp only [read, write, Equiv.symm_apply_apply, if_neg h]

theorem read_write (buf : Buffer β m w) (i j : Fin m) (a : α) :
    c.read (c.write buf i a) j = if j = i then a else c.read buf j := by
  split_ifs with h
  · exact h ▸ c.read_write_same buf j a
  · exact c.read_write_ne buf h a

theorem read_fill (i : Fin m) (b : β) : c.read (m := m) (fun _ => b) i = c.decode fun _ => b := rfl

end Codec
end MybipedalDeploy.SlotBuffer
