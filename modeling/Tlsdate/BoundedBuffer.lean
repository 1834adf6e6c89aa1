import Mathlib.Data.List.Basic

namespace Tlsdate.BoundedBuffer

abbrev Buffer (α : Type) (n : Nat) := { cells : List α // cells.length = n }

variable {α : Type} {n : Nat}

def fill (a : α) : Buffer α n := ⟨List.replicate n a, List.length_replicate⟩

/-- A store of consecutive values from the cell `i` on. One that does not fit is
undefined, and none. -/
def store (i : Nat) (xs : List α) (buf : Buffer α n) : Option (Buffer α n) :=
  if h : i + xs.length ≤ n then
    some ⟨buf.1.take i ++ xs ++ buf.1.drop (i + xs.length), by
      rw [List.length_append, List.length_append, List.length_take, List.length_drop, buf.2]
      omega⟩
  else none

def Begins (buf : Buffer α n) (xs : List α) : Prop := xs <+: buf.1

theorem begins_nil (buf : Buffer α n) : Begins buf [] := List.nil_prefix

theorem Begins.length_le {buf : Buffer α n} {xs : List α} (h : Begins buf xs) : xs.length ≤ n := by
  have hl := List.IsPrefix.length_le h
  rwa [buf.2] at hl

theorem Begins.take_eq {buf : Buffer α n} {xs : List α} (h : Begins buf xs) :
    buf.1.take xs.length = xs :=
  (List.prefix_iff_eq_take.mp h).symm

theorem store_none {i : Nat} {xs : List α} {buf : Buffer α n} (h : n < i + xs.length) :
    store i xs buf = none :=
  dif_neg (Nat.not_le.mpr h)

theorem Begins.store {buf : Buffer α n} {xs : List α} (h : Begins buf xs) (ys : List α)
    (hn : xs.length + ys.length ≤ n) :
    ∃ buf', store xs.length ys buf = some buf' ∧ Begins buf' (xs ++ ys) := by
  refine ⟨_, dif_pos hn, ?_⟩
  have hcells : buf.1.take xs.length ++ ys = xs ++ ys := by rw [h.take_eq]
  rw [Begins, ← hcells]
  exact List.prefix_append _ _

end Tlsdate.BoundedBuffer
