import Mathlib.Logic.Function.Basic
import Mathlib.Tactic.SplitIfs

namespace Tlsdate.Blocks

variable {β : Type}

/-- Blocks of memory by their addresses. No address is given out twice, so that what has
been freed stays so. -/
structure Store (β : Type) where
  block : Nat → Option β
  next : Nat
  fresh : ∀ a, next ≤ a → block a = none

def Store.empty : Store β := ⟨fun _ => none, 0, fun _ _ => rfl⟩

def Store.alloc (s : Store β) (b : β) : Store β where
  block := Function.update s.block s.next (some b)
  next := s.next + 1
  fresh a h := by
    rw [Function.update_of_ne (by omega)]
    exact s.fresh a (by omega)

def Store.put (s : Store β) (a : Nat) (b : Option β) : Option (Store β) :=
  if h : (s.block a).isSome then
    some {
      block := Function.update s.block a b
      next := s.next
      fresh := fun a' ha' => by
        rw [Function.update_of_ne]
        · exact s.fresh a' ha'
        · rintro rfl
          rw [s.fresh a' ha'] at h
          cases h }
  else none

def Store.free (s : Store β) (a : Nat) : Option (Store β) := s.put a none

def Store.write (s : Store β) (a : Nat) (b : β) : Option (Store β) := s.put a (some b)

def Store.modify (s : Store β) (a : Nat) (f : β → β) : Option (Store β) :=
  (s.block a).bind fun b => s.write a (f b)

variable {s s' : Store β} {a a' : Nat} {b b' : β} {f : β → β}

@[simp] theorem alloc_self : (s.alloc b).block s.next = some b := Function.update_self ..

@[simp] theorem alloc_next : (s.alloc b).next = s.next + 1 := rfl

theorem put_some {o : Option β} : s.put a o = some s' ↔ (s.block a).isSome = true ∧
    s'.block = Function.update s.block a o ∧ s'.next = s.next := by
  rw [Store.put]
  split_ifs with h
  · constructor
    · intro he
      obtain rfl := Option.some.inj he
      exact ⟨h, rfl, rfl⟩
    · rintro ⟨-, hblock, hnext⟩
      obtain ⟨block, next, fresh⟩ := s'
      obtain rfl : block = _ := hblock
      obtain rfl : next = _ := hnext
      rfl
  · simp [h]

theorem put_none {o : Option β} : s.put a o = none ↔ s.block a = none := by
  rw [Store.put]
  split_ifs with h
  · simpa using Option.isSome_iff_ne_none.mp h
  · simpa using h

theorem put_live {o : Option β} (h : s.block a = some b) :
    ∃ s', s.put a o = some s' ∧ s'.block = Function.update s.block a o ∧ s'.next = s.next := by
  have hput : s.put a o ≠ none := by
    rw [ne_eq, put_none, h]
    simp
  obtain ⟨s', hs⟩ := Option.ne_none_iff_exists'.mp hput
  exact ⟨s', hs, (put_some.mp hs).2⟩

theorem modify_live (h : s.block a = some b) :
    ∃ s', s.modify a f = some s' ∧ s'.block = Function.update s.block a (some (f b)) ∧
      s'.next = s.next := by
  rw [Store.modify, h]
  exact put_live h

theorem alloc_write (s : Store β) (b b' : β) : ∃ s', (s.alloc b).write s.next b' = some s' ∧
    s'.block = Function.update s.block s.next (some b') ∧ s'.next = s.next + 1 := by
  obtain ⟨s', hs, hblock, hnext⟩ := put_live (o := some b') (alloc_self (s := s) (b := b))
  refine ⟨s', hs, ?_, hnext⟩
  rw [hblock, Store.alloc, Function.update_idem]

theorem alloc_modify (s : Store β) (b : β) (f : β → β) : ∃ s', (s.alloc b).modify s.next f = some s' ∧
    s'.block = Function.update s.block s.next (some (f b)) := by
  obtain ⟨s', hs, hblock, -⟩ := modify_live (f := f) (alloc_self (s := s) (b := b))
  refine ⟨s', hs, ?_⟩
  rw [hblock, Store.alloc, Function.update_idem]

theorem alloc_free (s : Store β) (b : β) : ∃ s', (s.alloc b).free s.next = some s' ∧ s'.block = s.block ∧
    s'.next = s.next + 1 := by
  obtain ⟨s', hs, hblock, hnext⟩ := put_live (o := none) (alloc_self (s := s) (b := b))
  refine ⟨s', hs, ?_, hnext⟩
  rw [hblock, Store.alloc, Function.update_idem, ← s.fresh s.next (Nat.le_refl _),
    Function.update_eq_self]

end Tlsdate.Blocks
