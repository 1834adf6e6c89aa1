import Mathlib.Data.List.Basic

namespace Tlsdate.AlignedRecords

/-- Records that start with a header of one size, which gives the size of the whole
record. A record starts where the one before ends, rounded up to `align`. -/
structure Layout (α : Type) where
  header : Nat
  align : Nat
  size : List α → Nat
  header_pos : 0 < header
  align_pos : 0 < align

variable {α : Type} {l : Layout α} {s : List α}

def Layout.roundUp (l : Layout α) (n : Nat) : Nat := (n + l.align - 1) / l.align * l.align

theorem Layout.le_roundUp (l : Layout α) (n : Nat) : n ≤ l.roundUp n := by
  have hpos := l.align_pos
  have hdiv := Nat.div_add_mod (n + l.align - 1) l.align
  have hmod := Nat.mod_lt (n + l.align - 1) hpos
  rw [Layout.roundUp, Nat.mul_comm]
  omega

def Layout.WellFormed (l : Layout α) (s : List α) : Prop :=
  l.header ≤ s.length ∧ l.header ≤ l.size s ∧ l.size s ≤ s.length

instance (l : Layout α) (s : List α) : Decidable (l.WellFormed s) :=
  inferInstanceAs (Decidable (_ ∧ _ ∧ _))

theorem Layout.WellFormed.drop_shorter (h : l.WellFormed s) :
    (s.drop (l.roundUp (l.size s))).length < s.length := by
  have hpos := l.header_pos
  have hround := l.le_roundUp (l.size s)
  obtain ⟨hheader, hsize, -⟩ := h
  rw [List.length_drop]
  omega

/-- The records of `s` before the first that is not well formed. -/
def records (l : Layout α) (s : List α) : List (List α) :=
  if _ : l.WellFormed s then s.take (l.size s) :: records l (s.drop (l.roundUp (l.size s)))
  else []
termination_by s.length
decreasing_by exact Layout.WellFormed.drop_shorter ‹_›

theorem records_wellFormed (h : l.WellFormed s) :
    records l s = s.take (l.size s) :: records l (s.drop (l.roundUp (l.size s))) := by
  rw [records, dif_pos h]

theorem records_malformed (h : ¬ l.WellFormed s) : records l s = [] := by
  rw [records, dif_neg h]

end Tlsdate.AlignedRecords
