import Mathlib.Logic.Function.Basic
import Mathlib.Tactic.SplitIfs

namespace Tlsdate.Descriptors

variable {ε : Type}

structure Entry (ε : Type) where
  file : ε
  cloexec : Bool
  deriving DecidableEq, Repr

abbrev Table (ε : Type) := Nat → Option (Entry ε)

def Table.close (t : Table ε) (fd : Nat) : Table ε := Function.update t fd none

def Table.openAt (t : Table ε) (fd : Nat) (e : Entry ε) : Option (Table ε) :=
  if (t fd).isNone then some (Function.update t fd (some e)) else none

def Table.pipe (t : Table ε) (reader writer : Nat) (reads writes : ε) : Option (Table ε) :=
  (t.openAt reader ⟨reads, false⟩).bind fun t => t.openAt writer ⟨writes, false⟩

/-- The copy of a descriptor stays open when another program is executed. -/
def Table.dup2 (t : Table ε) (old new : Nat) : Table ε :=
  match t old with
  | none => t
  | some e => if old = new then t else Function.update t new (some ⟨e.file, false⟩)

def Table.exec (t : Table ε) : Table ε := fun fd => (t fd).filter fun e => !e.cloexec

def Table.Holds (t : Table ε) (file : ε) : Prop := ∃ fd e, t fd = some e ∧ e.file = file

def Table.Keeps (t : Table ε) (fd : Nat) (file : ε) : Prop := t fd = some ⟨file, false⟩

def Table.Only (t : Table ε) (fd : Nat) (file : ε) : Prop := ∀ fd' e, t fd' = some e → e.file = file → fd' = fd

variable {t t' : Table ε} {fd fd' old new : Nat} {e : Entry ε} {file : ε}

theorem Table.Keeps.holds (h : t.Keeps fd file) : t.Holds file := ⟨fd, _, h, rfl⟩

theorem holds_update (h : Table.Holds (Function.update t fd (some e)) file) :
    t.Holds file ∨ file = e.file := by
  obtain ⟨fd', e', he, rfl⟩ := h
  by_cases hfd : fd' = fd
  · subst hfd
    rw [Function.update_self] at he
    exact Or.inr (congrArg Entry.file (Option.some.inj he)).symm
  · rw [Function.update_of_ne hfd] at he
    exact Or.inl ⟨fd', e', he, rfl⟩

theorem holds_close (h : (t.close fd).Holds file) : t.Holds file := by
  obtain ⟨fd', e, he, hfile⟩ := h
  by_cases hfd : fd' = fd
  · subst hfd
    rw [Table.close, Function.update_self] at he
    cases he
  · rw [Table.close, Function.update_of_ne hfd] at he
    exact ⟨fd', e, he, hfile⟩

theorem holds_exec (h : t.exec.Holds file) : t.Holds file := by
  obtain ⟨fd, e, he, hfile⟩ := h
  exact ⟨fd, e, (Option.filter_eq_some_iff.mp he).1, hfile⟩

theorem holds_dup2 (h : (t.dup2 old new).Holds file) : t.Holds file := by
  rw [Table.dup2] at h
  split at h
  next => exact h
  next e he =>
    split_ifs at h
    · exact h
    · obtain h | h := holds_update h
      · exact h
      · exact ⟨old, e, he, h.symm⟩

theorem openAt_some (h : t.openAt fd e = some t') :
    t fd = none ∧ t' = Function.update t fd (some e) := by
  rw [Table.openAt] at h
  split_ifs at h with hfree
  exact ⟨Option.isNone_iff_eq_none.mp hfree, (Option.some.inj h).symm⟩

theorem holds_openAt (h : t.openAt fd e = some t') (ht : t'.Holds file) :
    t.Holds file ∨ file = e.file := by
  obtain ⟨-, rfl⟩ := openAt_some h
  exact holds_update ht

theorem keeps_openAt (h : t.openAt fd e = some t') (ht : t.Keeps fd' file) : t'.Keeps fd' file := by
  obtain ⟨hfree, rfl⟩ := openAt_some h
  have hfd : fd' ≠ fd := by
    rintro rfl
    rw [Table.Keeps, hfree] at ht
    cases ht
  rw [Table.Keeps, Function.update_of_ne hfd]
  exact ht

theorem openAt_keeps (h : t.openAt fd ⟨file, false⟩ = some t') : t'.Keeps fd file := by
  obtain ⟨-, rfl⟩ := openAt_some h
  exact Function.update_self ..

theorem keeps_close (h : t.Keeps fd file) (hfd : fd ≠ fd') : (t.close fd').Keeps fd file := by
  rw [Table.Keeps, Table.close, Function.update_of_ne hfd]
  exact h

theorem keeps_exec (h : t.Keeps fd file) : t.exec.Keeps fd file := by
  rw [Table.Keeps, Table.exec, h]
  rfl

theorem keeps_dup2 (h : t.Keeps fd file) (hfd : fd ≠ new) : (t.dup2 old new).Keeps fd file := by
  rw [Table.dup2]
  split
  next => exact h
  next =>
    split_ifs
    · exact h
    · rw [Table.Keeps, Function.update_of_ne hfd]
      exact h

theorem keeps_inj (h : t.Keeps fd file) {file' : ε} (h' : t.Keeps fd file') : file = file' :=
  congrArg Entry.file (Option.some.inj (h.symm.trans h'))

theorem openAt_only (h : t.openAt fd e = some t') (ht : ¬ t.Holds e.file) : t'.Only fd e.file := by
  obtain ⟨-, rfl⟩ := openAt_some h
  intro fd' e' he hfile
  by_contra hfd
  rw [Function.update_of_ne hfd] at he
  exact ht ⟨fd', e', he, hfile⟩

theorem only_openAt (h : t.openAt fd e = some t') (hfile : e.file ≠ file) (ht : t.Only fd' file) :
    t'.Only fd' file := by
  obtain ⟨-, rfl⟩ := openAt_some h
  intro fd'' e' he he'
  by_cases hfd : fd'' = fd
  · subst hfd
    rw [Function.update_self] at he
    exact absurd (congrArg Entry.file (Option.some.inj he) |>.trans he') hfile
  · rw [Function.update_of_ne hfd] at he
    exact ht fd'' e' he he'

theorem only_close (ht : t.Only fd file) : ¬ (t.close fd).Holds file := by
  rintro ⟨fd', e, he, hfile⟩
  by_cases hfd : fd' = fd
  · subst hfd
    rw [Table.close, Function.update_self] at he
    cases he
  · rw [Table.close, Function.update_of_ne hfd] at he
    exact hfd (ht fd' e he hfile)

theorem Table.Only.close (ht : t.Only fd file) : (t.close fd').Only fd file := by
  intro fd'' e he hfile
  by_cases hfd : fd'' = fd'
  · subst hfd
    rw [Table.close, Function.update_self] at he
    cases he
  · rw [Table.close, Function.update_of_ne hfd] at he
    exact ht fd'' e he hfile

section Pipe

variable {reader writer : Nat} {reads writes : ε}

theorem keeps_pipe (h : t.pipe reader writer reads writes = some t') :
    t'.Keeps reader reads ∧ t'.Keeps writer writes ∧
      ∀ fd file, t.Keeps fd file → t'.Keeps fd file := by
  obtain ⟨t₁, hreader, hwriter⟩ := Option.bind_eq_some_iff.mp h
  exact ⟨keeps_openAt hwriter (openAt_keeps hreader), openAt_keeps hwriter,
    fun fd file hk => keeps_openAt hwriter (keeps_openAt hreader hk)⟩

theorem pipe_free (h : t.pipe reader writer reads writes = some t') :
    t reader = none ∧ t writer = none := by
  obtain ⟨t₁, hreader, hwriter⟩ := Option.bind_eq_some_iff.mp h
  obtain ⟨hr, rfl⟩ := openAt_some hreader
  refine ⟨hr, ?_⟩
  have hw := (openAt_some hwriter).1
  by_cases hne : writer = reader
  · rwa [hne]
  · rwa [Function.update_of_ne hne] at hw

theorem holds_pipe (h : t.pipe reader writer reads writes = some t') (ht : t'.Holds file) :
    t.Holds file ∨ file = reads ∨ file = writes := by
  obtain ⟨t₁, hreader, hwriter⟩ := Option.bind_eq_some_iff.mp h
  obtain ht | rfl := holds_openAt hwriter ht
  · exact (holds_openAt hreader ht).imp id Or.inl
  · exact Or.inr (Or.inr rfl)

theorem pipe_only (h : t.pipe reader writer reads writes = some t') (hne : writes ≠ reads)
    (hreads : ¬ t.Holds reads) (hwrites : ¬ t.Holds writes) :
    t'.Only reader reads ∧ t'.Only writer writes := by
  obtain ⟨t₁, hreader, hwriter⟩ := Option.bind_eq_some_iff.mp h
  refine ⟨only_openAt hwriter hne (openAt_only hreader hreads), openAt_only hwriter fun ht => ?_⟩
  obtain ht | he := holds_openAt hreader ht
  · exact hwrites ht
  · exact hne he

theorem only_pipe (h : t.pipe reader writer reads writes = some t') (hreads : reads ≠ file)
    (hwrites : writes ≠ file) (ht : t.Only fd file) : t'.Only fd file := by
  obtain ⟨t₁, hreader, hwriter⟩ := Option.bind_eq_some_iff.mp h
  exact only_openAt hwriter hwrites (only_openAt hreader hreads ht)

end Pipe

end Tlsdate.Descriptors
