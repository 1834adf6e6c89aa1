import Tlsdate.Descriptors
import Tlsdate.Machine

namespace Tlsdate.PipeEnds

open Descriptors

inductive File
  | saveRead
  | saveWrite
  | notifyRead
  | notifyWrite
  | monitorRead
  | monitorWrite
  | other
  deriving DecidableEq, Repr

/-- The descriptors that `pipe` returns for `to_fds`, `from_fds` and the pair of
`setup_tlsdate_status`. -/
structure Numbers where
  toRead : Nat
  toWrite : Nat
  fromRead : Nat
  fromWrite : Nat
  monitorRead : Nat
  monitorWrite : Nat

variable (n : Numbers)

/-- `setup_time_setter`: the descriptors of the daemon and of the setter. That
the ends of the daemon do not block is not a matter of the descriptors. -/
def setupTimeSetter (t : Table File) : Option (Table File × Table File) :=
  (t.pipe n.toRead n.toWrite .saveRead .saveWrite).bind fun t =>
    (t.pipe n.fromRead n.fromWrite .notifyRead .notifyWrite).map fun t =>
      ((t.close n.fromWrite).close n.toRead, (t.close n.toWrite).close n.fromRead)

/-- `setup_tlsdate_status`. F_SETFL leaves FD_CLOEXEC alone, so that O_CLOEXEC
has no effect on the descriptor. -/
def setupTlsdateStatus (t : Table File) : Option (Table File) :=
  t.pipe n.monitorRead n.monitorWrite .monitorRead .monitorWrite

/-- `tlsdate` in the child: stdout becomes the pipe to the daemon. -/
def tlsdate (t : Table File) : Table File := (t.dup2 n.monitorWrite 1).exec

inductive FileCall
  | opens (fd : Nat) (cloexec : Bool)
  | closes (fd : Nat)
  | execs

def fileCall (t : Table File) : FileCall → Option (Table File)
  | .opens fd cloexec => t.openAt fd ⟨.other, cloexec⟩
  | .closes fd => if (t fd).map Entry.file = some .other then some (t.close fd) else none
  | .execs => some t.exec

/-- The descriptors of the processes that are alive. A helper is a child of the
daemon or descends from one. -/
structure World where
  daemon : Option (Table File)
  setter : Option (Table File)
  helpers : List (Table File)

def World.tables (w : World) : List (Table File) := w.daemon.toList ++ w.setter.toList ++ w.helpers

/-- `main` up to the event loop; between the two calls it opens `others`. -/
def start (t : Table File) (others : List FileCall) : Option World :=
  (setupTimeSetter n t).bind fun p =>
    (others.foldlM fileCall p.1).bind fun t =>
      (setupTlsdateStatus n t).map fun t => ⟨some t, some p.2, []⟩

inductive Act
  | daemonCall (c : FileCall)
  | setterCall (c : FileCall)
  | helperCall (i : Nat) (c : FileCall)
  | launch
  | helperForks (i : Nat)
  /-- `action_time_set` closes its descriptor when the pipe is broken. -/
  | timeSetBroken
  | daemonExits
  | setterExits
  | helperExits (i : Nat)

def next (w : World) : Act → Option World
  | .daemonCall c => (w.daemon.bind (fileCall · c)).map fun t => { w with daemon := some t }
  | .setterCall c => (w.setter.bind (fileCall · c)).map fun t => { w with setter := some t }
  | .helperCall i c => (w.helpers[i]?.bind (fileCall · c)).map fun t =>
      { w with helpers := w.helpers.set i t }
  | .launch => w.daemon.map fun t => { w with helpers := w.helpers ++ [tlsdate n t] }
  | .helperForks i => w.helpers[i]?.map fun t => { w with helpers := w.helpers ++ [t] }
  | .timeSetBroken => w.daemon.map fun t => { w with daemon := some (t.close n.fromRead) }
  | .daemonExits => some { w with daemon := none }
  | .setterExits => some { w with setter := none }
  | .helperExits i => some { w with helpers := w.helpers.eraseIdx i }

def step : Machine.Step World Act Empty := fun w a => (next n w a).map fun w => (w, [])

/-- A read finds the end of a pipe, once it is empty, if no process has a
descriptor to write to it. -/
def AtEnd (w : World) (writes : File) : Prop := ∀ t ∈ w.tables, ¬ t.Holds writes

structure Parent (t : Table File) : Prop where
  save : t.Keeps n.toWrite .saveWrite
  monitor : t.Keeps n.monitorWrite .monitorWrite
  noSaveRead : ¬ t.Holds .saveRead
  noNotifyWrite : ¬ t.Holds .notifyWrite

structure Setter (t : Table File) : Prop where
  notify : t.Keeps n.fromWrite .notifyWrite
  noSaveWrite : ¬ t.Holds .saveWrite

structure Helper (t : Table File) : Prop where
  save : t.Keeps n.toWrite .saveWrite
  noSaveRead : ¬ t.Holds .saveRead
  noNotifyWrite : ¬ t.Holds .notifyWrite

structure Kept (w : World) : Prop where
  daemon : ∀ t ∈ w.daemon, Parent n t
  setter : ∀ t ∈ w.setter, Setter n t
  helpers : ∀ t ∈ w.helpers, Helper n t

variable {n} {t t' : Table File} {c : FileCall} {w w' : World}

theorem fileCall_keeps (h : fileCall t c = some t') {fd : Nat} {file : File} (hfile : file ≠ .other)
    (hk : t.Keeps fd file) : t'.Keeps fd file := by
  cases c with
  | opens fd' cloexec => exact keeps_openAt h hk
  | closes fd' =>
      rw [fileCall] at h
      split_ifs at h with hother
      obtain rfl := Option.some.inj h
      refine keeps_close hk ?_
      rintro rfl
      rw [hk] at hother
      exact hfile (Option.some.inj hother)
  | execs =>
      obtain rfl := Option.some.inj h
      exact keeps_exec hk

theorem fileCall_holds (h : fileCall t c = some t') {file : File} (hfile : file ≠ .other)
    (ht : t'.Holds file) : t.Holds file := by
  cases c with
  | opens fd cloexec =>
      obtain ht | he := holds_openAt h ht
      · exact ht
      · exact absurd he hfile
  | closes fd =>
      rw [fileCall] at h
      split_ifs at h
      obtain rfl := Option.some.inj h
      exact holds_close ht
  | execs =>
      obtain rfl := Option.some.inj h
      exact holds_exec ht

theorem Parent.call (ht : Parent n t) (h : fileCall t c = some t') : Parent n t' :=
  ⟨fileCall_keeps h (by decide) ht.save, fileCall_keeps h (by decide) ht.monitor,
    fun hh => ht.noSaveRead (fileCall_holds h (by decide) hh),
    fun hh => ht.noNotifyWrite (fileCall_holds h (by decide) hh)⟩

theorem Setter.call (ht : Setter n t) (h : fileCall t c = some t') : Setter n t' :=
  ⟨fileCall_keeps h (by decide) ht.notify, fun hh => ht.noSaveWrite (fileCall_holds h (by decide) hh)⟩

theorem Helper.call (ht : Helper n t) (h : fileCall t c = some t') : Helper n t' :=
  ⟨fileCall_keeps h (by decide) ht.save,
    fun hh => ht.noSaveRead (fileCall_holds h (by decide) hh),
    fun hh => ht.noNotifyWrite (fileCall_holds h (by decide) hh)⟩

theorem Parent.launch (ht : Parent n t) (hstdout : n.toWrite ≠ 1) : Helper n (tlsdate n t) :=
  ⟨keeps_exec (keeps_dup2 ht.save hstdout), fun hh => ht.noSaveRead (holds_dup2 (holds_exec hh)),
    fun hh => ht.noNotifyWrite (holds_dup2 (holds_exec hh))⟩

/-- The numbers that the code closes or replaces are not those of the ends that it keeps. -/
structure Apart (n : Numbers) : Prop where
  stdout : n.toWrite ≠ 1
  save : n.toWrite ≠ n.fromRead
  monitor : n.monitorWrite ≠ n.fromRead

theorem Parent.broken (ht : Parent n t) (hn : Apart n) : Parent n (t.close n.fromRead) :=
  ⟨keeps_close ht.save hn.save, keeps_close ht.monitor hn.monitor,
    fun hh => ht.noSaveRead (holds_close hh), fun hh => ht.noNotifyWrite (holds_close hh)⟩

theorem next_kept {a : Act} (hw : Kept n w) (hn : Apart n) (h : next n w a = some w') : Kept n w' := by
  have hadded {t : Table File} (ht : Helper n t) : ∀ t' ∈ w.helpers ++ [t], Helper n t' :=
    List.forall_mem_append.mpr ⟨hw.helpers, List.forall_mem_singleton.mpr ht⟩
  cases a with
  | daemonCall c =>
      obtain ⟨t, hc, rfl⟩ := Option.map_eq_some_iff.mp h
      obtain ⟨t₀, ht₀, hc⟩ := Option.bind_eq_some_iff.mp hc
      exact ⟨by simpa using (hw.daemon t₀ ht₀).call hc, hw.setter, hw.helpers⟩
  | setterCall c =>
      obtain ⟨t, hc, rfl⟩ := Option.map_eq_some_iff.mp h
      obtain ⟨t₀, ht₀, hc⟩ := Option.bind_eq_some_iff.mp hc
      exact ⟨hw.daemon, by simpa using (hw.setter t₀ ht₀).call hc, hw.helpers⟩
  | helperCall i c =>
      obtain ⟨t, hc, rfl⟩ := Option.map_eq_some_iff.mp h
      obtain ⟨t₀, ht₀, hc⟩ := Option.bind_eq_some_iff.mp hc
      refine ⟨hw.daemon, hw.setter, fun t' ht' => ?_⟩
      obtain ht' | rfl := List.mem_or_eq_of_mem_set ht'
      · exact hw.helpers t' ht'
      · exact (hw.helpers t₀ (List.mem_of_getElem? ht₀)).call hc
  | launch =>
      obtain ⟨t, ht, rfl⟩ := Option.map_eq_some_iff.mp h
      exact ⟨hw.daemon, hw.setter, hadded ((hw.daemon t ht).launch hn.stdout)⟩
  | helperForks i =>
      obtain ⟨t, ht, rfl⟩ := Option.map_eq_some_iff.mp h
      exact ⟨hw.daemon, hw.setter, hadded (hw.helpers t (List.mem_of_getElem? ht))⟩
  | timeSetBroken =>
      obtain ⟨t, ht, rfl⟩ := Option.map_eq_some_iff.mp h
      exact ⟨by simpa using (hw.daemon t ht).broken hn, hw.setter, hw.helpers⟩
  | daemonExits =>
      obtain rfl := Option.some.inj h
      exact ⟨by simp, hw.setter, hw.helpers⟩
  | setterExits =>
      obtain rfl := Option.some.inj h
      exact ⟨hw.daemon, by simp, hw.helpers⟩
  | helperExits i =>
      obtain rfl := Option.some.inj h
      exact ⟨hw.daemon, hw.setter, fun t ht => hw.helpers t (List.mem_of_mem_eraseIdx ht)⟩

/-- The files that the daemon starts with are not ends of its pipes. -/
def Fresh (t : Table File) : Prop := ∀ file, t.Holds file → file = .other

theorem Fresh.not_holds {file : File} (ht : Fresh t) (hfile : file ≠ .other) : ¬ t.Holds file :=
  fun hh => hfile (ht file hh)

structure Begun (n : Numbers) (t : Table File) : Prop where
  save : t.Keeps n.toWrite .saveWrite
  notify : t.Keeps n.fromRead .notifyRead
  noSaveRead : ¬ t.Holds .saveRead
  noNotifyWrite : ¬ t.Holds .notifyWrite

theorem Begun.call (ht : Begun n t) (h : fileCall t c = some t') : Begun n t' :=
  ⟨fileCall_keeps h (by decide) ht.save, fileCall_keeps h (by decide) ht.notify,
    fun hh => ht.noSaveRead (fileCall_holds h (by decide) hh),
    fun hh => ht.noNotifyWrite (fileCall_holds h (by decide) hh)⟩

theorem Begun.calls {cs : List FileCall} (ht : Begun n t) (h : cs.foldlM fileCall t = some t') :
    Begun n t' := by
  induction cs generalizing t with
  | nil =>
      obtain rfl := Option.some.inj h
      exact ht
  | cons c cs ih =>
      rw [List.foldlM_cons] at h
      obtain ⟨t₁, hc, hcs⟩ := Option.bind_eq_some_iff.mp h
      exact ih (ht.call hc) hcs

theorem setupTimeSetter_some {p : Table File × Table File} (ht : Fresh t)
    (h : setupTimeSetter n t = some p) : Begun n p.1 ∧ Setter n p.2 ∧ t n.toWrite = none := by
  obtain ⟨t₁, hto, h⟩ := Option.bind_eq_some_iff.mp h
  obtain ⟨t₂, hfrom, rfl⟩ := Option.map_eq_some_iff.mp h
  have hnew {file : File} (hfile : file ≠ .other) (hsave : file ≠ .saveRead)
      (hsave' : file ≠ .saveWrite) : ¬ t₁.Holds file := fun hh => by
    obtain hh | rfl | rfl := holds_pipe hto hh
    · exact ht.not_holds hfile hh
    · exact hsave rfl
    · exact hsave' rfl
  obtain ⟨htoRead, htoWrite, -⟩ := keeps_pipe hto
  obtain ⟨hfromRead, hfromWrite, hkept⟩ := keeps_pipe hfrom
  have hread := hkept _ _ htoRead
  have hwrite := hkept _ _ htoWrite
  obtain ⟨honlyRead, honlyWrite⟩ := pipe_only hto (by decide) (ht.not_holds (by decide))
    (ht.not_holds (by decide))
  obtain ⟨-, honlyNotify⟩ := pipe_only hfrom (by decide) (hnew (by decide) (by decide) (by decide))
    (hnew (by decide) (by decide) (by decide))
  have hapart {fd fd' : Nat} {file file' : File} (hfd : t₂.Keeps fd file) (hfd' : t₂.Keeps fd' file')
      (hfile : file ≠ file') : fd ≠ fd' := fun he => hfile (keeps_inj (he ▸ hfd) hfd')
  refine ⟨⟨?_, ?_, ?_, ?_⟩, ⟨?_, ?_⟩, (pipe_free hto).2⟩
  · exact keeps_close (keeps_close hwrite (hapart hwrite hfromWrite (by decide)))
      (hapart hwrite hread (by decide))
  · exact keeps_close (keeps_close hfromRead (hapart hfromRead hfromWrite (by decide)))
      (hapart hfromRead hread (by decide))
  · exact only_close (only_pipe hfrom (by decide) (by decide) honlyRead).close
  · exact fun hh => only_close honlyNotify (holds_close hh)
  · exact keeps_close (keeps_close hfromWrite (hapart hfromWrite hwrite (by decide)))
      (hapart hfromWrite hfromRead (by decide))
  · exact fun hh =>
      only_close (only_pipe hfrom (by decide) (by decide) honlyWrite) (holds_close hh)

theorem Begun.parent (ht : Begun n t) (h : setupTlsdateStatus n t = some t') :
    Parent n t' ∧ n.toWrite ≠ n.fromRead ∧ n.monitorWrite ≠ n.fromRead := by
  obtain ⟨-, hmonitor, hkept⟩ := keeps_pipe h
  have hsave := hkept _ _ ht.save
  have hnotify := hkept _ _ ht.notify
  refine ⟨⟨hsave, hmonitor, fun hh => ?_, fun hh => ?_⟩, fun he => ?_, fun he => ?_⟩
  · obtain hh | hf | hf := holds_pipe h hh
    · exact ht.noSaveRead hh
    all_goals cases hf
  · obtain hh | hf | hf := holds_pipe h hh
    · exact ht.noNotifyWrite hh
    all_goals cases hf
  · cases keeps_inj (he ▸ hsave) hnotify
  · cases keeps_inj (he ▸ hmonitor) hnotify

theorem start_kept {others : List FileCall} (ht : Fresh t) (hstdout : (t 1).isSome)
    (h : start n t others = some w) : Kept n w ∧ Apart n := by
  obtain ⟨p, hsetter, h⟩ := Option.bind_eq_some_iff.mp h
  obtain ⟨t₁, hothers, h⟩ := Option.bind_eq_some_iff.mp h
  obtain ⟨t₂, hstatus, rfl⟩ := Option.map_eq_some_iff.mp h
  obtain ⟨hbegun, hcoprocess, hfree⟩ := setupTimeSetter_some ht hsetter
  obtain ⟨hparent, hsave, hmonitor⟩ := (hbegun.calls hothers).parent hstatus
  refine ⟨⟨by simpa using hparent, by simpa using hcoprocess, by simp⟩, ?_, hsave, hmonitor⟩
  intro he
  rw [← he, hfree] at hstdout
  cases hstdout

/-- Which of the processes have the ends of the pipes, and what it takes for a read to find
the end of one. -/
structure Ends (w : World) : Prop where
  setterOnly : ∀ t ∈ w.daemon.toList ++ w.helpers, ¬ t.Holds .saveRead ∧ ¬ t.Holds .notifyWrite
  inherited : ∀ t ∈ w.helpers, t.Holds .saveWrite
  save : AtEnd w .saveWrite ↔ w.daemon = none ∧ w.helpers = []
  notify : AtEnd w .notifyWrite ↔ w.setter = none
  monitor : w.daemon ≠ none → ¬ AtEnd w .monitorWrite

theorem atEnd_iff {file : File} : AtEnd w file ↔ (∀ t ∈ w.daemon, ¬ t.Holds file) ∧
    (∀ t ∈ w.setter, ¬ t.Holds file) ∧ ∀ t ∈ w.helpers, ¬ t.Holds file := by
  simp only [AtEnd, World.tables, List.forall_mem_append, Option.mem_toList, Option.mem_def, and_assoc]

theorem Kept.ends (hw : Kept n w) : Ends w where
  setterOnly := List.forall_mem_append.mpr
    ⟨fun t ht => ⟨(hw.daemon t (Option.mem_toList.mp ht)).noSaveRead,
        (hw.daemon t (Option.mem_toList.mp ht)).noNotifyWrite⟩,
      fun t ht => ⟨(hw.helpers t ht).noSaveRead, (hw.helpers t ht).noNotifyWrite⟩⟩
  inherited := fun t ht => (hw.helpers t ht).save.holds
  save := by
    rw [atEnd_iff, Option.eq_none_iff_forall_not_mem, List.eq_nil_iff_forall_not_mem]
    constructor
    · rintro ⟨hd, -, hh⟩
      exact ⟨fun t ht => hd t ht (hw.daemon t ht).save.holds,
        fun t ht => hh t ht (hw.helpers t ht).save.holds⟩
    · rintro ⟨hd, hh⟩
      exact ⟨fun t ht => absurd ht (hd t), fun t ht => (hw.setter t ht).noSaveWrite,
        fun t ht => absurd ht (hh t)⟩
  notify := by
    rw [atEnd_iff, Option.eq_none_iff_forall_not_mem]
    constructor
    · rintro ⟨-, hs, -⟩
      exact fun t ht => hs t ht (hw.setter t ht).notify.holds
    · exact fun hs => ⟨fun t ht => (hw.daemon t ht).noNotifyWrite, fun t ht => absurd ht (hs t),
        fun t ht => (hw.helpers t ht).noNotifyWrite⟩
  monitor := by
    intro hd hend
    obtain ⟨t, ht⟩ := Option.ne_none_iff_exists'.mp hd
    exact (atEnd_iff.mp hend).1 t ht (hw.daemon t ht).monitor.holds

/-- In every run the daemon sees the end of the setter's pipe just when the setter is gone,
but the setter sees the end of its own only when the daemon and all helpers are: each of these
has the end that is meant for the daemon. The daemon never sees the end of the helpers' pipe. -/
theorem run_ends {others : List FileCall} {w₀ : World} {acts : List Act} {out : List Empty}
    (ht : Fresh t) (hstdout : (t 1).isSome) (h₀ : start n t others = some w₀)
    (hrun : Machine.Run (step n) Machine.Free w₀ acts w out) : Ends w := by
  obtain ⟨hkept, hapart⟩ := start_kept ht hstdout h₀
  refine (hrun.invariant (Kept n) hkept fun w a w' o hw _ hs => ?_).ends
  obtain ⟨w₁, hnext, he⟩ := Option.map_eq_some_iff.mp hs
  obtain ⟨rfl, -⟩ := Prod.mk.inj he
  exact next_kept hw hapart hnext

def standardFiles : Table File := fun fd => if fd < 3 then some ⟨.other, false⟩ else none

def firstNumbers : Numbers := ⟨3, 4, 5, 6, 3, 6⟩

theorem standardFiles_fresh : Fresh standardFiles := by
  rintro file ⟨fd, e, he, rfl⟩
  rw [standardFiles] at he
  split_ifs at he
  rw [← Option.some.inj he]

/-- The daemon is gone, and a helper keeps the setter from seeing the end of its pipe. -/
theorem run_ends_orphan : ∃ w, Ends w ∧ w.daemon = none ∧ ¬ AtEnd w .saveWrite := by
  have hrun : ∃ w₀ w out, start firstNumbers standardFiles [] = some w₀ ∧
      Machine.exec (step firstNumbers) w₀ [.launch, .helperForks 0, .daemonExits, .helperExits 0] =
        some (w, out) ∧ w.daemon = none ∧ w.helpers ≠ [] := ⟨_, _, _, rfl, rfl, rfl, by simp⟩
  obtain ⟨w₀, w, out, h₀, hx, hd, hh⟩ := hrun
  have hends := run_ends standardFiles_fresh rfl h₀ (.of_exec hx)
  exact ⟨w, hends, hd, fun hend => hh (hends.save.mp hend).2⟩

end Tlsdate.PipeEnds
