import Mathlib.Data.Set.Basic
import Tlsdate.Machine

namespace Tlsdate.Credentials

structure Ids where
  real : Nat
  effective : Nat
  saved : Nat
  deriving DecidableEq, Repr

def Ids.same (i : Nat) : Ids := ⟨i, i, i⟩

def Ids.has (ids : Ids) (i : Nat) : Bool := ids.real = i || ids.effective = i || ids.saved = i

section Calls

variable (privileged : Bool) (ids : Ids)

/-- `setuid` and `setgid` -/
def Ids.set (i : Nat) : Option Ids :=
  if privileged then some (.same i)
  else if ids.real = i ∨ ids.saved = i then some { ids with effective := i } else none

/-- `seteuid` and `setegid` -/
def Ids.setEffective (i : Nat) : Option Ids :=
  if privileged || ids.has i then some { ids with effective := i } else none

/-- `setreuid` and `setregid`, where none stands for -1. -/
def Ids.setRe (real effective : Option Nat) : Option Ids :=
  if privileged || (real.all fun i => ids.real = i || ids.effective = i) && effective.all ids.has then
    let e := effective.getD ids.effective
    some ⟨real.getD ids.real, e,
      if real.isSome || (effective.any fun i => i != ids.real) then e else ids.saved⟩
  else none

/-- `setresuid` and `setresgid` -/
def Ids.setRes (real effective saved : Option Nat) : Option Ids :=
  if privileged || (real.all ids.has && effective.all ids.has && saved.all ids.has) then
    some ⟨real.getD ids.real, effective.getD ids.effective, saved.getD ids.saved⟩
  else none

end Calls

structure Cred where
  uid : Ids
  gid : Ids
  groups : List Nat
  deriving DecidableEq, Repr

def Cred.root (c : Cred) : Bool := c.uid.effective = 0

/-- The owner and the group of a program file, where its set-user-ID or its
set-group-ID bit is set. -/
structure Program where
  setuid : Option Nat
  setgid : Option Nat
  deriving DecidableEq, Repr

inductive Call
  | setuid (i : Nat)
  | seteuid (i : Nat)
  | setreuid (real effective : Option Nat)
  | setresuid (real effective saved : Option Nat)
  | setgid (i : Nat)
  | setegid (i : Nat)
  | setregid (real effective : Option Nat)
  | setresgid (real effective saved : Option Nat)
  | setgroups (groups : List Nat)
  | exec (program : Program)
  deriving DecidableEq, Repr

/-- A call that succeeds; one that fails changes nothing. -/
def call (c : Cred) : Call → Option Cred
  | .setuid i => (c.uid.set c.root i).map fun uid => { c with uid := uid }
  | .seteuid i => (c.uid.setEffective c.root i).map fun uid => { c with uid := uid }
  | .setreuid r e => (c.uid.setRe c.root r e).map fun uid => { c with uid := uid }
  | .setresuid r e s => (c.uid.setRes c.root r e s).map fun uid => { c with uid := uid }
  | .setgid i => (c.gid.set c.root i).map fun gid => { c with gid := gid }
  | .setegid i => (c.gid.setEffective c.root i).map fun gid => { c with gid := gid }
  | .setregid r e => (c.gid.setRe c.root r e).map fun gid => { c with gid := gid }
  | .setresgid r e s => (c.gid.setRes c.root r e s).map fun gid => { c with gid := gid }
  | .setgroups groups => if c.root then some { c with groups := groups } else none
  | .exec program =>
      let uid := program.setuid.getD c.uid.effective
      let gid := program.setgid.getD c.gid.effective
      some ⟨⟨c.uid.real, uid, uid⟩, ⟨c.gid.real, gid, gid⟩, c.groups⟩

section Root

variable {c : Cred} {i : Nat}

theorem call_setgid (h : c.root = true) : call c (.setgid i) = some { c with gid := .same i } := by
  rw [call, h]
  rfl

theorem call_setegid (h : c.root = true) :
    call c (.setegid i) = some { c with gid := { c.gid with effective := i } } := by
  rw [call, h]
  rfl

theorem call_setresgid (h : c.root = true) :
    call c (.setresgid i i i) = some { c with gid := .same i } := by
  rw [call, h]
  rfl

theorem call_setuid (h : c.root = true) : call c (.setuid i) = some { c with uid := .same i } := by
  rw [call, h]
  rfl

theorem call_setresuid (h : c.root = true) :
    call c (.setresuid i i i) = some { c with uid := .same i } := by
  rw [call, h]
  rfl

theorem call_seteuid_same (h : c.uid = .same i) : call c (.seteuid i) = some c := by
  obtain ⟨uid, gid, groups⟩ := c
  obtain rfl : uid = .same i := h
  simp [call, Ids.setEffective, Ids.has, Ids.same]

end Root

def step : Machine.Step Cred Call Empty := fun c a => (call c a).map fun c => (c, [])

def Executes (programs : Set Program) (_ : Cred) : Call → Prop
  | .exec program => program ∈ programs
  | _ => True

section Unprivileged

variable {ids ids' : Ids} {p : Nat → Prop}

def Ids.All (p : Nat → Prop) (ids : Ids) : Prop := p ids.real ∧ p ids.effective ∧ p ids.saved

theorem all_eq {i : Nat} : ids.All (· = i) ↔ ids = .same i := by
  obtain ⟨real, effective, saved⟩ := ids
  simp [Ids.All, Ids.same]

theorem all_has {i : Nat} (h : ids.All p) (hi : ids.has i = true) : p i := by
  simp only [Ids.has, Bool.or_eq_true, decide_eq_true_eq] at hi
  obtain (rfl | rfl) | rfl := hi
  · exact h.1
  · exact h.2.1
  · exact h.2.2

theorem all_getD {o : Option Nat} {i : Nat} (h : ids.All p) (hi : p i) (ho : o.all ids.has = true) :
    p (o.getD i) := by
  cases o with
  | none => exact hi
  | some j => exact all_has h ho

theorem all_set {i : Nat} (h : ids.All p) (hs : ids.set false i = some ids') : ids'.All p := by
  rw [Ids.set, if_neg Bool.false_ne_true] at hs
  split_ifs at hs with hi
  obtain rfl := Option.some.inj hs
  obtain rfl | rfl := hi
  · exact ⟨h.1, h.1, h.2.2⟩
  · exact ⟨h.1, h.2.2, h.2.2⟩

theorem all_setEffective {i : Nat} (h : ids.All p) (hs : ids.setEffective false i = some ids') :
    ids'.All p := by
  rw [Ids.setEffective, Bool.false_or] at hs
  split_ifs at hs with hi
  obtain rfl := Option.some.inj hs
  exact ⟨h.1, all_has h hi, h.2.2⟩

theorem all_setRe {r e : Option Nat} (h : ids.All p) (hs : ids.setRe false r e = some ids') :
    ids'.All p := by
  rw [Ids.setRe, Bool.false_or, Option.ite_none_right_eq_some] at hs
  obtain ⟨hi, he⟩ := hs
  obtain rfl := Option.some.inj he
  obtain ⟨hr, he⟩ := Bool.and_eq_true_iff.mp hi
  have heffective := all_getD h h.2.1 he
  refine ⟨?_, heffective, ?_⟩
  · cases r with
    | none => exact h.1
    | some i =>
        have hi : ids.real = i ∨ ids.effective = i := by simpa using hr
        obtain rfl | rfl := hi
        · exact h.1
        · exact h.2.1
  · split_ifs
    · exact heffective
    · exact h.2.2

theorem all_setRes {r e s : Option Nat} (h : ids.All p) (hs : ids.setRes false r e s = some ids') :
    ids'.All p := by
  rw [Ids.setRes, Bool.false_or] at hs
  split_ifs at hs with hi
  obtain rfl := Option.some.inj hs
  simp only [Bool.and_eq_true] at hi
  exact ⟨all_getD h h.1 hi.1.1, all_getD h h.2.1 hi.1.2, all_getD h h.2.2 hi.2⟩

variable {c c' d : Cred} {q : Nat → Prop} {a : Call}

def Program.Within (p q : Nat → Prop) (program : Program) : Prop :=
  (∀ u ∈ program.setuid, p u) ∧ ∀ g ∈ program.setgid, q g

variable {programs : Set Program}

theorem call_confined (hw : ∀ program ∈ programs, program.Within p q) (ha : Executes programs c a)
    (hc : c.root = false) (hu : c.uid.All p) (hg : c.gid.All q) (h : call c a = some c') :
    c'.uid.All p ∧ c'.gid.All q ∧ c'.groups = c.groups := by
  cases a with
  | setuid | seteuid | setreuid | setresuid =>
      rw [call, hc] at h
      obtain ⟨uid, hs, rfl⟩ := Option.map_eq_some_iff.mp h
      first
        | exact ⟨all_set hu hs, hg, rfl⟩
        | exact ⟨all_setEffective hu hs, hg, rfl⟩
        | exact ⟨all_setRe hu hs, hg, rfl⟩
        | exact ⟨all_setRes hu hs, hg, rfl⟩
  | setgid | setegid | setregid | setresgid =>
      rw [call, hc] at h
      obtain ⟨gid, hs, rfl⟩ := Option.map_eq_some_iff.mp h
      first
        | exact ⟨hu, all_set hg hs, rfl⟩
        | exact ⟨hu, all_setEffective hg hs, rfl⟩
        | exact ⟨hu, all_setRe hg hs, rfl⟩
        | exact ⟨hu, all_setRes hg hs, rfl⟩
  | setgroups groups =>
      rw [call, hc, if_neg Bool.false_ne_true] at h
      cases h
  | exec program =>
      obtain rfl := Option.some.inj h
      obtain ⟨hsetuid, hsetgid⟩ := hw program ha
      have huid : p (program.setuid.getD c.uid.effective) := by
        cases hs : program.setuid with
        | none => exact hu.2.1
        | some u => exact hsetuid u hs
      have hgid : q (program.setgid.getD c.gid.effective) := by
        cases hs : program.setgid with
        | none => exact hg.2.1
        | some g => exact hsetgid g hs
      exact ⟨⟨hu.1, huid, huid⟩, ⟨hg.1, hgid, hgid⟩, rfl⟩

/-- Whatever calls it makes, a process that has no id of root stays within its ids and
those of the programs, and so do its children, each of which begins with its credentials. -/
theorem run_confined {as : List Call} {out : List Empty} (hp : ¬ p 0)
    (hw : ∀ program ∈ programs, program.Within p q) (hu : c.uid.All p) (hg : c.gid.All q)
    (hrun : Machine.Run step (Executes programs) c as d out) :
    d.uid.All p ∧ d.gid.All q ∧ d.groups = c.groups := by
  refine hrun.invariant (fun d => d.uid.All p ∧ d.gid.All q ∧ d.groups = c.groups) ⟨hu, hg, rfl⟩ ?_
  intro s a s' o hi ha hs
  obtain ⟨c', hcall, he⟩ := Option.map_eq_some_iff.mp hs
  obtain ⟨rfl, -⟩ := Prod.mk.inj he
  have hroot : s.root = false := by
    simp only [Cred.root, decide_eq_false_iff_not]
    exact fun hz => hp (hz ▸ hi.1.2.1)
  obtain ⟨hu', hg', hgroups⟩ := call_confined hw ha hroot hi.1 hi.2.1 hcall
  exact ⟨hu', hg', hgroups.trans hi.2.2⟩

end Unprivileged

end Tlsdate.Credentials
