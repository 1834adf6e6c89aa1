import Tlsdate.CertCheck
import Tlsdate.Credentials

namespace Tlsdate.PrivDrop

open Credentials
open CertCheck (dieUnless bind_ok dieUnless_bind)

structure Passwd where
  uid : Nat
  gid : Nat

/-- What `getpwnam` and `getgrnam` find, and the groups that `initgroups` finds
a user in. -/
structure Accounts where
  passwd : String → Option Passwd
  group : String → Option Nat
  groupsOf : String → List Nat

/-- Whether the program is built with `setresgid` and `setresuid`. -/
structure Variant where
  resgid : Bool
  resuid : Bool

def orDie {α : Type} (result : Option α) (message : String) : Except String α :=
  result.elim (.error message) .ok

variable (v : Variant)

def Variant.setGid (gid : Nat) (c : Cred) : Option Cred :=
  if v.resgid then call c (.setresgid gid gid gid)
  else (call c (.setgid gid)).bind (call · (.setegid gid))

def Variant.setUid (uid : Nat) (c : Cred) : Option Cred :=
  if v.resuid then call c (.setresuid uid uid uid)
  else (call c (.setuid uid)).bind (call · (.seteuid uid))

def Variant.name (call : String) (res : Bool) : String := if res then "setres" ++ call else "set" ++ call

def dropPrivsTo (db : Accounts) (user group : String) (c : Cred) : Except String Cred :=
  -- not running as root to begin with
  if c.uid.real ≠ 0 then .ok c
  else do
    let pw ← orDie (db.passwd user) ("Failed to obtain UID for `" ++ user ++ "'\n")
    let gr ← orDie (db.group group) ("Failed to obtain GID for `" ++ group ++ "'\n")
    dieUnless (pw.uid != 0) ("UID for `" ++ user ++ "' is 0, refusing to run SSL\n")
    dieUnless (pw.gid != 0 && gr != 0) ("GID for `" ++ user ++ "' is 0, refusing to run SSL\n")
    dieUnless (pw.gid == gr)
      ("GID for `" ++ user ++ "' is not `" ++ group ++ "' as expected, refusing to run SSL\n")
    let c ← orDie (call c (.setgroups (gr :: db.groupsOf user)))
      ("Unable to initgroups for `" ++ user ++ "' in group `" ++ group ++ "' as expected\n")
    let c ← orDie (v.setGid pw.gid c)
      ("Failed to " ++ Variant.name "gid" v.resgid ++ ": Operation not permitted\n")
    orDie (v.setUid pw.uid c)
      ("Failed to " ++ Variant.name "uid" v.resuid ++ ": Operation not permitted\n")

/-- The helper and its child for the SSL session: without a clock to set there
is no need to stay root. -/
def helperMain (db : Accounts) (user group : String) (setclock timewarp : Bool) (c : Cred) :
    Except String (Cred × Cred) := do
  let parent ← (if !setclock && !timewarp then dropPrivsTo v db user group c else .ok c)
  let child ← dropPrivsTo v db user group parent
  return (parent, child)

variable {v} {db : Accounts} {user group : String} {c c' : Cred}

theorem orDie_bind {α β : Type} {x : Option α} {message : String} {f : α → Except String β} {b : β} :
    (orDie x message >>= f) = .ok b ↔ ∃ a, x = some a ∧ f a = .ok b := by
  rw [bind_ok]
  cases x <;> simp [orDie]

theorem orDie_ok {α : Type} {x : Option α} {message : String} {a : α} :
    orDie x message = .ok a ↔ x = some a := by
  cases x <;> simp [orDie]

theorem setGid_root {gid : Nat} (hroot : c.root = true) :
    v.setGid gid c = some { c with gid := .same gid } := by
  rw [Variant.setGid]
  split_ifs
  · exact call_setresgid hroot
  · rw [call_setgid hroot, Option.bind_some]
    exact call_setegid hroot

theorem setUid_root {uid : Nat} (hroot : c.root = true) :
    v.setUid uid c = some { c with uid := .same uid } := by
  rw [Variant.setUid]
  split_ifs
  · exact call_setresuid hroot
  · rw [call_setuid hroot, Option.bind_some]
    exact call_seteuid_same rfl

def Dropped (db : Accounts) (user group : String) (c' : Cred) : Prop :=
  ∃ pw, db.passwd user = some pw ∧ db.group group = some pw.gid ∧ pw.uid ≠ 0 ∧ pw.gid ≠ 0 ∧
    c' = ⟨.same pw.uid, .same pw.gid, pw.gid :: db.groupsOf user⟩

theorem dropPrivsTo_ok : dropPrivsTo v db user group c = .ok c' ↔
    c.uid.real ≠ 0 ∧ c' = c ∨
      c.uid.real = 0 ∧ c.uid.effective = 0 ∧ Dropped db user group c' := by
  rw [dropPrivsTo]
  by_cases hreal : c.uid.real = 0
  · rw [if_neg (not_not.mpr hreal)]
    simp only [orDie_bind, dieUnless_bind, orDie_ok, bne_iff_ne, ne_eq, Bool.and_eq_true, beq_iff_eq]
    constructor
    · rintro ⟨pw, hpw, gr, hgr, huid, ⟨hgid, -⟩, rfl, c₁, hgroups, c₂, hsetgid, hsetuid⟩
      rw [call] at hgroups
      split_ifs at hgroups with hroot
      obtain rfl := Option.some.inj hgroups
      have hgroup := @setGid_root v ⟨c.uid, c.gid, pw.gid :: db.groupsOf user⟩ pw.gid hroot
      obtain rfl := Option.some.inj (hgroup.symm.trans hsetgid)
      have huser := @setUid_root v ⟨c.uid, .same pw.gid, pw.gid :: db.groupsOf user⟩ pw.uid hroot
      exact Or.inr ⟨hreal, by simpa [Cred.root] using hroot, pw, hpw, hgr, huid, hgid,
        Option.some.inj (hsetuid.symm.trans huser)⟩
    · rintro (⟨hne, -⟩ | ⟨-, heffective, pw, hpw, hgr, huid, hgid, rfl⟩)
      · exact absurd hreal hne
      · have hroot : c.root = true := by simpa [Cred.root] using heffective
        exact ⟨pw, hpw, pw.gid, hgr, huid, ⟨hgid, hgid⟩, rfl, _, if_pos hroot, _,
          @setGid_root v ⟨c.uid, c.gid, pw.gid :: db.groupsOf user⟩ pw.gid hroot,
          @setUid_root v ⟨c.uid, .same pw.gid, pw.gid :: db.groupsOf user⟩ pw.uid hroot⟩
  · simp [hreal, eq_comm]

variable {programs : Set Program}

/-- A process with one user, not root, and one group stays as it is just where no program
is set to another user or group. -/
theorem run_same {uid gid : Nat} {groups : List Nat} (huid : uid ≠ 0) :
    (∀ as d out, Machine.Run step (Executes programs) ⟨.same uid, .same gid, groups⟩ as d out →
      d = ⟨.same uid, .same gid, groups⟩) ↔
      ∀ program ∈ programs, program.Within (· = uid) (· = gid) := by
  constructor
  · intro hall program hprogram
    have hd := hall [.exec program] _ _ (.one hprogram rfl)
    simp only [Ids.same, Cred.mk.injEq, Ids.mk.injEq] at hd
    obtain ⟨⟨-, hu, -⟩, ⟨-, hg, -⟩, -⟩ := hd
    refine ⟨fun u hu' => ?_, fun g hg' => ?_⟩
    · rwa [hu', Option.getD_some] at hu
    · rwa [hg', Option.getD_some] at hg
  · intro hw as d out hrun
    have hzero : ¬ 0 = uid := fun he => huid he.symm
    obtain ⟨hu, hg, hgroups⟩ := run_confined hzero hw (all_eq.mpr rfl) (all_eq.mpr rfl) hrun
    obtain ⟨uid', gid', groups'⟩ := d
    obtain rfl := all_eq.mp hu
    obtain rfl := all_eq.mp hg
    obtain rfl := hgroups
    rfl

/-- A process without an id of root can become root just by a program that is set to it. -/
theorem run_rootless (hu : c.uid.All (· ≠ 0)) :
    (∀ as d out, Machine.Run step (Executes programs) c as d out → d.root = false) ↔
      ∀ program ∈ programs, program.setuid ≠ some 0 := by
  constructor
  · intro hall program hprogram hset
    have hd := hall [.exec program] _ _ (.one hprogram rfl)
    rw [Cred.root, hset] at hd
    cases hd
  · intro hw as d out hrun
    have hwithin : ∀ program ∈ programs, program.Within (· ≠ 0) fun _ => True := by
      refine fun program hprogram => ⟨fun u hset => ?_, fun _ _ => trivial⟩
      rintro rfl
      exact hw program hprogram hset
    have hd := (run_confined (by simp) hwithin hu ⟨trivial, trivial, trivial⟩ hrun).1.2.1
    simpa [Cred.root] using hd

/-- Once it returns, a process that root started keeps the user, the group and the groups of
the account just where it can execute no program that is set to another user or group; nothing
calls `no_new_privs`, which would leave no such program. In general root is out of reach just
where no program is set to it, and the process was started by root or had no id of root to
return to. -/
theorem drop_final (h : dropPrivsTo v db user group c = .ok c') :
    (c.uid.real = 0 → Dropped db user group c' ∧
      ((∀ as d out, Machine.Run step (Executes programs) c' as d out → d = c') ↔
        ∀ program ∈ programs,
          program.Within (· = c'.uid.effective) (· = c'.gid.effective))) ∧
    ((∀ as d out, Machine.Run step (Executes programs) c' as d out → d.root = false) ↔
      (c.uid.real = 0 ∨ c.uid.effective ≠ 0 ∧ c.uid.saved ≠ 0) ∧
        ∀ program ∈ programs, program.setuid ≠ some 0) := by
  obtain ⟨hreal, rfl⟩ | ⟨hreal, -, hdropped⟩ := dropPrivsTo_ok.mp h
  · refine ⟨fun hz => absurd hz hreal, fun hall => ?_, ?_⟩
    · have heffective : c'.uid.effective ≠ 0 := fun he => by
        have hnow := hall [] c' [] .nil
        rw [Cred.root, he] at hnow
        cases hnow
      have hsaved : c'.uid.saved ≠ 0 := fun hs => by
        have hback : step c' (.seteuid 0) =
            some ({ c' with uid := { c'.uid with effective := 0 } }, []) := by
          have hhas : c'.uid.has 0 = true := by simp [Ids.has, hs]
          rw [step, call, Ids.setEffective, hhas, Bool.or_true]
          rfl
        cases hall [.seteuid 0] _ _ (.one trivial hback)
      exact ⟨Or.inr ⟨heffective, hsaved⟩, (run_rootless ⟨hreal, heffective, hsaved⟩).mp hall⟩
    · rintro ⟨hz | ⟨he, hs⟩, hprograms⟩
      · exact absurd hz hreal
      · exact (run_rootless ⟨hreal, he, hs⟩).mpr hprograms
  · refine ⟨fun _ => ⟨hdropped, ?_⟩, ?_⟩
    · obtain ⟨pw, -, -, huid, -, rfl⟩ := hdropped
      exact run_same huid
    · obtain ⟨pw, -, -, huid, -, rfl⟩ := hdropped
      rw [run_rootless (c := ⟨.same pw.uid, .same pw.gid, pw.gid :: db.groupsOf user⟩)
        ⟨huid, huid, huid⟩]
      exact ⟨fun hprograms => ⟨Or.inl hreal, hprograms⟩, fun hall => hall.2⟩

theorem drop_final_nobody :
    (∀ as d out, Machine.Run step (Executes {⟨none, none⟩})
        ⟨.same 65534, .same 65534, [65534]⟩ as d out →
      d = ⟨.same 65534, .same 65534, [65534]⟩) ∧
      ¬ ∀ as d out, Machine.Run step (Executes {⟨some 0, none⟩})
        ⟨.same 65534, .same 65534, [65534]⟩ as d out → d.root = false := by
  have hdrop : dropPrivsTo ⟨true, true⟩
      ⟨fun _ => some ⟨65534, 65534⟩, fun _ => some 65534, fun _ => []⟩ "nobody" "nogroup"
      ⟨.same 0, .same 0, [0]⟩ = .ok ⟨.same 65534, .same 65534, [65534]⟩ := rfl
  constructor
  · refine ((drop_final hdrop).1 rfl).2.mpr fun program hprogram => ?_
    obtain rfl := Set.mem_singleton_iff.mp hprogram
    simp [Program.Within]
  · intro hall
    exact ((drop_final hdrop).2.mp hall).2 _ rfl rfl

/-- The session of the helper runs as a user that is not root, where root started the helper,
and the helper itself stays root just where it has a clock to set. -/
theorem helperMain_child {setclock timewarp : Bool} {parent child : Cred} (hroot : c.uid.real = 0)
    (h : helperMain v db user group setclock timewarp c = .ok (parent, child)) :
    Dropped db user group child ∧ parent = if setclock || timewarp then c else child := by
  rw [helperMain] at h
  obtain ⟨parent', hparent, h⟩ := bind_ok.mp h
  obtain ⟨child', hchild, h⟩ := bind_ok.mp h
  obtain ⟨rfl, rfl⟩ := Prod.mk.inj (Except.ok.inj h)
  have hstay : (!setclock && !timewarp) = !(setclock || timewarp) := by
    cases setclock <;> rfl
  rw [hstay] at hparent
  generalize (setclock || timewarp) = clock at hparent ⊢
  cases clock with
  | true =>
      obtain rfl := Except.ok.inj hparent
      obtain ⟨hne, -⟩ | ⟨-, -, hdropped⟩ := dropPrivsTo_ok.mp hchild
      · exact absurd hroot hne
      · exact ⟨hdropped, rfl⟩
  | false =>
      obtain ⟨hne, -⟩ | ⟨-, -, hdropped⟩ := dropPrivsTo_ok.mp hparent
      · exact absurd hroot hne
      · obtain ⟨-, rfl⟩ | ⟨hz, -⟩ := dropPrivsTo_ok.mp hchild
        · exact ⟨hdropped, rfl⟩
        · obtain ⟨pw, -, -, huid, -, rfl⟩ := hdropped
          exact absurd hz huid

end Tlsdate.PrivDrop
