import Mathlib.Data.List.Nodup
import Tlsdate.Bpf
import Tlsdate.Machine
import Tlsdate.TimeSetter

namespace Tlsdate.SetterSandbox

open Options TimeSource TimeSetter Bpf

/-- The system calls that the filter names, and two that it does not. -/
inductive Syscall
  | read
  | write
  | pwritev
  | settimeofday
  | ioctl
  | time
  | lseek
  | close
  | munmap
  | exitGroup
  | exit
  | «open»
  | fcntl
  | fstat
  | mmap
  | mmap2
  | sendto
  | socket
  | socketcall
  | unlink
  | getpid
  deriving DecidableEq, Repr

/-- `__NR_time`, `__NR_mmap`, `__NR_mmap2`, `__NR_sendto`, `__NR_socket` and
`__NR_socketcall` may not be there. -/
def Syscall.optional : Syscall → Bool
  | .time | .mmap | .mmap2 | .sendto | .socket | .socketcall => true
  | _ => false

/-- SECCOMP_AUDIT_ARCH of a platform, and those of the numbers `__NR_*` that it has. -/
structure Abi where
  arch : UInt32
  numbers : List (Syscall × UInt32)
  required : ∀ s, s.optional = false → (numbers.lookup s).isSome = true
  distinct : (numbers.map Prod.snd).Nodup

def Abi.nr (abi : Abi) (s : Syscall) : Option UInt32 := abi.numbers.lookup s

def x86_64 : Abi where
  arch := 0xc000003e
  numbers :=
    [(.read, 0), (.write, 1), (.open, 2), (.close, 3), (.fstat, 5), (.lseek, 8), (.mmap, 9),
      (.munmap, 11), (.ioctl, 16), (.getpid, 39), (.socket, 41), (.sendto, 44), (.exit, 60),
      (.fcntl, 72), (.unlink, 87), (.settimeofday, 164), (.time, 201), (.exitGroup, 231), (.pwritev, 296)]
  required s h := by cases s <;> first | rfl | cases h
  distinct := by decide

def seccompRetKill : UInt32 := 0x00000000
def seccompRetTrap : UInt32 := 0x00030000
def seccompRetErrno : UInt32 := 0x00050000
def seccompRetAllow : UInt32 := 0x7fff0000

def einval : UInt32 := 22

/-- SECCOMP_FILTER_FAIL, with SECCOMP_FILTER_DEBUG or without. -/
def seccompFilterFail (debug : Bool) : UInt32 := if debug then seccompRetTrap else seccompRetKill

/-- The fields of `struct seccomp_data` at the offsets 0 and 4, and the words
after them. -/
structure SeccompData where
  nr : UInt32
  arch : UInt32
  rest : UInt32 → UInt32

def SeccompData.load (data : SeccompData) (off : UInt32) : UInt32 :=
  if off = 0 then data.nr else if off = 4 then data.arch else data.rest off

def allowed : List Syscall :=
  [.read, .write, .pwritev, .settimeofday, .ioctl, .time, .lseek, .close, .munmap, .exitGroup, .exit]

def denied : List Syscall :=
  [.open, .fcntl, .fstat, .mmap, .mmap2, .sendto, .socket, .socketcall]

/-- The calls that do not return. -/
def endings : List Syscall := [.exitGroup, .exit]

inductive Process
  | running
  | exited
  | killed
  deriving DecidableEq, Repr

section Filter

variable (abi : Abi) (debug : Bool)

def table (calls : List Syscall) (v : UInt32) : List (UInt32 × UInt32) :=
  calls.filterMap fun s => (abi.nr s).map fun n => (n, v)

def insns : Program :=
  -- ensure the syscall arch convention is as expected
  [.ld 4, .jeq abi.arch 1 0, .ret (seccompFilterFail debug), .ld 0] ++
    rules (table abi allowed seccompRetAllow ++ table abi denied (seccompRetErrno ||| einval)) ++
    [.ret (seccompFilterFail debug)]

theorem insns_valid : valid (insns abi debug) = true := by
  have hrules : valid (rules (table abi allowed seccompRetAllow ++
      table abi denied (seccompRetErrno ||| einval)) ++ [.ret (seccompFilterFail debug)]) = true :=
    valid_rules _ rfl
  rw [insns, List.append_assoc]
  generalize rules _ ++ _ = p at hrules ⊢
  cases p with
  | nil => cases hrules
  | cons i rest => simpa [valid] using hrules

/-- What the kernel does with a system call. -/
def verdict (data : SeccompData) : UInt32 := run data.load (insns abi debug) (insns_valid abi debug)

def names (calls : List Syscall) (data : SeccompData) : Prop :=
  data.arch = abi.arch ∧ ∃ s ∈ calls, abi.nr s = some data.nr

instance (calls : List Syscall) (data : SeccompData) : Decidable (names abi calls data) :=
  inferInstanceAs (Decidable (_ ∧ _))

/-- The sandboxed process, and the calls that reach the kernel. It has one
thread, so that `exit` ends it as `exit_group` does. -/
def step : Machine.Step Process SeccompData SeccompData := fun p data =>
  match p with
  | .exited | .killed => none
  | .running =>
      if verdict abi debug data = seccompRetAllow then
        some (if names abi endings data then .exited else .running, [data])
      else if verdict abi debug data = seccompRetErrno ||| einval then some (.running, [])
      else some (.killed, [])

def request (s : Syscall) : SeccompData := ⟨(abi.nr s).getD 0, abi.arch, fun _ => 0⟩

end Filter

section Calls

/-- The system calls that the C library makes on its own in one iteration, should
these functions be called in it. -/
structure Libc where
  gmtimeR : List SeccompData
  strerror : List SeccompData
  vsyslog : List SeccompData

inductive Act
  | call (s : Syscall)
  | libc (attempts : List SeccompData)

/-- The line and its end go to `stderr`, which is not buffered, before
`vsyslog`. -/
def logat (verbose isverbose : Bool) (libc : Libc) : List Act :=
  if isverbose && !verbose then [] else [.call .write, .call .write, .libc libc.vsyslog]

def info (verbose : Bool) (libc : Libc) : List Act := logat verbose false libc

/-- The text of the error is an argument of `logat`, so that it is looked up
also where nothing is logged. -/
def pinfo (verbose : Bool) (libc : Libc) : List Act :=
  .libc libc.strerror :: logat verbose true libc

def rtcWrite (verbose ok : Bool) (libc : Libc) : List Act :=
  [.libc libc.gmtimeR, .call .ioctl] ++ if ok then info verbose libc else pinfo verbose libc

/-- What the setter attempts behind its effects once it is sandboxed, the
repetitions of IGNORE_EINTR apart. -/
def acts (verbose : Bool) (sys : SysCalls) (libc : Libc) : Effect → List Act
  | .createFile => [.call .open]
  | .unlink => [.call .unlink]
  | .settimeofday _ _ => [.call .settimeofday]
  | .rtcWrite _ => rtcWrite verbose sys.rtcWrite libc
  | .fileWrite _ _ => [.call .pwritev]
  | .notify _ => [.call .write]
  -- both descriptors are closed before
  | .exit _ => [.call .close, .call .close, .call .exitGroup]

/-- The system calls behind an act on a platform, with any arguments. -/
inductive Attempts (abi : Abi) : Act → List SeccompData → Prop
  | call {s : Syscall} {data : SeccompData} (harch : data.arch = abi.arch)
      (hnr : abi.nr s = some data.nr) : Attempts abi (.call s) [data]
  | libc {calls : List SeccompData} : Attempts abi (.libc calls) calls

end Calls

section Verdicts

variable {abi : Abi} {debug : Bool}

theorem Abi.nr_inj {s t : Syscall} {n : UInt32} (hs : abi.nr s = some n) (ht : abi.nr t = some n) :
    s = t := by
  have hmem {u : Syscall} (hu : abi.nr u = some n) : (u, n) ∈ abi.numbers := by
    obtain ⟨before, after, heq, -⟩ := List.lookup_eq_some_iff.mp hu
    rw [heq]
    exact List.mem_append_right _ (List.mem_cons_self ..)
  exact congrArg Prod.fst (List.inj_on_of_nodup_map abi.distinct (hmem hs) (hmem ht) rfl)

theorem lookup_table_some {calls : List Syscall} {v n w : UInt32}
    (h : (table abi calls v).lookup n = some w) : w = v ∧ ∃ s ∈ calls, abi.nr s = some n := by
  induction calls with
  | nil => cases h
  | cons s calls ih =>
      rw [table, List.filterMap_cons] at h
      have hrest : (table abi calls v).lookup n = some w →
          w = v ∧ ∃ t ∈ s :: calls, abi.nr t = some n := fun h => by
        obtain ⟨hw, t, ht, hn⟩ := ih h
        exact ⟨hw, t, List.mem_cons_of_mem s ht, hn⟩
      cases hs : abi.nr s with
      | none =>
          rw [hs] at h
          exact hrest h
      | some m =>
          rw [hs] at h
          simp only [Option.map_some, List.lookup_cons] at h
          cases hnm : n == m with
          | false =>
              rw [hnm] at h
              exact hrest h
          | true =>
              rw [hnm] at h
              rw [beq_iff_eq.mp hnm]
              exact ⟨(Option.some.inj h).symm, s, List.mem_cons_self .., hs⟩

theorem lookup_table {calls : List Syscall} {s : Syscall} {n : UInt32} (v : UInt32)
    (hs : s ∈ calls) (hn : abi.nr s = some n) : (table abi calls v).lookup n = some v := by
  cases hlook : (table abi calls v).lookup n with
  | none =>
      have hmem : (n, v) ∈ table abi calls v :=
        List.mem_filterMap.mpr ⟨s, hs, by rw [hn]; rfl⟩
      have hne := List.lookup_eq_none_iff.mp hlook (n, v) hmem
      simp at hne
  | some w => rw [(lookup_table_some hlook).1]

theorem lookup_table_none {calls : List Syscall} {v n : UInt32}
    (h : ∀ s ∈ calls, abi.nr s ≠ some n) : (table abi calls v).lookup n = none := by
  cases hlook : (table abi calls v).lookup n with
  | none => rfl
  | some w =>
      obtain ⟨-, s, hs, hn⟩ := lookup_table_some hlook
      exact absurd hn (h s hs)

theorem verdict_eq (data : SeccompData) : verdict abi debug data =
    if data.arch = abi.arch then
      (((table abi allowed seccompRetAllow).lookup data.nr).or
        ((table abi denied (seccompRetErrno ||| einval)).lookup data.nr)).getD
          (seccompFilterFail debug)
    else seccompFilterFail debug := by
  refine run_eq (insns_valid abi debug) ?_
  have hload : exec data.load (insns abi debug) 0 0 =
      exec data.load ([Insn.ret (seccompFilterFail debug), .ld 0] ++
        (rules (table abi allowed seccompRetAllow ++ table abi denied (seccompRetErrno ||| einval)) ++
          [.ret (seccompFilterFail debug)])) (if data.arch = abi.arch then (1 : UInt8) else 0).toNat
        data.arch := rfl
  rw [hload]
  split_ifs
  · have hnr := @exec_rules data.load (table abi allowed seccompRetAllow ++
      table abi denied (seccompRetErrno ||| einval)) [.ret (seccompFilterFail debug)] data.nr
    rw [List.lookup_append] at hnr
    refine hnr.trans ?_
    cases ((table abi allowed seccompRetAllow).lookup data.nr).or
      ((table abi denied (seccompRetErrno ||| einval)).lookup data.nr) <;> rfl
  · rfl

theorem fail_ne : seccompFilterFail debug ≠ seccompRetAllow ∧
    seccompFilterFail debug ≠ seccompRetErrno ||| einval := by
  cases debug <;> decide

theorem verdict_allow_iff (data : SeccompData) :
    verdict abi debug data = seccompRetAllow ↔ names abi allowed data := by
  rw [verdict_eq]
  constructor
  · intro h
    split_ifs at h with harch
    · refine ⟨harch, ?_⟩
      cases hlook : (table abi allowed seccompRetAllow).lookup data.nr with
      | some w => exact (lookup_table_some hlook).2
      | none =>
          rw [hlook, Option.none_or] at h
          cases hdeny : (table abi denied (seccompRetErrno ||| einval)).lookup data.nr with
          | none =>
              rw [hdeny] at h
              exact absurd h fail_ne.1
          | some w =>
              rw [hdeny, (lookup_table_some hdeny).1] at h
              exact absurd h (show seccompRetErrno ||| einval ≠ seccompRetAllow by decide)
    · exact absurd h fail_ne.1
  · rintro ⟨harch, s, hs, hn⟩
    rw [if_pos harch, lookup_table _ hs hn]
    rfl

theorem verdict_errno_iff (data : SeccompData) :
    verdict abi debug data = seccompRetErrno ||| einval ↔ names abi denied data := by
  rw [verdict_eq]
  constructor
  · intro h
    split_ifs at h with harch
    · refine ⟨harch, ?_⟩
      cases hlook : (table abi allowed seccompRetAllow).lookup data.nr with
      | some w =>
          rw [hlook, (lookup_table_some hlook).1] at h
          exact absurd h (show seccompRetAllow ≠ seccompRetErrno ||| einval by decide)
      | none =>
          rw [hlook, Option.none_or] at h
          cases hdeny : (table abi denied (seccompRetErrno ||| einval)).lookup data.nr with
          | none =>
              rw [hdeny] at h
              exact absurd h fail_ne.2
          | some w => exact (lookup_table_some hdeny).2
    · exact absurd h fail_ne.2
  · rintro ⟨harch, s, hs, hn⟩
    have hdisjoint : ∀ t ∈ denied, t ∉ allowed := by decide
    have hother : ∀ t ∈ allowed, abi.nr t ≠ some data.nr := fun t ht htn => by
      obtain rfl := Abi.nr_inj hn htn
      exact hdisjoint s hs ht
    rw [if_pos harch, lookup_table_none hother, Option.none_or, lookup_table _ hs hn]
    rfl

end Verdicts

section Runs

variable {abi : Abi} {debug : Bool}

theorem endings_allowed {data : SeccompData} (h : names abi endings data) :
    names abi allowed data := by
  obtain ⟨harch, s, hs, hn⟩ := h
  exact ⟨harch, s, (by decide : ∀ s ∈ endings, s ∈ allowed) s hs, hn⟩

theorem not_allowed_of_denied {data : SeccompData} (h : names abi denied data) :
    ¬ names abi allowed data := by
  rw [← @verdict_allow_iff abi false data, (@verdict_errno_iff abi false data).mpr h]
  decide

inductive Outcome (abi : Abi) (data : SeccompData) : Process → List SeccompData → Prop
  | made (ha : names abi allowed data) (he : ¬ names abi endings data) :
      Outcome abi data .running [data]
  | ended (he : names abi endings data) : Outcome abi data .exited [data]
  | refused (hd : names abi denied data) : Outcome abi data .running []
  | killed (ha : ¬ names abi allowed data) (hd : ¬ names abi denied data) :
      Outcome abi data .killed []

theorem step_some {p p' : Process} {data : SeccompData} {out : List SeccompData}
    (h : step abi debug p data = some (p', out)) : p = .running ∧ Outcome abi data p' out := by
  have hallow := @verdict_allow_iff abi debug data
  have hdeny := @verdict_errno_iff abi debug data
  cases p with
  | exited => cases h
  | killed => cases h
  | running =>
      refine ⟨rfl, ?_⟩
      simp only [step] at h
      split_ifs at h with ha he hd
      · cases h
        exact .ended he
      · cases h
        exact .made (hallow.mp ha) he
      · cases h
        exact .refused (hdeny.mp hd)
      · cases h
        exact .killed (mt hallow.mpr ha) (mt hdeny.mpr hd)

/-- Whatever code comes to run in the sandbox: of the calls that it attempts
exactly those on the list are made, and it ends with the first that is on neither
list or is to end it. -/
theorem sandbox_contains {attempts made : List SeccompData} {p : Process}
    (h : Machine.Run (step abi debug) Machine.Free .running attempts p made) :
    made = attempts.filter (fun data => names abi allowed data) ∧
      (p = .killed ↔ ∃ data ∈ attempts, ¬ names abi allowed data ∧ ¬ names abi denied data) ∧
      (p = .exited ↔ ∃ data ∈ attempts, names abi endings data) := by
  induction h with
  | nil => simp
  | @snoc es s out e s' o _ _ hs ih =>
      obtain ⟨rfl, hkilled, hexited⟩ := ih
      obtain ⟨rfl, hcase⟩ := step_some hs
      have hlisted : ¬ ∃ data ∈ es, ¬ names abi allowed data ∧ ¬ names abi denied data := by
        rw [← hkilled]
        simp
      have hgoes : ¬ ∃ data ∈ es, names abi endings data := by
        rw [← hexited]
        simp
      simp only [List.filter_append, List.append_right_inj, List.mem_append, List.mem_singleton,
        or_and_right, exists_or, exists_eq_left, hlisted, hgoes, false_or]
      cases hcase with
      | made ha he => simp [ha, he]
      | ended he => simp [he, endings_allowed he]
      | refused hd =>
          have ha := not_allowed_of_denied hd
          simp [ha, hd, mt endings_allowed ha]
      | killed ha hd => simp [ha, hd, mt endings_allowed ha]

theorem sandbox_contains_unlink :
    [request x86_64 .write] =
        [request x86_64 .write, request x86_64 .open, request x86_64 .unlink].filter
          (fun data => names x86_64 allowed data) ∧
      (Process.killed = .killed ↔ ∃ data ∈
        [request x86_64 .write, request x86_64 .open, request x86_64 .unlink],
          ¬ names x86_64 allowed data ∧ ¬ names x86_64 denied data) ∧
      (Process.killed = .exited ↔ ∃ data ∈
        [request x86_64 .write, request x86_64 .open, request x86_64 .unlink],
          names x86_64 endings data) :=
  @sandbox_contains x86_64 false _ _ _ (Machine.Run.of_exec rfl)

def OwnReturn (as : List Act) : Prop := ∀ s, Act.call s ∈ as → s ∈ allowed ∧ s ∉ endings

theorem OwnReturn.append {as bs : List Act} (ha : OwnReturn as) (hb : OwnReturn bs) :
    OwnReturn (as ++ bs) := fun s hs => (List.mem_append.mp hs).elim (ha s) (hb s)

/-- The own calls of the setter return, up to the one with which it ends. -/
inductive Shape : Process → List Act → Prop
  | going {as : List Act} (h : OwnReturn as) : Shape .running as
  | ends {as : List Act} (h : OwnReturn as) : Shape .exited (as ++ [.call .exitGroup])

theorem Shape.prepend {p : Process} {as bs : List Act} (ha : OwnReturn as) (hb : Shape p bs) :
    Shape p (as ++ bs) := by
  cases hb with
  | going hb => exact .going (ha.append hb)
  | ends hb =>
      rw [← List.append_assoc]
      exact .ends (ha.append hb)

/-- Where `vsyslog` asks for the process that LOG_PID names, the setter is gone
before it has saved the time and told of it. -/
example : Machine.exec (step x86_64 false) .running
    ([.read, .settimeofday, .ioctl, .write, .write, .getpid].map (request x86_64)) =
      some (.killed, [.read, .settimeofday, .ioctl, .write, .write].map (request x86_64)) :=
  rfl

end Runs

end Tlsdate.SetterSandbox
