import Mathlib.Data.List.Basic
import Mathlib.Tactic.SplitIfs

namespace Tlsdate.Bpf

/-- Instructions of a classic filter program. A load reads the word of the data
at its offset; the two offsets of a comparison count from the next instruction. -/
inductive Insn
  | ld (off : UInt32)
  | jeq (k : UInt32) (jt jf : UInt8)
  | ret (k : UInt32)
  deriving DecidableEq, Repr

abbrev Program := List Insn

/-- The value that a program returns once it has skipped some instructions, or
none where it runs past its end. Jumps only lead forward. -/
def exec (data : UInt32 → UInt32) : Program → Nat → UInt32 → Option UInt32
  | [], _, _ => none
  | _ :: rest, skip + 1, acc => exec data rest skip acc
  | .ld off :: rest, 0, _ => exec data rest 0 (data off)
  | .jeq k jt jf :: rest, 0, acc => exec data rest (if acc = k then jt else jf).toNat acc
  | .ret k :: _, 0, _ => some k

/-- What is checked before a program is installed: it ends with a return, and
no jump leads past that. -/
def valid : Program → Bool
  | [] => false
  | [i] => match i with
      | .ret _ => true
      | _ => false
  | .jeq _ jt jf :: i :: rest =>
      decide (jt.toNat < rest.length + 1) && decide (jf.toNat < rest.length + 1) && valid (i :: rest)
  | _ :: i :: rest => valid (i :: rest)

def rule (k v : UInt32) : Program := [.jeq k 0 1, .ret v]

def rules (table : List (UInt32 × UInt32)) : Program := table.flatMap fun r => rule r.1 r.2

variable {data : UInt32 → UInt32}

theorem exec_skip (xs p : Program) (acc : UInt32) :
    exec data (xs ++ p) xs.length acc = exec data p 0 acc := by
  induction xs with
  | nil => rfl
  | cons i xs ih => exact ih

/-- A valid program returns, whatever its data are. -/
theorem exec_valid {p : Program} (h : valid p = true) {skip : Nat} (hskip : skip < p.length)
    (acc : UInt32) : (exec data p skip acc).isSome = true := by
  induction p generalizing skip acc with
  | nil => cases h
  | cons i rest ih =>
      cases rest with
      | nil =>
          obtain rfl : skip = 0 := by simpa using hskip
          cases i with
          | ret k => rfl
          | ld off => cases h
          | jeq k jt jf => cases h
      | cons j rest =>
          have hrest : valid (j :: rest) = true := by
            cases i with
            | jeq k jt jf =>
                simp only [valid, Bool.and_eq_true] at h
                exact h.2
            | ld off => exact h
            | ret k => exact h
          cases skip with
          | succ skip => exact ih hrest (Nat.lt_of_succ_lt_succ hskip) acc
          | zero =>
              cases i with
              | ret k => rfl
              | ld off => exact ih hrest (Nat.succ_pos _) (data off)
              | jeq k jt jf =>
                  simp only [valid, Bool.and_eq_true, decide_eq_true_eq] at h
                  refine ih hrest ?_ acc
                  rw [List.length_cons]
                  split_ifs
                  · exact h.1.1
                  · exact h.1.2

def run (data : UInt32 → UInt32) (p : Program) (h : valid p = true) : UInt32 :=
  (exec data p 0 0).get (exec_valid h (by
    cases p with
    | nil => cases h
    | cons i rest => exact Nat.succ_pos _) 0)

theorem run_eq {p : Program} (h : valid p = true) {v : UInt32} (hv : exec data p 0 0 = some v) :
    run data p h = v :=
  Option.get_of_eq_some _ hv

theorem valid_rule (k v : UInt32) {p : Program} (h : valid p = true) :
    valid (rule k v ++ p) = true := by
  cases p with
  | nil => cases h
  | cons i rest =>
      have hone : (1 : UInt8).toNat < rest.length + 1 + 1 := Nat.succ_lt_succ (Nat.succ_pos _)
      simpa [rule, valid, hone] using h

theorem valid_rules (table : List (UInt32 × UInt32)) {p : Program} (h : valid p = true) :
    valid (rules table ++ p) = true := by
  induction table with
  | nil => exact h
  | cons r table ih =>
      rw [rules, List.flatMap_cons, List.append_assoc]
      exact valid_rule r.1 r.2 ih

theorem exec_rule (k v : UInt32) (p : Program) (acc : UInt32) :
    exec data (rule k v ++ p) 0 acc = if acc = k then some v else exec data p 0 acc := by
  have hjump : exec data (rule k v ++ p) 0 acc =
      exec data (Insn.ret v :: p) (if acc = k then (0 : UInt8) else 1).toNat acc := rfl
  rw [hjump]
  split_ifs
  · rfl
  · exact exec_skip [Insn.ret v] p acc

/-- A list of rules is a table that is looked up, in which the first entry counts. -/
theorem exec_rules (table : List (UInt32 × UInt32)) (p : Program) (acc : UInt32) :
    exec data (rules table ++ p) 0 acc = (table.lookup acc).or (exec data p 0 acc) := by
  induction table with
  | nil => rfl
  | cons r table ih =>
      rw [rules, List.flatMap_cons, List.append_assoc, exec_rule, List.lookup_cons]
      by_cases h : acc = r.1
      · rw [if_pos h, beq_iff_eq.mpr h]
        rfl
      · rw [if_neg h, beq_eq_false_iff_ne.mpr h]
        exact ih

end Tlsdate.Bpf
