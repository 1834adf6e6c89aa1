import Mathlib.Data.List.Basic
import Mathlib.Tactic.SplitIfs

namespace Tlsdate.Getopt

abbrev Arg := List Char

inductive HasArg
  | no
  | required
  | optional
  deriving DecidableEq, Repr

structure LongOption where
  name : Arg
  hasArg : HasArg
  val : Char
  deriving DecidableEq, Repr

/-- The options of a program: the short ones in an `optstring` that starts with none of
`+`, `-` and `:`, and the long ones. -/
structure Table where
  optstring : List Char
  long : List LongOption

structure Found where
  val : Char
  optarg : Option Arg
  deriving DecidableEq, Repr

def unknown : Found := ⟨'?', none⟩

/-- The options that an argument holds, and the option at its end for which the next
argument is the value. -/
structure Reading where
  found : List Found
  wants : Option Char
  deriving DecidableEq, Repr

def hasArgOf : List Char → HasArg
  | ':' :: ':' :: _ => .optional
  | ':' :: _ => .required
  | _ => .no

/-- A short option is followed in the `optstring` by a colon if it has an argument, and
by two if that is optional. -/
def Table.short (t : Table) (c : Char) : Option HasArg :=
  if c = ':' ∨ c = ';' then none
  else
    match t.optstring.dropWhile (· != c) with
    | [] => none
    | _ :: rest => some (hasArgOf rest)

def Table.cluster (t : Table) : List Char → Reading
  | [] => ⟨[], none⟩
  | c :: cs =>
      match t.short c with
      | none => ⟨unknown :: (t.cluster cs).found, (t.cluster cs).wants⟩
      | some .no => ⟨⟨c, none⟩ :: (t.cluster cs).found, (t.cluster cs).wants⟩
      | some .optional => ⟨[⟨c, if cs = [] then none else some cs⟩], none⟩
      | some .required => if cs = [] then ⟨[], some c⟩ else ⟨[⟨c, some cs⟩], none⟩

/-- An exact name is taken, or the start of one name, or of names of one meaning. -/
def Table.longOption (t : Table) (name : Arg) : Option LongOption :=
  match t.long.find? (·.name == name) with
  | some o => some o
  | none =>
      match t.long.filter (name.isPrefixOf ·.name) with
      | [] => none
      | o :: os => if os.all fun p => p.hasArg == o.hasArg && p.val == o.val then some o else none

def valueOf (body : Arg) : Option Arg := (body.dropWhile (· != '=')).tail?

def Table.longReading (t : Table) (body : Arg) : Reading :=
  match t.longOption (body.takeWhile (· != '=')) with
  | none => ⟨[unknown], none⟩
  | some o =>
      match valueOf body, o.hasArg with
      | some _, .no => ⟨[unknown], none⟩
      | some value, _ => ⟨[⟨o.val, some value⟩], none⟩
      | none, .required => ⟨[], some o.val⟩
      | none, _ => ⟨[⟨o.val, none⟩], none⟩

def Table.read (t : Table) : Arg → Option Reading
  | ['-', '-'] => none
  | '-' :: '-' :: body => some (t.longReading body)
  | '-' :: c :: cs => some (t.cluster (c :: cs))
  | _ => none

/-- What the calls of `getopt_long` return up to the last, which returns -1. Operands are
passed over, unless POSIXLY_CORRECT is set, where the first one ends the options. -/
def Table.getoptLong (t : Table) (posixlyCorrect : Bool) : List Arg → List Found
  | [] => []
  | arg :: args =>
      match t.read arg with
      | none =>
          if arg = ['-', '-'] || posixlyCorrect then [] else t.getoptLong posixlyCorrect args
      | some ⟨found, none⟩ => found ++ t.getoptLong posixlyCorrect args
      | some ⟨found, some c⟩ =>
          match args with
          | [] => found ++ [unknown]
          | value :: args => found ++ ⟨c, some value⟩ :: t.getoptLong posixlyCorrect args

/-- What stands in the arguments from `optind` on, after the last call: they are permuted. -/
def Table.operands (t : Table) (posixlyCorrect : Bool) : List Arg → List Arg
  | [] => []
  | arg :: args =>
      match t.read arg with
      | none =>
          if arg = ['-', '-'] then args
          else if posixlyCorrect then arg :: args
          else arg :: t.operands posixlyCorrect args
      | some ⟨_, none⟩ => t.operands posixlyCorrect args
      | some ⟨_, some _⟩ =>
          match args with
          | [] => []
          | _ :: args => t.operands posixlyCorrect args

inductive Table.Options (t : Table) : List Arg → Prop
  | nil : t.Options []
  | alone {arg : Arg} {args : List Arg} {found : List Found} (hread : t.read arg = some ⟨found, none⟩)
      (hargs : t.Options args) : t.Options (arg :: args)
  | valued {arg : Arg} {args : List Arg} {found : List Found} {c : Char} (value : Arg)
      (hread : t.read arg = some ⟨found, some c⟩) (hargs : t.Options args) :
      t.Options (arg :: value :: args)

variable {t : Table} {posixlyCorrect : Bool} {arg value : Arg} {args more : List Arg} {c : Char}
  {found : List Found}

theorem getoptLong_alone (h : t.read arg = some ⟨found, none⟩) (args : List Arg) :
    t.getoptLong posixlyCorrect (arg :: args) = found ++ t.getoptLong posixlyCorrect args := by
  rw [Table.getoptLong.eq_def]
  dsimp only
  rw [h]

theorem getoptLong_valued (h : t.read arg = some ⟨found, some c⟩) (value : Arg) (args : List Arg) :
    t.getoptLong posixlyCorrect (arg :: value :: args) =
      found ++ ⟨c, some value⟩ :: t.getoptLong posixlyCorrect args := by
  rw [Table.getoptLong.eq_def]
  dsimp only
  rw [h]

theorem getoptLong_operand (h : t.read arg = none) (hend : arg ≠ ['-', '-']) (args : List Arg) :
    t.getoptLong false (arg :: args) = t.getoptLong false args := by
  rw [Table.getoptLong.eq_def]
  dsimp only
  rw [h]
  simp [hend]

theorem Table.Options.getoptLong_append (h : t.Options args) (more : List Arg) :
    t.getoptLong posixlyCorrect (args ++ more) =
      t.getoptLong posixlyCorrect args ++ t.getoptLong posixlyCorrect more := by
  induction h with
  | nil => rfl
  | alone hread _ ih =>
      rw [List.cons_append, getoptLong_alone hread, getoptLong_alone hread, ih, List.append_assoc]
  | valued value hread _ ih =>
      rw [List.cons_append, List.cons_append, getoptLong_valued hread, getoptLong_valued hread, ih,
        List.append_assoc, List.cons_append]

theorem optarg_cluster_shorter {f : Found} (cs : List Char) (h : f ∈ (t.cluster cs).found)
    (hvalue : f.optarg = some value) : value.length < cs.length := by
  induction cs with
  | nil => cases h
  | cons c cs ih =>
      rw [Table.cluster] at h
      split at h
      next =>
        obtain rfl | h := List.mem_cons.mp h
        · cases hvalue
        · exact Nat.lt_succ_of_lt (ih h)
      next =>
        obtain rfl | h := List.mem_cons.mp h
        · cases hvalue
        · exact Nat.lt_succ_of_lt (ih h)
      next =>
        obtain rfl := List.mem_singleton.mp h
        dsimp only at hvalue
        split_ifs at hvalue
        obtain rfl := Option.some.inj hvalue
        exact Nat.lt_succ_self _
      next =>
        split_ifs at h
        · cases h
        · obtain rfl := List.mem_singleton.mp h
          obtain rfl := Option.some.inj hvalue
          exact Nat.lt_succ_self _

theorem optarg_longReading_shorter {f : Found} {body : Arg} (h : f ∈ (t.longReading body).found)
    (hvalue : f.optarg = some value) : value.length ≤ body.length := by
  rw [Table.longReading] at h
  split at h
  next =>
    obtain rfl := List.mem_singleton.mp h
    cases hvalue
  next =>
    split at h
    next =>
      obtain rfl := List.mem_singleton.mp h
      cases hvalue
    next hbody _ =>
      obtain rfl := List.mem_singleton.mp h
      obtain rfl := Option.some.inj hvalue
      have hle := (List.dropWhile_suffix (· != '=') : body.dropWhile (· != '=') <:+ body).length_le
      rw [valueOf] at hbody
      cases hdrop : body.dropWhile (· != '=') with
      | nil =>
          rw [hdrop] at hbody
          cases hbody
      | cons c cs =>
          rw [hdrop] at hbody hle
          obtain rfl := Option.some.inj hbody
          exact Nat.le_of_succ_le hle
    next => cases h
    next =>
      obtain rfl := List.mem_singleton.mp h
      cases hvalue

theorem optarg_shorter {r : Reading} {f : Found} (hread : t.read arg = some r) (h : f ∈ r.found)
    (hvalue : f.optarg = some value) : value.length < arg.length := by
  rw [Table.read.eq_def] at hread
  split at hread
  next => cases hread
  next body _ =>
    obtain rfl := Option.some.inj hread
    exact Nat.lt_succ_of_le (Nat.le_succ_of_le (optarg_longReading_shorter h hvalue))
  next c cs _ _ =>
    obtain rfl := Option.some.inj hread
    exact Nat.lt_succ_of_lt (optarg_cluster_shorter (c :: cs) h hvalue)
  next => cases hread

theorem mem_getoptLong_cons {f : Found}
    (hwants : ∀ r, t.read arg = some r → r.wants = none ∨ args = [])
    (hf : f ∈ t.getoptLong posixlyCorrect (arg :: args)) :
    (∀ value, f.optarg = some value → value.length < arg.length) ∨
      f ∈ t.getoptLong posixlyCorrect args := by
  have hunknown : ∀ value, unknown.optarg = some value → value.length < arg.length :=
    fun value hvalue => by cases hvalue
  rw [Table.getoptLong.eq_def] at hf
  dsimp only at hf
  split at hf
  next =>
    split_ifs at hf
    · cases hf
    · exact Or.inr hf
  next found hread =>
    obtain hf | hf := List.mem_append.mp hf
    · exact Or.inl fun value hvalue => optarg_shorter hread hf hvalue
    · exact Or.inr hf
  next found c hread =>
    obtain hnone | rfl := hwants _ hread
    · cases hnone
    · obtain hf | hf := List.mem_append.mp hf
      · exact Or.inl fun value hvalue => optarg_shorter hread hf hvalue
      · obtain rfl := List.mem_singleton.mp hf
        exact Or.inl hunknown

end Tlsdate.Getopt
