import Mathlib.Data.List.TakeWhile
import Tlsdate.ProxyBio

namespace Tlsdate.Scanf

open ProxyBio (isSpace isDigit skipSpace decimal scanSign scanInt)

inductive Directive
  | space
  | literal (c : UInt8)
  | int
  | word (width : Nat)
  deriving DecidableEq, Repr

inductive Item
  | int (n : Int)
  | word (w : List UInt8)
  deriving DecidableEq, Repr

def int (s : List UInt8) : Option (Int × List UInt8) :=
  (scanInt s).map fun n => (n, (scanSign (skipSpace s)).2.dropWhile isDigit)

def word (width : Nat) (s : List UInt8) : Option (List UInt8 × List UInt8) :=
  let w := ((skipSpace s).take width).takeWhile fun c => !isSpace c
  if w = [] then none else some (w, (skipSpace s).drop w.length)

/-- The items that `sscanf` converts before the first directive that fails. -/
def sscanf : List Directive → List UInt8 → List Item
  | [], _ => []
  | .space :: ds, s => sscanf ds (skipSpace s)
  | .literal _ :: _, [] => []
  | .literal c :: ds, x :: s => if x = c then sscanf ds s else []
  | .int :: ds, s => (int s).elim [] fun p => .int p.1 :: sscanf ds p.2
  | .word width :: ds, s => (word width s).elim [] fun p => .word p.1 :: sscanf ds p.2

theorem sscanf_space_cons (ds : List Directive) (s : List UInt8) :
    sscanf (.space :: ds) s = sscanf ds (skipSpace s) := rfl

theorem sscanf_int_cons (ds : List Directive) (s : List UInt8) :
    sscanf (.int :: ds) s = (int s).elim [] fun p => .int p.1 :: sscanf ds p.2 := rfl

theorem sscanf_word_cons (width : Nat) (ds : List Directive) (s : List UInt8) :
    sscanf (.word width :: ds) s = (word width s).elim [] fun p => .word p.1 :: sscanf ds p.2 := rfl

def digits : Nat → Nat → List UInt8
  | 0, _ => []
  | w + 1, n => digits w (n / 10) ++ [UInt8.ofNat (48 + n % 10)]

theorem digits_length (w n : Nat) : (digits w n).length = w := by
  induction w generalizing n with
  | zero => rfl
  | succ w ih => rw [digits, List.length_append, ih, List.length_singleton]

theorem digit_toNat (n : Nat) : (UInt8.ofNat (48 + n % 10)).toNat = 48 + n % 10 := by
  rw [UInt8.toNat_ofNat']
  omega

theorem isDigit_iff {c : UInt8} : isDigit c = true ↔ 48 ≤ c.toNat ∧ c.toNat ≤ 57 := by
  simp [isDigit, UInt8.le_iff_toNat_le]

theorem isDigit_digits (w n : Nat) : ∀ c ∈ digits w n, isDigit c = true := by
  induction w generalizing n with
  | zero => nofun
  | succ w ih =>
      intro c hc
      obtain hc | hc := List.mem_append.mp hc
      · exact ih _ c hc
      · rw [List.mem_singleton.mp hc, isDigit_iff, digit_toNat]
        omega

theorem decimal_digits {w n : Nat} (h : n < 10 ^ w) : decimal (digits w n) = n := by
  induction w generalizing n with
  | zero =>
      obtain rfl : n = 0 := by simpa using h
      rfl
  | succ w ih =>
      have hn : n / 10 < 10 ^ w := by
        rw [Nat.pow_succ] at h
        omega
      have hd := ih hn
      rw [decimal] at hd
      rw [decimal, digits, List.foldl_append, hd, List.foldl_cons, List.foldl_nil, digit_toNat]
      omega

theorem not_space_of_digit {c : UInt8} (h : isDigit c = true) : isSpace c = false := by
  have hc := isDigit_iff.mp h
  have hne : c ≠ 32 := by
    rintro rfl
    exact absurd hc.1 (by decide)
  have hgt : ¬ c ≤ 13 := by
    rw [UInt8.le_iff_toNat_le]
    have h13 : (13 : UInt8).toNat = 13 := rfl
    omega
  simp [isSpace, hne, hgt]

theorem skipSpace_cons {c : UInt8} (h : isSpace c = false) (s : List UInt8) :
    skipSpace (c :: s) = c :: s :=
  List.dropWhile_cons_of_neg (by simp [h])

theorem scanSign_other {c : UInt8} (h : c ≠ 43 ∧ c ≠ 45) (s : List UInt8) :
    scanSign (c :: s) = (false, c :: s) := by
  rw [scanSign]
  · intro rest he
    exact h.2 (List.cons.inj he).1
  · intro rest he
    exact h.1 (List.cons.inj he).1

theorem not_sign_of_digit {c : UInt8} (h : isDigit c = true) : c ≠ 43 ∧ c ≠ 45 := by
  constructor <;> rintro rfl <;> exact absurd h (by decide)

theorem span_digits {ds rest : List UInt8} (hds : ∀ c ∈ ds, isDigit c = true)
    (hrest : rest.head?.any isDigit = false) :
    (ds ++ rest).takeWhile isDigit = ds ∧ (ds ++ rest).dropWhile isDigit = rest := by
  rw [List.takeWhile_append_of_pos hds, List.dropWhile_append_of_pos hds]
  cases rest with
  | nil => simp
  | cons c rest =>
      have hc : isDigit c = false := hrest
      simp [hc]

theorem int_append {ds rest : List UInt8} (hne : ds ≠ []) (hds : ∀ c ∈ ds, isDigit c = true)
    (hrest : rest.head?.any isDigit = false) (hlt : decimal ds < 2 ^ 31) :
    int (ds ++ rest) = some ((decimal ds : Int), rest) := by
  obtain ⟨htake, hdrop⟩ := span_digits hds hrest
  obtain ⟨c, cs, rfl⟩ := List.exists_cons_of_ne_nil hne
  have hc := hds c (List.mem_cons_self ..)
  have hsign : scanSign (skipSpace (c :: cs ++ rest)) = (false, c :: cs ++ rest) := by
    rw [List.cons_append, skipSpace_cons (not_space_of_digit hc), scanSign_other (not_sign_of_digit hc)]
  have hmin : min (decimal (c :: cs) : Int) (2 ^ 63 - 1) = decimal (c :: cs) := by omega
  have hint : CInt.toInt (decimal (c :: cs)) = decimal (c :: cs) :=
    CInt.toInt_of_range (by omega) (by omega)
  simp only [int, scanInt, hsign, htake, hdrop, Bool.false_eq_true, if_false, hmin, hint,
    Option.map_some]

theorem int_space {c : UInt8} (h : isSpace c = true) (s : List UInt8) : int (c :: s) = int s := by
  have hskip : skipSpace (c :: s) = skipSpace s := List.dropWhile_cons_of_pos h
  rw [int, int, scanInt, scanInt, hskip]

theorem skipSpace_idem (s : List UInt8) : skipSpace (skipSpace s) = skipSpace s := by
  induction s with
  | nil => rfl
  | cons c s ih =>
      by_cases hc : isSpace c = true
      · have hskip : skipSpace (c :: s) = skipSpace s := List.dropWhile_cons_of_pos hc
        rw [hskip, ih]
      · rw [skipSpace_cons (Bool.eq_false_iff.mpr hc), skipSpace_cons (Bool.eq_false_iff.mpr hc)]

theorem sscanf_space_int (ds : List Directive) (s : List UInt8) :
    sscanf (.space :: .int :: ds) s = sscanf (.int :: ds) s := by
  rw [sscanf_space_cons, sscanf_int_cons, sscanf_int_cons, int, int, scanInt, scanInt, skipSpace_idem]

theorem sscanf_space_word (width : Nat) (ds : List Directive) (s : List UInt8) :
    sscanf (.space :: .word width :: ds) s = sscanf (.word width :: ds) s := by
  rw [sscanf_space_cons, sscanf_word_cons, sscanf_word_cons, word, word, skipSpace_idem]

theorem sscanf_digits {w n : Nat} (hn : n < 10 ^ (w + 1)) (hw : w < 9) (ds : List Directive)
    {rest : List UInt8} (hrest : rest.head?.any isDigit = false) :
    sscanf (.int :: ds) (digits (w + 1) n ++ rest) = .int n :: sscanf ds rest := by
  have hne : digits (w + 1) n ≠ [] := by
    intro h
    have hl := digits_length (w + 1) n
    rw [h] at hl
    cases hl
  have hpow : 10 ^ (w + 1) ≤ 10 ^ 9 := Nat.pow_le_pow_right (by decide) hw
  have hd := decimal_digits hn
  have hlt : decimal (digits (w + 1) n) < 2 ^ 31 := by omega
  rw [sscanf_int_cons, int_append hne (isDigit_digits _ _) hrest hlt, hd]
  rfl

theorem sscanf_literal (c : UInt8) (ds : List Directive) (s : List UInt8) :
    sscanf (.literal c :: ds) (c :: s) = sscanf ds s :=
  if_pos rfl

theorem sscanf_word {w : List UInt8} (hne : w ≠ []) (hw : ∀ c ∈ w, isSpace c = false)
    (ds : List Directive) (rest : List UInt8) :
    sscanf (.word w.length :: ds) (w ++ rest) = .word w :: sscanf ds rest := by
  obtain ⟨c, cs, rfl⟩ := List.exists_cons_of_ne_nil hne
  have hskip : skipSpace (c :: cs ++ rest) = c :: cs ++ rest := by
    rw [List.cons_append, skipSpace_cons (hw c (List.mem_cons_self ..))]
  have htake : (c :: cs).takeWhile (fun x => !isSpace x) = c :: cs := by
    refine List.takeWhile_eq_self_iff.mpr fun x hx => ?_
    rw [hw x hx]
    rfl
  rw [sscanf_word_cons, word, hskip, List.take_left, htake, if_neg hne, List.drop_left]
  rfl

theorem sscanf_int_space (ds : List Directive) (s : List UInt8) :
    sscanf (.int :: ds) (32 :: s) = sscanf (.int :: ds) s := by
  rw [sscanf_int_cons, sscanf_int_cons, int_space (by decide)]

theorem sscanf_word_space (width : Nat) (ds : List Directive) (s : List UInt8) :
    sscanf (.word width :: ds) (32 :: s) = sscanf (.word width :: ds) s := by
  have hskip : skipSpace (32 :: s) = skipSpace s := List.dropWhile_cons_of_pos (by decide)
  rw [sscanf_word_cons, sscanf_word_cons, word, word, hskip]

theorem int_none {c : UInt8} {s : List UInt8} (hs : isSpace c = false) (hd : isDigit c = false)
    (hsign : c ≠ 43 ∧ c ≠ 45) : int (c :: s) = none := by
  simp [int, scanInt, skipSpace_cons hs, scanSign_other hsign, hd]

theorem sscanf_int_none {c : UInt8} {s : List UInt8} (hs : isSpace c = false)
    (hd : isDigit c = false) (hsign : c ≠ 43 ∧ c ≠ 45) (ds : List Directive) :
    sscanf (.int :: ds) (c :: s) = [] := by
  rw [sscanf_int_cons, int_none hs hd hsign]
  rfl

end Tlsdate.Scanf
