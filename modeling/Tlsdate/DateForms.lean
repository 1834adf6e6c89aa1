import Tlsdate.HttpDate

namespace Tlsdate.DateForms

open Calendar Scanf HttpDate
open ProxyBio (ascii isSpace isDigit skipSpace)

def dayNames : List (List UInt8) :=
  [ascii "Sunday", ascii "Monday", ascii "Tuesday", ascii "Wednesday", ascii "Thursday",
    ascii "Friday", ascii "Saturday"]

def dayName (day : Fin 7) : List UInt8 := dayNames.getD day []

def shortDay (day : Fin 7) : List UInt8 := (dayName day).take 3

def clockText (c : DateTime) : List UInt8 :=
  digits 2 c.hour.toNat ++ 58 :: (digits 2 c.minute.toNat ++ 58 :: digits 2 c.second.toNat)

def paddedDay (day : Nat) : List UInt8 := if day < 10 then 32 :: digits 1 day else digits 2 day

section Forms

variable (day : Fin 7) (c : DateTime)

/-- `Sun, 06 Nov 1994 08:49:37 GMT` -/
def rfc1123Form : List UInt8 :=
  shortDay day ++ 44 :: 32 :: (digits 2 c.day.toNat ++ 32 :: (monthName c.month ++ 32 ::
    (digits 4 c.year.toNat ++ 32 :: (clockText c ++ ascii " GMT"))))

/-- `Sunday, 06-Nov-94 08:49:37 GMT` -/
def rfc850Form : List UInt8 :=
  dayName day ++ 44 :: 32 :: (digits 2 c.day.toNat ++ 45 :: (monthName c.month ++ 45 ::
    (digits 2 (c.year.toNat % 100) ++ 32 :: (clockText c ++ ascii " GMT"))))

/-- `Sun Nov  6 08:49:37 1994` -/
def asctimeForm : List UInt8 :=
  shortDay day ++ 32 :: (monthName c.month ++ 32 :: (paddedDay c.day.toNat ++ 32 ::
    (clockText c ++ 32 :: digits 4 c.year.toNat)))

end Forms

def rfc1123Text (t : Nat) : List UInt8 := rfc1123Form (weekday t) (ofSeconds t)

def rfc850Text (t : Nat) : List UInt8 := rfc850Form (weekday t) (ofSeconds t)

def asctimeText (t : Nat) : List UInt8 := asctimeForm (weekday t) (ofSeconds t)

def Letter (c : UInt8) : Prop :=
  isSpace c = false ∧ isDigit c = false ∧ c ≠ 43 ∧ c ≠ 45 ∧ c ≠ 32

instance (c : UInt8) : Decidable (Letter c) := inferInstanceAs (Decidable (_ ∧ _))

theorem monthName_length (month : Fin 12) : (monthName month).length = 3 := by
  revert month
  decide

theorem monthName_letters (month : Fin 12) : ∀ c ∈ monthName month, Letter c := by
  revert month
  decide +kernel

theorem dayName_letters (day : Fin 7) : ∀ c ∈ dayName day, Letter c := by
  revert day
  decide +kernel

theorem shortDay_length (day : Fin 7) : (shortDay day).length = 3 := by
  revert day
  decide

theorem shortDay_letters (day : Fin 7) : ∀ c ∈ shortDay day, Letter c :=
  fun c hc => dayName_letters day c (List.mem_of_mem_take hc)

theorem skipWeekday_append {w s : List UInt8} (hne : w ≠ []) (hw : ∀ c ∈ w, c ≠ 32)
    (hs : s.head? ≠ some 32) : skipWeekday (w ++ 32 :: s) = s := by
  obtain ⟨c, cs, rfl⟩ := List.exists_cons_of_ne_nil hne
  have hc : (c == 32) = false := beq_eq_false_iff_ne.mpr (hw c (List.mem_cons_self ..))
  have hpos : ∀ x ∈ c :: cs, (x != 32) = true := fun x hx => bne_iff_ne.mpr (hw x hx)
  have hfirst : (c :: cs ++ 32 :: s).dropWhile (· == 32) = c :: cs ++ 32 :: s := by
    rw [List.cons_append, List.dropWhile_cons, hc]
    rfl
  have hword : (c :: cs ++ 32 :: s).dropWhile (· != 32) = 32 :: s := by
    rw [List.dropWhile_append_of_pos hpos]
    rfl
  rw [skipWeekday, hfirst, hword, List.dropWhile_cons]
  cases s with
  | nil => rfl
  | cons x s =>
      have hx : (x == 32) = false := beq_eq_false_iff_ne.mpr fun h => hs (congrArg some h)
      rw [if_pos (beq_self_eq_true _), List.dropWhile_cons, hx]
      rfl

theorem skipWeekday_comma {w s : List UInt8} (hw : ∀ c ∈ w, Letter c) (hs : s.head? ≠ some 32) :
    skipWeekday (w ++ 44 :: 32 :: s) = s := by
  have hcomma : ∀ c ∈ w ++ [44], c ≠ 32 := by
    intro c hc
    obtain hc | hc := List.mem_append.mp hc
    · exact (hw c hc).2.2.2.2
    · rw [List.mem_singleton.mp hc]
      decide
  rw [← List.singleton_append, ← List.append_assoc]
  exact skipWeekday_append (by simp) hcomma hs

theorem digits_head (w n : Nat) (rest : List UInt8) :
    (digits (w + 1) n ++ rest).head? ≠ some 32 := by
  obtain ⟨c, cs, hd⟩ := List.exists_cons_of_length_eq_add_one (digits_length (w + 1) n)
  have hc := isDigit_digits (w + 1) n c (hd ▸ List.mem_cons_self ..)
  rw [hd, List.cons_append, List.head?_cons, Ne, Option.some.injEq]
  rintro rfl
  exact absurd hc (by decide)

theorem monthName_head (month : Fin 12) (rest : List UInt8) :
    (monthName month ++ rest).head? ≠ some 32 := by
  obtain ⟨x, xs, hname⟩ := List.exists_cons_of_length_eq_add_one (monthName_length month)
  have hx := monthName_letters month x (hname ▸ List.mem_cons_self ..)
  rw [hname]
  exact fun h => hx.2.2.2.2 (Option.some.inj h)

theorem handleDateLine_append (value : List UInt8) : handleDateLine (dateHeader ++ value) =
    if value.length > maxDateLineLen then (-1, none)
    else (readFields (skipWeekday value)).elim (-1, none) convert := by
  rw [handleDateLine, dateFields, List.take_left, List.drop_left, if_neg (not_not.mpr rfl)]
  split_ifs <;> rfl

theorem sscanf_month (month : Fin 12) (ds : List Directive) (rest : List UInt8) :
    sscanf (.word 3 :: ds) (monthName month ++ rest) =
      .word (monthName month) :: sscanf ds rest := by
  have hlen := monthName_length month
  have hne : monthName month ≠ [] := List.ne_nil_of_length_eq_add_one hlen
  have hword := sscanf_word hne (fun x hx => (monthName_letters month x hx).1) ds rest
  rwa [hlen] at hword

section Lengths

variable (day : Fin 7) (c : DateTime)

theorem clockText_length : (clockText c).length = 8 := by
  simp [clockText, digits_length]

theorem rfc1123Form_length : (rfc1123Form day c).length = 29 := by
  simp [rfc1123Form, clockText_length, digits_length, monthName_length, shortDay_length, ascii]

theorem rfc850Form_length : (rfc850Form day c).length = (dayName day).length + 24 := by
  simp [rfc850Form, clockText_length, digits_length, monthName_length, ascii]

theorem asctimeForm_length : (asctimeForm day c).length = 24 := by
  have hday (day : Nat) : (paddedDay day).length = 2 := by
    rw [paddedDay]
    split_ifs <;> simp [digits_length]
  simp [asctimeForm, clockText_length, digits_length, monthName_length, shortDay_length, hday]

end Lengths

section Times

variable {c : DateTime} (hc : c.Valid)

include hc

theorem sscanf_clock (ds : List Directive) {rest : List UInt8}
    (hrest : rest.head?.any isDigit = false) :
    sscanf (.space :: (clock ++ ds)) (32 :: (clockText c ++ rest)) =
      [.int c.hour, .int c.minute, .int c.second] ++ sscanf ds rest := by
  obtain ⟨-, hhour, hminute, hsecond⟩ := hc
  have h := Int.toNat_of_nonneg hhour.1
  have m := Int.toNat_of_nonneg hminute.1
  have s := Int.toNat_of_nonneg hsecond.1
  simp only [clock, clockText, List.append_assoc, List.cons_append, List.nil_append]
  rw [sscanf_space_int, sscanf_int_space, sscanf_digits (by omega) (by decide) _ rfl,
    sscanf_literal, sscanf_digits (by omega) (by decide) _ rfl, sscanf_literal,
    sscanf_digits (by omega) (by decide) _ hrest, h, m, s]

theorem sscanf_last_clock {rest : List UInt8} (hrest : rest.head?.any isDigit = false) :
    sscanf (.space :: clock) (32 :: (clockText c ++ rest)) =
      [.int c.hour, .int c.minute, .int c.second] := by
  have h := sscanf_clock hc [] hrest
  rwa [List.append_nil, sscanf, List.append_nil] at h

theorem day_bounds : ((c.day.toNat : Int) = c.day) ∧ 1 ≤ c.day.toNat ∧ c.day.toNat < 100 := by
  have hle : monthLength (isLeap c.year) c.month ≤ 31 := by
    generalize isLeap c.year = leap, c.month = month
    revert leap month
    decide
  have hday := hc.day
  omega

theorem readFields_rfc1123 (hyear : 0 ≤ c.year ∧ c.year < 10000) :
    readFields (digits 2 c.day.toNat ++ 32 :: (monthName c.month ++ 32 ::
      (digits 4 c.year.toNat ++ 32 :: (clockText c ++ ascii " GMT")))) =
      some ⟨c.day, monthName c.month, c.year, c.hour, c.minute, c.second⟩ := by
  obtain ⟨hday, -, hlt⟩ := day_bounds hc
  have hy := Int.toNat_of_nonneg hyear.1
  have hscan : sscanf rfc1123 (digits 2 c.day.toNat ++ 32 :: (monthName c.month ++ 32 ::
      (digits 4 c.year.toNat ++ 32 :: (clockText c ++ ascii " GMT")))) =
      [.int c.day, .word (monthName c.month), .int c.year, .int c.hour, .int c.minute,
        .int c.second] := by
    simp only [rfc1123, List.cons_append, List.nil_append]
    rw [sscanf_digits (by omega) (by decide) _ rfl, sscanf_space_word, sscanf_word_space,
      sscanf_month, sscanf_space_int, sscanf_int_space, sscanf_digits (by omega) (by decide) _ rfl,
      sscanf_last_clock hc rfl, hday, hy]
  rw [readFields, hscan]
  rfl

/-- In the form of RFC 850 the first pattern takes the hyphen for a part of the
month, and fails on what is left of its name. -/
theorem readFields_rfc850 {year : Nat} (hyear : year < 100) :
    readFields (digits 2 c.day.toNat ++ 45 :: (monthName c.month ++ 45 ::
      (digits 2 year ++ 32 :: (clockText c ++ ascii " GMT")))) =
      some ⟨c.day, monthName c.month, year, c.hour, c.minute, c.second⟩ := by
  obtain ⟨hday, -, hlt⟩ := day_bounds hc
  have hfirst : sscanf rfc1123 (digits 2 c.day.toNat ++ 45 :: (monthName c.month ++ 45 ::
      (digits 2 year ++ 32 :: (clockText c ++ ascii " GMT")))) =
      [.int c.day, .word (45 :: (monthName c.month).take 2)] := by
    obtain ⟨x, y, z, hname⟩ := List.length_eq_three.mp (monthName_length c.month)
    have hletters := monthName_letters c.month
    rw [hname] at hletters
    obtain ⟨hx, hy, hz⟩ : Letter x ∧ Letter y ∧ Letter z := by simpa using hletters
    have h45 : isSpace 45 = false := rfl
    have hspace : ∀ c ∈ [45, x, y], isSpace c = false := by simp [h45, hx.1, hy.1]
    have hword := sscanf_word (by simp) hspace
    simp only [List.length_cons, List.length_nil, List.cons_append, List.nil_append] at hword
    simp only [rfc1123, hname, List.cons_append, List.nil_append]
    rw [sscanf_digits (by omega) (by decide) _ rfl, sscanf_space_word, hword, sscanf_space_int,
      sscanf_int_none hz.1 hz.2.1 ⟨hz.2.2.1, hz.2.2.2.1⟩, hday]
    rfl
  have hscan : sscanf rfc850 (digits 2 c.day.toNat ++ 45 :: (monthName c.month ++ 45 ::
      (digits 2 year ++ 32 :: (clockText c ++ ascii " GMT")))) =
      [.int c.day, .word (monthName c.month), .int year, .int c.hour, .int c.minute,
        .int c.second] := by
    simp only [rfc850, List.cons_append, List.nil_append]
    rw [sscanf_digits (by omega) (by decide) _ rfl, sscanf_literal, sscanf_month, sscanf_literal,
      sscanf_digits (by omega) (by decide) _ rfl, sscanf_last_clock hc rfl, hday]
  rw [readFields, hfirst, hscan]
  rfl

theorem sscanf_paddedDay (ds : List Directive) {rest : List UInt8}
    (hrest : rest.head?.any isDigit = false) :
    sscanf (.int :: ds) (paddedDay c.day.toNat ++ rest) = .int c.day :: sscanf ds rest := by
  obtain ⟨hday, -, hlt⟩ := day_bounds hc
  rw [paddedDay]
  split_ifs with h
  · rw [List.cons_append, sscanf_int_space, sscanf_digits (by omega) (by decide) _ hrest, hday]
  · rw [sscanf_digits (by omega) (by decide) _ hrest, hday]

theorem readFields_asctime (hyear : 0 ≤ c.year ∧ c.year < 10000) :
    readFields (monthName c.month ++ 32 :: (paddedDay c.day.toNat ++ 32 ::
      (clockText c ++ 32 :: digits 4 c.year.toNat))) =
      some ⟨c.day, monthName c.month, c.year, c.hour, c.minute, c.second⟩ := by
  have hy := Int.toNat_of_nonneg hyear.1
  have hnone (ds : List Directive) (rest : List UInt8) :
      sscanf (.int :: ds) (monthName c.month ++ rest) = [] := by
    obtain ⟨x, xs, hname⟩ := List.exists_cons_of_length_eq_add_one (monthName_length c.month)
    have hx := monthName_letters c.month x (hname ▸ List.mem_cons_self ..)
    rw [hname, List.cons_append, sscanf_int_none hx.1 hx.2.1 ⟨hx.2.2.1, hx.2.2.2.1⟩]
  have hscan : sscanf asctime (monthName c.month ++ 32 :: (paddedDay c.day.toNat ++ 32 ::
      (clockText c ++ 32 :: digits 4 c.year.toNat))) =
      [.word (monthName c.month), .int c.day, .int c.hour, .int c.minute, .int c.second,
        .int c.year] := by
    have hlast : sscanf [.int] (digits (3 + 1) c.year.toNat ++ []) =
        .int c.year.toNat :: sscanf [] [] := sscanf_digits (by omega) (by decide) [] rfl
    rw [List.append_nil, sscanf, hy] at hlast
    simp only [asctime, List.cons_append, List.nil_append]
    rw [sscanf_month, sscanf_space_int, sscanf_int_space, sscanf_paddedDay hc _ rfl,
      sscanf_clock hc _ rfl, sscanf_space_int, sscanf_int_space, hlast]
    rfl
  rw [readFields, hscan, rfc1123, List.cons_append, hnone, rfc850, List.cons_append, hnone]
  rfl

theorem handleDateLine_rfc1123Form (day : Fin 7) (hyear : 0 ≤ c.year ∧ c.year < 10000) :
    handleDateLine (dateHeader ++ rfc1123Form day c) =
      convert ⟨c.day, monthName c.month, c.year, c.hour, c.minute, c.second⟩ := by
  have hshort : ¬ (rfc1123Form day c).length > maxDateLineLen := by
    rw [rfc1123Form_length]
    decide
  rw [handleDateLine_append, if_neg hshort, rfc1123Form,
    skipWeekday_comma (shortDay_letters day) (digits_head _ _ _), readFields_rfc1123 hc hyear,
    Option.elim_some]

theorem handleDateLine_asctimeForm (day : Fin 7) (hyear : 0 ≤ c.year ∧ c.year < 10000) :
    handleDateLine (dateHeader ++ asctimeForm day c) =
      convert ⟨c.day, monthName c.month, c.year, c.hour, c.minute, c.second⟩ := by
  have hshort : ¬ (asctimeForm day c).length > maxDateLineLen := by
    rw [asctimeForm_length]
    decide
  have hne : shortDay day ≠ [] := List.ne_nil_of_length_eq_add_one (shortDay_length day)
  have hword : ∀ c ∈ shortDay day, c ≠ 32 := fun c hc => (shortDay_letters day c hc).2.2.2.2
  rw [handleDateLine_append, if_neg hshort, asctimeForm,
    skipWeekday_append hne hword (monthName_head _ _), readFields_asctime hc hyear,
    Option.elim_some]

theorem handleDateLine_rfc850Form (day : Fin 7) :
    handleDateLine (dateHeader ++ rfc850Form day c) =
      if maxDateLineLen < (dayName day).length + 24 then (-1, none)
      else convert ⟨c.day, monthName c.month, (c.year.toNat % 100 : Nat), c.hour, c.minute,
        c.second⟩ := by
  have hyear : c.year.toNat % 100 < 100 := Nat.mod_lt _ (by decide)
  rw [handleDateLine_append, rfc850Form_length, rfc850Form,
    skipWeekday_comma (dayName_letters day) (digits_head _ _ _), readFields_rfc850 hc hyear,
    Option.elim_some]

end Times

theorem year_bounds (t : UInt32) :
    1970 ≤ (ofSeconds t.toNat).year ∧ (ofSeconds t.toNat).year ≤ 2106 := by
  have ht := t.toNat_lt
  refine ⟨le_yearOf ?_, yearOf_le ?_⟩
  · simp only [daysBeforeYear, epochDay]
    omega
  · simp only [daysBeforeYear, epochDay]
    omega

theorem convert_fields {c : DateTime} {t : UInt32} {year : Int} (hc : toSeconds c = t.toNat)
    (hyear : fullYear year = c.year) :
    convert ⟨c.day, monthName c.month, year, c.hour, c.minute, c.second⟩ = (1, some t) := by
  refine convert_stores (monthOf_monthName _) ?_
  rw [timegm_tm, hyear]
  exact hc

theorem fullYear_of_le {year : Int} (h : 100 ≤ year) : fullYear year = year :=
  if_neg (Int.not_lt.mpr h)

/-- Both forms of every instant that fits 32 bits are read back. -/
theorem handleDateLine_round_trip (t : UInt32) :
    handleDateLine (dateHeader ++ rfc1123Text t.toNat) = (1, some t) ∧
      handleDateLine (dateHeader ++ asctimeText t.toNat) = (1, some t) := by
  obtain ⟨hlow, hhigh⟩ := year_bounds t
  have hvalid := valid_ofSeconds t.toNat
  have hdone := convert_fields (toSeconds_ofSeconds t.toNat) (fullYear_of_le (by omega))
  rw [rfc1123Text, asctimeText, handleDateLine_rfc1123Form hvalid _ (by omega),
    handleDateLine_asctimeForm hvalid _ (by omega)]
  exact ⟨hdone, hdone⟩

example : rfc1123Text 784111777 = ascii "Sun, 06 Nov 1994 08:49:37 GMT" ∧
    asctimeText 784111777 = ascii "Sun Nov  6 08:49:37 1994" := by
  decide +kernel

def century : Nat := 946684800

theorem year_short {t : UInt32} (ht : t.toNat < century) : (ofSeconds t.toNat).year ≤ 1999 := by
  rw [century] at ht
  refine yearOf_le ?_
  simp only [daysBeforeYear, epochDay]
  omega

theorem wednesday_long (day : Fin 7) :
    maxDateLineLen < (dayName day).length + 24 ↔ day = 3 := by
  revert day
  decide

/-- The form with the whole weekday has no room for the longest of them. -/
theorem handleDateLine_rfc850 (t : UInt32) (ht : t.toNat < century) :
    handleDateLine (dateHeader ++ rfc850Text t.toNat) = (1, some t) ↔ weekday t.toNat ≠ 3 := by
  obtain ⟨hlow, -⟩ := year_bounds t
  have hhigh := year_short ht
  rw [rfc850Text, handleDateLine_rfc850Form (valid_ofSeconds _)]
  by_cases hday : weekday t.toNat = 3
  · rw [if_pos ((wednesday_long _).mpr hday)]
    refine iff_of_false (fun h => ?_) (not_not.mpr hday)
    exact absurd (Prod.mk.inj h).1 (by decide)
  · rw [if_neg fun h => hday ((wednesday_long _).mp h)]
    refine iff_of_true (convert_fields (toSeconds_ofSeconds _) ?_) hday
    rw [fullYear]
    omega

theorem sunday_read : handleDateLine (dateHeader ++ rfc850Text 784111777) = (1, some 784111777) :=
  (handleDateLine_rfc850 784111777 (by decide)).mpr (by decide)

theorem wednesday_refused :
    784370977 < century ∧ rfc850Text 784370977 = ascii "Wednesday, 09-Nov-94 08:49:37 GMT" ∧
      handleDateLine (dateHeader ++ rfc850Text 784370977) = (-1, none) := by
  decide +kernel

end Tlsdate.DateForms
