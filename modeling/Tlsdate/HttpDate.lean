import Tlsdate.Calendar
import Tlsdate.Scanf

namespace Tlsdate.HttpDate

open Calendar Scanf
open ProxyBio (ascii)

def maxDateLineLen : Nat := 32

def dateHeader : List UInt8 := ascii "\r\nDate: "

def monthNames : List (List UInt8) :=
  [ascii "Jan", ascii "Feb", ascii "Mar", ascii "Apr", ascii "May", ascii "Jun",
    ascii "Jul", ascii "Aug", ascii "Sep", ascii "Oct", ascii "Nov", ascii "Dec"]

def monthName (month : Fin 12) : List UInt8 := monthNames.getD month []

def monthOf (name : List UInt8) : Option (Fin 12) :=
  (List.finRange 12).find? fun month => monthName month == name

/-- `struct tm`, with the years counted from 1900. -/
structure Tm where
  year : Int
  mon : Fin 12
  mday : Int
  hour : Int
  min : Int
  sec : Int

def timegm (tm : Tm) : Int :=
  toSeconds ⟨tm.year + 1900, tm.mon, tm.mday, tm.hour, tm.min, tm.sec⟩

structure Fields where
  day : Int
  month : List UInt8
  year : Int
  hour : Int
  min : Int
  sec : Int
  deriving DecidableEq, Repr

/-- `%d:%d:%d` -/
def clock : List Directive := [.int, .literal 58, .int, .literal 58, .int]

/-- `%d %3s %d %d:%d:%d` -/
def rfc1123 : List Directive := [.int, .space, .word 3, .space, .int, .space] ++ clock

/-- `%d-%3s-%d %d:%d:%d` -/
def rfc850 : List Directive := [.int, .literal 45, .word 3, .literal 45, .int, .space] ++ clock

/-- `%3s %d %d:%d:%d %d` -/
def asctime : List Directive := [.word 3, .space, .int, .space] ++ clock ++ [.space, .int]

def dayFirst : List Item → Option Fields
  | [.int day, .word month, .int year, .int hour, .int min, .int sec] =>
      some ⟨day, month, year, hour, min, sec⟩
  | _ => none

def monthFirst : List Item → Option Fields
  | [.word month, .int day, .int hour, .int min, .int sec, .int year] =>
      some ⟨day, month, year, hour, min, sec⟩
  | _ => none

def readFields (s : List UInt8) : Option Fields :=
  dayFirst (sscanf rfc1123 s) <|> dayFirst (sscanf rfc850 s) <|> monthFirst (sscanf asctime s)

/-- Two digit dates are defined to be relative to 1900. -/
def fullYear (year : Int) : Int := if year < 100 then year + 1900 else year

def skipWeekday (s : List UInt8) : List UInt8 :=
  ((s.dropWhile (· == 32)).dropWhile (· != 32)).dropWhile (· == 32)

def Fields.tm (fields : Fields) (mon : Fin 12) : Tm :=
  ⟨fullYear fields.year - 1900, mon, fields.day, fields.hour, fields.min, fields.sec⟩

def convert (fields : Fields) : Int × Option UInt32 :=
  match monthOf fields.month with
  | none => (-2, none)
  | some mon =>
      let t := timegm (fields.tm mon)
      if t > 0xffffffff ∨ t < 0 then (-1, none) else (1, some (UInt32.ofNat t.toNat))

def dateFields (dateline : List UInt8) : Option Fields :=
  let value := dateline.drop dateHeader.length
  if value.length > maxDateLineLen then none else readFields (skipWeekday value)

def handleDateLine (dateline : List UInt8) : Int × Option UInt32 :=
  if dateline.take dateHeader.length ≠ dateHeader then (0, none)
  else (dateFields dateline).elim (-1, none) convert

theorem monthOf_monthName (month : Fin 12) : monthOf (monthName month) = some month := by
  revert month
  decide

theorem timegm_tm (fields : Fields) (mon : Fin 12) : timegm (fields.tm mon) = toSeconds
    ⟨fullYear fields.year, mon, fields.day, fields.hour, fields.min, fields.sec⟩ := by
  rw [timegm, Fields.tm, sub_add_cancel]

theorem convert_stores {fields : Fields} {month : Fin 12} {t : UInt32}
    (hm : monthOf fields.month = some month)
    (ht : timegm (fields.tm month) = t.toNat) : convert fields = (1, some t) := by
  have hlt := t.toNat_lt
  have hrange : ¬ ((t.toNat : Int) > 0xffffffff ∨ (t.toNat : Int) < 0) := by omega
  simp only [convert, hm, ht, if_neg hrange, Int.toNat_natCast, UInt32.ofNat_toNat]

theorem convert_one {fields : Fields} (h : (convert fields).1 = 1) :
    ∃ t, convert fields = (1, some t) := by
  cases hm : monthOf fields.month with
  | none => simp [convert, hm] at h
  | some month =>
      simp only [convert, hm] at h ⊢
      split_ifs at h ⊢ with hrange
      · exact absurd h (by decide)
      · exact ⟨_, rfl⟩

theorem handleDateLine_one {line : List UInt8} (h : (handleDateLine line).1 = 1) :
    ∃ t, handleDateLine line = (1, some t) := by
  rw [handleDateLine] at h ⊢
  split_ifs at h ⊢ with hheader
  · exact absurd h (by decide)
  · cases hf : dateFields line with
    | none => simp [hf] at h
    | some fields =>
        rw [hf] at h
        exact convert_one h

end Tlsdate.HttpDate
