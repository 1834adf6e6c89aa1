import Tlsdate.HttpDate

namespace Tlsdate.DateCarry

open Calendar HttpDate
open ProxyBio (ascii)

/-- The date and time that a date line spells, whether or not there is such a time. -/
def spelled (fields : Fields) (month : Fin 12) : DateTime :=
  ⟨fullYear fields.year, month, fields.day, fields.hour, fields.min, fields.sec⟩

inductive Spells (line : List UInt8) : DateTime → Prop
  | read {fields month} (header : line.take dateHeader.length = dateHeader)
      (fields_read : dateFields line = some fields)
      (month_found : monthOf fields.month = some month) : Spells line (spelled fields month)

theorem convert_eq {fields : Fields} {t : UInt32} : convert fields = (1, some t) ↔
    ∃ month, monthOf fields.month = some month ∧ toSeconds (spelled fields month) = t.toNat := by
  cases hm : monthOf fields.month with
  | none => simp [convert, hm]
  | some month =>
      constructor
      · intro h
        simp only [convert, hm] at h
        split_ifs at h with hrange
        · exact absurd (Prod.mk.inj h).2.symm (Option.some_ne_none t)
        · have ht := Option.some.inj (Prod.mk.inj h).2
          refine ⟨month, rfl, ?_⟩
          rw [spelled, ← timegm_tm, ← ht, UInt32.toNat_ofNat']
          omega
      · rintro ⟨_, he, ht⟩
        obtain rfl := Option.some.inj he
        exact convert_stores hm ((timegm_tm fields month).trans ht)

theorem handleDateLine_stores {line : List UInt8} {t : UInt32} :
    handleDateLine line = (1, some t) ↔ ∃ c, Spells line c ∧ toSeconds c = t.toNat := by
  rw [handleDateLine]
  constructor
  · intro h
    split_ifs at h with hheader
    · exact absurd (Prod.mk.inj h).2.symm (Option.some_ne_none t)
    · cases hf : dateFields line with
      | none => simp [hf] at h
      | some fields =>
          rw [hf, Option.elim_some] at h
          obtain ⟨month, hm, ht⟩ := convert_eq.mp h
          exact ⟨_, .read (not_not.mp hheader) hf hm, ht⟩
  · rintro ⟨c, hs, ht⟩
    cases hs with
    | read hheader hf hm =>
        rw [if_neg (not_not.mpr hheader), hf, Option.elim_some]
        exact convert_eq.mpr ⟨_, hm, ht⟩

theorem ofSeconds_eq_iff {c : DateTime} {t : Int} (h : toSeconds c = t) :
    ofSeconds t = c ↔ c.Valid := by
  constructor
  · rintro rfl
    exact valid_ofSeconds t
  · intro hc
    rw [← h, ofSeconds_toSeconds hc]

/-- A date line is taken for the seconds that its fields come to, those out of
their ranges carried over; the calendar then shows the same fields just when
they were a date and time. -/
theorem handleDateLine_carries (line : List UInt8) (t : UInt32) :
    handleDateLine line = (1, some t) ↔ ∃ c, Spells line c ∧ toSeconds c = t.toNat ∧
      (ofSeconds t.toNat = c ↔ c.Valid) := by
  rw [handleDateLine_stores]
  constructor
  · rintro ⟨c, hs, ht⟩
    exact ⟨c, hs, ht, ofSeconds_eq_iff ht⟩
  · rintro ⟨c, hs, ht, -⟩
    exact ⟨c, hs, ht⟩

def thirtyFirst : List UInt8 := dateHeader ++ ascii "Thu, 31 Feb 1994 00:00:00 GMT"

theorem thirtyFirst_moves : dateFields thirtyFirst = some ⟨31, ascii "Feb", 1994, 0, 0, 0⟩ ∧
    handleDateLine thirtyFirst = (1, some 762652800) ∧
      ofSeconds 762652800 = ⟨1994, 2, 3, 0, 0, 0⟩ := by
  decide +kernel

end Tlsdate.DateCarry
