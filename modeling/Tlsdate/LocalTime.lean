import Tlsdate.Calendar

namespace Tlsdate.LocalTime

open Calendar

structure Tm where
  sec : Int
  min : Int
  hour : Int
  mday : Int
  mon : Int
  year : Int
  wday : Int
  yday : Int
  isdst : Int
  deriving DecidableEq, Repr

/-- What POSIX defines the fields to be as seconds since the epoch when they are
taken as UTC. They may be out of their ranges; the weekday and the day of the
year are ignored. -/
def Tm.seconds (tm : Tm) : Int :=
  toSeconds ⟨tm.year + 1900 + tm.mon / 12, ⟨(tm.mon % 12).toNat, by omega⟩, tm.mday, tm.hour,
    tm.min, tm.sec⟩

def utcFields (t : Int) : Tm :=
  let c := ofSeconds t
  { sec := c.second
    min := c.minute
    hour := c.hour
    mday := c.day
    mon := c.month
    year := c.year - 1900
    wday := weekday t
    yday := daysBeforeMonth (isLeap c.year) c.month + (c.day - 1)
    isdst := 0 }

/-- `gmtime_r`, which returns NULL when the year is no `int`. -/
def gmtimeR (t : Int) : Option Tm :=
  if -2 ^ 31 ≤ (utcFields t).year ∧ (utcFields t).year < 2 ^ 31 then some (utcFields t) else none

/-- The rules of a time zone, at each instant: the offset of its standard time
from UTC, what daylight saving time adds to it, and if that is in effect. -/
structure Zone where
  standard : Int → Int
  daylight : Int → Int
  inEffect : Int → Bool

/-- The offset that a broken-down time is expressed with: `tm_isdst` says if it
is daylight saving time, and leaves that to the rules if it is negative. -/
def Zone.offset (zone : Zone) (isdst : Int) (t : Int) : Int :=
  if isdst = 0 then zone.standard t
  else if 0 < isdst ∨ zone.inEffect t = true then zone.standard t + zone.daylight t
  else zone.standard t

def Zone.Shows (zone : Zone) (tm : Tm) (t : Int) : Prop := t + zone.offset tm.isdst t = tm.seconds

/-- `mktime` in the time zone: it returns an instant with the broken-down time
if there is one. Which one of several, and what if there is none, is left open. -/
structure LocalClock (zone : Zone) where
  mktime : Tm → Int
  posix : ∀ tm, (∃ t, zone.Shows tm t) → zone.Shows tm (mktime tm)

theorem seconds_utcFields (t : Int) : (utcFields t).seconds = t := by
  have hmon : ((ofSeconds t).month : Int) / 12 = 0 ∧ ((ofSeconds t).month : Int) % 12 =
      ((ofSeconds t).month : Nat) := by
    have h := (ofSeconds t).month.isLt
    omega
  simp only [utcFields, Tm.seconds, hmon, Int.toNat_natCast, Fin.eta, add_zero, sub_add_cancel]
  exact toSeconds_ofSeconds t

theorem yearOf_near {day : Int} (h0 : 0 ≤ day) : 0 ≤ yearOf day ∧ yearOf day ≤ day + 2 := by
  rw [yearOf]
  split_ifs <;> omega

theorem gmtimeR_eq {t : Int} (h0 : 0 ≤ t) (ht : t < 2 ^ 44) : gmtimeR t = some (utcFields t) := by
  have hyear := yearOf_near (show 0 ≤ t / 86400 + epochDay by rw [epochDay]; omega)
  have heq : (utcFields t).year = yearOf (t / 86400 + epochDay) - 1900 := rfl
  rw [epochDay] at hyear heq
  rw [gmtimeR, if_pos]
  omega

theorem Zone.shows_standard {zone : Zone} {tm : Tm} (h : tm.isdst = 0) (t : Int) :
    zone.Shows tm t ↔ t + zone.standard t = tm.seconds := by
  rw [Zone.Shows, Zone.offset, if_pos h]

theorem exists_clock {zone : Zone} {tm : Tm} {t : Int}
    (h : zone.Shows tm t ∨ ∀ t', ¬ zone.Shows tm t') :
    ∃ clock : LocalClock zone, clock.mktime tm = t := by
  classical
  let mktime (tm' : Tm) : Int :=
    if zone.Shows tm' t then t else if he : ∃ t', zone.Shows tm' t' then he.choose else t
  refine ⟨⟨mktime, fun tm' he => ?_⟩, ?_⟩
  · by_cases ht : zone.Shows tm' t
    · simpa only [mktime, if_pos ht] using ht
    · simpa only [mktime, if_neg ht, dif_pos he] using he.choose_spec
  · rcases h with h | h
    · exact if_pos h
    · have hne : ¬ ∃ t', zone.Shows tm t' := fun he => h _ he.choose_spec
      simp only [mktime, if_neg (h t), dif_neg hne]

/-- A zone whose offsets never change, with daylight saving time never in effect. -/
def fixedZone (standard daylight : Int) : Zone :=
  ⟨fun _ => standard, fun _ => daylight, fun _ => false⟩

def fixedClock (standard daylight : Int) : LocalClock (fixedZone standard daylight) where
  mktime tm := tm.seconds - (fixedZone standard daylight).offset tm.isdst 0
  posix tm _ := sub_add_cancel tm.seconds ((fixedZone standard daylight).offset tm.isdst 0)

end Tlsdate.LocalTime
