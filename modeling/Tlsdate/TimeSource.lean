namespace Tlsdate.TimeSource

def tlsdatedMaxDate : Int := 1999991337

/-- The constants that configure compiles in. RECENT_COMPILE_DATE is the date
of the build in seconds since the epoch, which has to leave room for one sane
time below TLSDATED_MAX_DATE. -/
structure Build where
  recentCompileDate : Int
  tlsdate : String
  epoch : 0 ≤ recentCompileDate
  current : recentCompileDate + 1 < tlsdatedMaxDate

/-- The date that the sources fall back to when configure does not set one. -/
def fallbackBuild : Build := ⟨1342323666, "/usr/bin/tlsdate", by decide, by decide⟩

/-- SYNC_TYPE_*, in order of reliability. -/
inductive SyncType
  | none
  | build
  | disk
  | rtc
  | platform
  | net
  deriving DecidableEq, Repr

/-- SETTER_*, the status words of the time setter. The daemon reads them as
plain integers. -/
def setterExit : Int := 0
def setterBadTime : Int := 1
def setterNoSave : Int := 2
def setterReadErr : Int := 3
def setterTimeSet : Int := 4
def setterSetErr : Int := 5
def setterNoSbox : Int := 6
def setterNoRtc : Int := 7

def isSaneTime (build : Build) (ts : Int) : Bool :=
  decide (ts > build.recentCompileDate) && decide (ts < tlsdatedMaxDate)

variable {build : Build} {ts : Int}

theorem isSaneTime_iff :
    isSaneTime build ts = true ↔ build.recentCompileDate < ts ∧ ts < tlsdatedMaxDate := by
  simp [isSaneTime]

theorem isSaneTime_pos (h : isSaneTime build ts = true) : 0 < ts :=
  Int.lt_of_le_of_lt build.epoch (isSaneTime_iff.mp h).1

theorem isSaneTime_neg (h : isSaneTime build ts = true) : isSaneTime build (-ts) = false := by
  have hp := isSaneTime_pos h
  have he := build.epoch
  simp only [isSaneTime, Bool.and_eq_false_iff, decide_eq_false_iff_not]
  omega

end Tlsdate.TimeSource
