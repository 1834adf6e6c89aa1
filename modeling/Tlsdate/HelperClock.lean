import Mathlib.Algebra.Order.Field.Rat
import Mathlib.Algebra.Order.Field.Basic
import Mathlib.Tactic.NormNum
import Mathlib.Tactic.Ring
import Tlsdate.TimeSource

namespace Tlsdate.HelperClock

open TimeSource

structure Timespec where
  sec : Int
  nsec : Int
  deriving DecidableEq, Repr

structure Reading extends Timespec where
  nsec_range : 0 ≤ nsec ∧ nsec < 10 ^ 9

def clockUsec (time : Timespec) : Int := time.nsec / 1000

def clockInitTime (sec nsec : Int) : Timespec := ⟨sec, nsec⟩

def tlsRttUnreasonable : Int := 30000

def maxReasonableTime : Int := 1999991337

def rttMs (start stop : Timespec) : Int :=
  let rtTimeMs := (stop.sec - start.sec) * 1000 + (clockUsec stop - clockUsec start).tdiv 1000
  if rtTimeMs < 0 then 0 else rtTimeMs

structure Flags where
  setclock : Bool
  timewarp : Bool

/-- What `main` meets: the clock before and after the warp and at the end, which
times can be set, and the child, which leaves a time or lets `main` die. -/
structure World where
  first : Option Reading
  warped : Option Reading
  stop : Option Reading
  settable : Timespec → Bool
  child : Except String UInt32

section Main

variable (build : Build) (flags : Flags) (world : World)

def warpTime : Timespec := clockInitTime build.recentCompileDate 0

/-- The part of `main` before the child is forked: the times it sets, and the
start of the round trip or what it dies of. -/
def warp : List Timespec × Except String Reading :=
  match world.first with
  | none => ([], .error "Failed to read current time of day")
  | some start =>
      -- both are compared as unsigned long
      if start.sec % 2 ^ 64 < (warpTime build).sec % 2 ^ 64 && flags.timewarp then
        if world.settable (warpTime build) then
          match world.warped with
          | none => ([warpTime build], .error "Failed to read current time of day")
          | some start => ([warpTime build], .ok start)
        else ([warpTime build], .error "setting time failed")
      else ([], .ok start)

def serverTime (start stop : Timespec) (serverTimeS : UInt32) : Except String Timespec :=
  let rtTimeMs := rttMs start stop
  if serverTimeS = 0 then
    .error "child process failed to update time map; weird platform issues?"
  else if rtTimeMs > tlsRttUnreasonable then
    .error ("the TLS handshake took more than 30000 msecs - consider using a different " ++
      "server or run it again")
  else .ok (clockInitTime (serverTimeS.toNat + rtTimeMs / 2 / 1000) (rtTimeMs / 2 % 1000))

def checkedTime (start stop : Timespec) (serverTimeS : UInt32) :
    Except String (Option Timespec) := do
  let time ← serverTime start stop serverTimeS
  if !flags.setclock then return none
  else if time.sec ≥ maxReasonableTime then
    .error "remote server is a false ticker from the future!"
  else if time.sec ≤ build.recentCompileDate then .error "remote server is a false ticker!"
  else return some time

/-- The times that `main` passes to `clock_set_real_time`, and what it dies of. -/
def main : List Timespec × Except String Unit :=
  let warped := warp build flags world
  match warped.2 with
  | .error e => (warped.1, .error e)
  | .ok start =>
      match world.child with
      | .error e => (warped.1, .error e)
      | .ok serverTimeS =>
          match world.stop with
          | none => (warped.1, .error "Failed to read current time of day")
          | some stop =>
              match checkedTime build flags start.toTimespec stop.toTimespec serverTimeS with
              | .error e => (warped.1, .error e)
              | .ok none => (warped.1, .ok ())
              | .ok (some time) =>
                  (warped.1 ++ [time],
                    if world.settable time then .ok () else .error "setting time failed")

end Main

def Timespec.toRat (time : Timespec) : ℚ := time.sec + time.nsec / 10 ^ 9

structure Corrected (build : Build) (start stop : Timespec) (serverTimeS : UInt32)
    (time : Timespec) : Prop where
  nsec : 0 ≤ time.nsec ∧ time.nsec < 10 ^ 9
  sec : build.recentCompileDate < time.sec ∧ time.sec < maxReasonableTime
  close : |time.toRat - (serverTimeS.toNat + (stop.toRat - start.toRat) / 2)| ≤ 1 / 1000

/-- The clock readings are a whole number of two second periods apart, or more by
up to two milliseconds (and two nanoseconds). They may be less by up to one
millisecond where the later one has the lesser fraction of a second. -/
def WholePeriods (start stop : Timespec) : Prop :=
  ∃ periods : Int,
    (stop.sec - start.sec) * 10 ^ 9 + (stop.nsec - start.nsec) ≤
      2 * 10 ^ 9 * periods + 2 * 10 ^ 6 + 2 ∧
    2 * 10 ^ 6 * periods - (if clockUsec start ≤ clockUsec stop then 0 else 999) ≤
      (stop.sec - start.sec) * 10 ^ 6 + (clockUsec stop - clockUsec start)

def elapsedNs (start stop : Timespec) : Int :=
  (stop.sec - start.sec) * 10 ^ 9 + (stop.nsec - start.nsec)

theorem rttMs_eq {start stop : Reading} (hle : 0 ≤ elapsedNs start.toTimespec stop.toTimespec) :
    rttMs start.toTimespec stop.toTimespec = (stop.sec - start.sec) * 1000 +
      (clockUsec stop.toTimespec - clockUsec start.toTimespec).tdiv 1000 := by
  have hs := start.nsec_range
  have ht := stop.nsec_range
  rw [elapsedNs] at hle
  simp only [rttMs, clockUsec]
  refine if_neg (Int.not_lt.mpr ?_)
  obtain h | h := Int.le_total 0 (stop.nsec / 1000 - start.nsec / 1000)
  · rw [Int.tdiv_eq_ediv_of_nonneg h]
    omega
  · rw [← Int.neg_neg (stop.nsec / 1000 - start.nsec / 1000), Int.neg_tdiv,
      Int.tdiv_eq_ediv_of_nonneg (by omega)]
    omega

theorem close_iff (start stop time : Timespec) (serverTimeS : UInt32) :
    |time.toRat - (serverTimeS.toNat + (stop.toRat - start.toRat) / 2)| ≤ 1 / 1000 ↔
      |2 * ((time.sec - serverTimeS.toNat) * 10 ^ 9 + time.nsec) - elapsedNs start stop| ≤
        2 * 10 ^ 6 := by
  have hscale : time.toRat - (serverTimeS.toNat + (stop.toRat - start.toRat) / 2) =
      ((2 * ((time.sec - serverTimeS.toNat) * 10 ^ 9 + time.nsec) - elapsedNs start stop : Int) : ℚ) /
        (2 * 10 ^ 9) := by
    simp only [Timespec.toRat, elapsedNs]
    push_cast
    ring
  rw [hscale, abs_div, abs_of_pos (show (0 : ℚ) < 2 * 10 ^ 9 by norm_num),
    div_le_iff₀ (by norm_num), ← Int.cast_abs]
  have hbound : (1 / 1000 * (2 * 10 ^ 9) : ℚ) = ((2 * 10 ^ 6 : Int) : ℚ) := by norm_num
  rw [hbound, Int.cast_le]

/-- Division truncates towards zero, so that it errs to one side or the other. -/
theorem tdiv_near (u v : Int) :
    v - u - 999 + (if u ≤ v then 0 else 999) ≤ 1000 * (v - u).tdiv 1000 ∧
      1000 * (v - u).tdiv 1000 ≤ v - u + if u ≤ v then 0 else 999 := by
  split_ifs with h
  · rw [Int.tdiv_eq_ediv_of_nonneg (by omega)]
    omega
  · rw [← Int.neg_neg (v - u), Int.neg_tdiv, Int.tdiv_eq_ediv_of_nonneg (by omega)]
    omega

/-- Milliseconds are stored as nanoseconds, so that the correction is right only
where there is none beyond whole seconds. -/
theorem wholePeriods_iff {start stop : Reading}
    (hle : 0 ≤ elapsedNs start.toTimespec stop.toTimespec) :
    |2 * (rttMs start.toTimespec stop.toTimespec / 2 / 1000 * 10 ^ 9 +
        rttMs start.toTimespec stop.toTimespec / 2 % 1000) -
        elapsedNs start.toTimespec stop.toTimespec| ≤ 2 * 10 ^ 6 ↔
      WholePeriods start.toTimespec stop.toTimespec := by
  have hs := start.nsec_range
  have ht := stop.nsec_range
  rw [rttMs_eq hle, abs_le, WholePeriods]
  rw [elapsedNs] at hle ⊢
  have hu : clockUsec start.toTimespec = start.nsec / 1000 := rfl
  have hv : clockUsec stop.toTimespec = stop.nsec / 1000 := rfl
  generalize clockUsec start.toTimespec = u at hu ⊢
  generalize clockUsec stop.toTimespec = v at hv ⊢
  have hnear := tdiv_near u v
  have hslack : 0 ≤ (if u ≤ v then 0 else 999 : Int) ∧ (if u ≤ v then 0 else 999 : Int) ≤ 999 := by
    split_ifs <;> decide
  generalize (if u ≤ v then 0 else 999 : Int) = slack at hnear hslack ⊢
  generalize hm : (stop.sec - start.sec) * 1000 + (v - u).tdiv 1000 = m
  constructor
  · rintro ⟨hlow, hhigh⟩
    exact ⟨m / 2 / 1000, by omega, by omega⟩
  · rintro ⟨periods, hpast, hshort⟩
    have hq : m / 2 / 1000 = periods := by omega
    omega

section Set

variable {build : Build} {flags : Flags} {start stop : Timespec} {serverTimeS : UInt32}

theorem serverTime_ok {time : Timespec} (h : serverTime start stop serverTimeS = .ok time) :
    time = clockInitTime (serverTimeS.toNat + rttMs start stop / 2 / 1000)
      (rttMs start stop / 2 % 1000) := by
  rw [serverTime] at h
  split_ifs at h
  exact (Except.ok.inj h).symm

theorem checkedTime_ok (hclock : flags.setclock = true) {time : Option Timespec}
    (h : checkedTime build flags start stop serverTimeS = .ok time) :
    ∃ t, time = some t ∧ serverTime start stop serverTimeS = .ok t ∧
      build.recentCompileDate < t.sec ∧ t.sec < maxReasonableTime := by
  rw [checkedTime, hclock] at h
  cases ht : serverTime start stop serverTimeS with
  | error e =>
      rw [ht] at h
      cases h
  | ok t =>
      rw [ht] at h
      simp only [bind, Except.bind, Bool.not_true, Bool.false_eq_true, if_false] at h
      split_ifs at h with hfuture hpast
      · exact ⟨t, (Except.ok.inj h).symm, rfl, Int.not_le.mp hpast, Int.not_le.mp hfuture⟩

theorem corrected_iff {start stop : Reading} {time : Timespec}
    (hle : 0 ≤ elapsedNs start.toTimespec stop.toTimespec)
    (ht : serverTime start.toTimespec stop.toTimespec serverTimeS = .ok time)
    (hsec : build.recentCompileDate < time.sec ∧ time.sec < maxReasonableTime) :
    Corrected build start.toTimespec stop.toTimespec serverTimeS time ↔
      WholePeriods start.toTimespec stop.toTimespec := by
  obtain rfl := serverTime_ok ht
  have hrange : 0 ≤ rttMs start.toTimespec stop.toTimespec / 2 % 1000 ∧
      rttMs start.toTimespec stop.toTimespec / 2 % 1000 < 10 ^ 9 := by omega
  have hiff := close_iff start.toTimespec stop.toTimespec (clockInitTime (serverTimeS.toNat +
    rttMs start.toTimespec stop.toTimespec / 2 / 1000)
      (rttMs start.toTimespec stop.toTimespec / 2 % 1000)) serverTimeS
  rw [clockInitTime, add_sub_cancel_left, wholePeriods_iff hle] at hiff
  exact ⟨fun h => hiff.mp h.close, fun h => ⟨hrange, hsec, hiff.mpr h⟩⟩

end Set

/-- What `main` sets the clock to, where it does not die, is the corrected time
just for the readings in this condition. -/
theorem main_corrects {build : Build} {flags : Flags} {world : World} {sets : List Timespec}
    {start stop : Reading} {serverTimeS : UInt32} (hclock : flags.setclock = true)
    (hstart : warp build flags world = (sets, .ok start)) (hchild : world.child = .ok serverTimeS)
    (hstop : world.stop = some stop) (hle : 0 ≤ elapsedNs start.toTimespec stop.toTimespec)
    (hrun : (main build flags world).2 = .ok ()) :
    ∃ time, (main build flags world).1 = sets ++ [time] ∧
      (Corrected build start.toTimespec stop.toTimespec serverTimeS time ↔
        WholePeriods start.toTimespec stop.toTimespec) := by
  simp only [main, hstart, hchild, hstop] at hrun ⊢
  cases hc : checkedTime build flags start.toTimespec stop.toTimespec serverTimeS with
  | error e =>
      rw [hc] at hrun
      cases hrun
  | ok time =>
      obtain ⟨t, rfl, ht, hsec⟩ := checkedTime_ok hclock hc
      exact ⟨t, rfl, corrected_iff hle ht hsec⟩

theorem nsec_zero : 0 ≤ (0 : Int) ∧ (0 : Int) < 10 ^ 9 := by decide

def wholeSecond (sec : Int) : Reading := ⟨⟨sec, 0⟩, nsec_zero⟩

/-- A server that answers with the time at which it is asked. -/
def answering (stop : Int) : World :=
  ⟨some (wholeSecond 1400000000), none, some (wholeSecond stop), fun _ => true, .ok 1400000000⟩

def setting : Flags := ⟨true, false⟩

theorem two_seconds_corrected :
    ∃ time, (main fallbackBuild setting (answering 1400000002)).1 = [] ++ [time] ∧
      Corrected fallbackBuild ⟨1400000000, 0⟩ ⟨1400000002, 0⟩ 1400000000 time := by
  obtain ⟨time, hset, hiff⟩ := @main_corrects fallbackBuild setting (answering 1400000002) _ _ _ _
    rfl rfl rfl rfl (by decide) rfl
  exact ⟨time, hset, hiff.mpr ⟨1, by decide, by decide⟩⟩

/-- Half of one second is set as 500 nanoseconds. -/
theorem one_second_lost :
    main fallbackBuild setting (answering 1400000001) = ([⟨1400000000, 500⟩], .ok ()) ∧
      ¬ Corrected fallbackBuild ⟨1400000000, 0⟩ ⟨1400000001, 0⟩ 1400000000 ⟨1400000000, 500⟩ := by
  refine ⟨rfl, fun h => ?_⟩
  have hclose := (close_iff _ _ _ _).mp h.close
  exact absurd hclose (by decide)

end Tlsdate.HelperClock
