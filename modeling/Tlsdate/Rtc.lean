import Tlsdate.LocalTime
import Tlsdate.SetterEffects

namespace Tlsdate.Rtc

open Calendar TimeSource Options LocalTime TimeSetter SetterEffects

structure RtcTime where
  sec : Int
  min : Int
  hour : Int
  mday : Int
  mon : Int
  year : Int
  wday : Int
  yday : Int
  isdst : Int
  deriving DecidableEq, Repr

structure Timeval where
  sec : Int
  usec : Int
  deriving DecidableEq, Repr

/-- The return value of `rtc_write`, and what RTC_SET_TIME has stored unless it
fails. None is a broken-down time that is NULL. -/
def rtcWrite (fails : Bool) (tv : Timeval) : Option (Int × Option RtcTime) :=
  (gmtimeR tv.sec).map fun tm =>
    let rtctm : RtcTime :=
      { sec := tm.sec
        min := tm.min
        hour := tm.hour
        mday := tm.mday
        mon := tm.mon
        year := tm.year
        wday := tm.wday
        yday := tm.yday
        isdst := tm.isdst }
    if fails then (1, none) else (0, some rtctm)

/-- `rtc_read`, given what RTC_RD_TIME returns unless it fails. -/
def rtcRead (mktime : Tm → Int) (answer : Option RtcTime) (tv : Timeval) : Int × Timeval :=
  match answer with
  | none => (1, tv)
  | some rtctm =>
      let tm : Tm :=
        { sec := rtctm.sec
          min := rtctm.min
          hour := rtctm.hour
          mday := rtctm.mday
          mon := rtctm.mon
          year := rtctm.year
          wday := rtctm.wday
          yday := rtctm.yday
          isdst := rtctm.isdst }
      (0, ⟨mktime tm, 0⟩)

def RoundTrip (mktime : Tm → Int) (s : Int) : Prop :=
  ∀ usec, ∃ rtctm, rtcWrite false ⟨s, usec⟩ = some (0, some rtctm) ∧
    ∀ tv, rtcRead mktime (some rtctm) tv = (0, ⟨s, 0⟩)

variable {build : Build} {s : Int}

theorem gmtimeR_sane (h : isSaneTime build s = true) : gmtimeR s = some (utcFields s) := by
  obtain ⟨hlow, hhigh⟩ := isSaneTime_iff.mp h
  have hepoch := build.epoch
  rw [tlsdatedMaxDate] at hhigh
  exact gmtimeR_eq (by omega) (by omega)

theorem roundTrip_iff (h : isSaneTime build s = true) (mktime : Tm → Int) :
    RoundTrip mktime s ↔ mktime (utcFields s) = s := by
  have hgm := gmtimeR_sane h
  constructor
  · intro hround
    obtain ⟨rtctm, hwrite, hread⟩ := hround 0
    rw [rtcWrite, hgm] at hwrite
    cases hwrite
    exact congrArg (fun r => r.2.sec) (hread ⟨0, 0⟩)
  · intro hs usec
    refine ⟨_, by rw [rtcWrite, hgm]; rfl, fun tv => ?_⟩
    exact congrArg (fun t => (0, Timeval.mk t 0)) hs

theorem shows_utcFields (zone : Zone) (s t : Int) :
    zone.Shows (utcFields s) t ↔ t + zone.standard t = s := by
  rw [Zone.shows_standard rfl, seconds_utcFields]

/-- The fields are written in UTC and read as the standard time of the zone, so
they come back exactly if that shows them at `s` and at no other time. Where
its offset never changes it has to be 0. -/
theorem rtc_round_trip (zone : Zone) (h : isSaneTime build s = true) :
    ((∀ clock : LocalClock zone, RoundTrip clock.mktime s) ↔
      ∀ t, t + zone.standard t = s ↔ t = s) ∧
    ∀ o, (∀ t, zone.standard t = o) → ∀ clock : LocalClock zone,
      (RoundTrip clock.mktime s ↔ o = 0) := by
  simp only [roundTrip_iff h]
  refine ⟨⟨fun hall t => ?_, fun hall clock => ?_⟩, fun o ho clock => ?_⟩
  · have honly : ∀ t, t + zone.standard t = s → t = s := fun t ht => by
      obtain ⟨clock, hc⟩ := exists_clock (Or.inl ((shows_utcFields zone s t).mpr ht))
      rw [← hc, hall clock]
    refine ⟨honly t, ?_⟩
    rintro rfl
    by_contra hno
    have hnone : ∀ t', ¬ zone.Shows (utcFields t) t' := fun t' ht' => by
      rw [shows_utcFields] at ht'
      obtain rfl := honly t' ht'
      exact hno ht'
    obtain ⟨clock, hc⟩ := exists_clock (t := t + 1) (Or.inr hnone)
    rw [hall clock] at hc
    omega
  · have hshows := clock.posix (utcFields s) ⟨s, (shows_utcFields zone s s).mpr ((hall s).mpr rfl)⟩
    rw [shows_utcFields] at hshows
    exact (hall _).mp hshows
  · have hshows := clock.posix (utcFields s) ⟨s - o, (shows_utcFields zone s (s - o)).mpr (by
      rw [ho]
      omega)⟩
    rw [shows_utcFields, ho] at hshows
    omega

theorem rtc_round_trip_cet :
    ((∀ clock : LocalClock (fixedZone 3600 3600), RoundTrip clock.mktime 1400000000) ↔
      ∀ t, t + (fixedZone 3600 3600).standard t = 1400000000 ↔ t = 1400000000) ∧
    ∀ o, (∀ t, (fixedZone 3600 3600).standard t = o) → ∀ clock : LocalClock (fixedZone 3600 3600),
      (RoundTrip clock.mktime 1400000000 ↔ o = 0) :=
  rtc_round_trip _ (show isSaneTime fallbackBuild 1400000000 = true by decide)

/-- One hour to the east of UTC a time comes back an hour early. -/
theorem rtc_shifted : isSaneTime fallbackBuild 1400000000 = true ∧
    (fixedClock 3600 3600).mktime (utcFields 1400000000) = 1399996400 ∧
    ¬ RoundTrip (fixedClock 3600 3600).mktime 1400000000 := by
  have hsane : isSaneTime fallbackBuild 1400000000 = true := by decide
  have hread : (fixedClock 3600 3600).mktime (utcFields 1400000000) = 1399996400 := by
    decide +kernel
  refine ⟨hsane, hread, fun hround => ?_⟩
  rw [roundTrip_iff hsane, hread] at hround
  omega

section Setter

variable {opts : Opts}

/-- The hardware clock is only written after the system clock, and like it. -/
def Follows (es : List Effect) : Prop := ∀ sec, Effect.rtcWrite sec ∈ es → sec ∈ clockCalls es

theorem Follows.append {es fs : List Effect} (hes : Follows es) (hfs : Follows fs) :
    Follows (es ++ fs) := by
  intro sec hsec
  rw [clockCalls_append]
  rcases List.mem_append.mp hsec with h | h
  · exact List.mem_append_left _ (hes sec h)
  · exact List.mem_append_right _ (hfs sec h)

theorem follows_applyTime (sys : SysCalls) (saveFd save : Bool) (sec : Int) :
    Follows (applyTime opts sys saveFd save sec).2 := by
  intro sec' h
  have hwritten : opts.dryRun = false ∧ sec' = sec := by
    simp only [applyTime] at h
    repeat' split at h
    all_goals simp_all
  rw [clockCalls_applyTime, hwritten.1, hwritten.2]
  exact List.mem_singleton_self sec

theorem follows_quiet {es : List Effect} (h : ∀ sec, Effect.rtcWrite sec ∉ es) : Follows es :=
  fun sec hsec => absurd hsec (h sec)

theorem follows_loopBody (sys : SysCalls) (status : Int) (saveFd : Bool) (r : TimeRead) :
    Follows (loopBody build opts sys status saveFd r).2 := by
  have hquit (st : Int) : Follows (notifyAndDie st).2 := follows_quiet (by simp [notifyAndDie])
  have htold (st : Int) : Follows [Effect.notify st] := follows_quiet (by simp)
  have hbody := @loopBody_iteration build opts sys status saveFd r
  generalize loopBody build opts sys status saveFd r = body at hbody ⊢
  cases hbody with
  | again => exact follows_quiet (by simp)
  | lost => exact hquit setterReadErr
  | ended => exact hquit setterExit
  | refused => exact htold status
  | @broken m st es hs happ =>
      have happly := @follows_applyTime opts sys saveFd (!decide (m < 0)) |m|
      rw [happ] at happly
      exact happly.append (hquit st)
  | @applied m st es hs happ =>
      have happly := @follows_applyTime opts sys saveFd (!decide (m < 0)) |m|
      rw [happ] at happly
      exact happly.append (htold st)

theorem follows_serve (c : Coprocess) (reads : List (TimeRead × SysCalls)) :
    Follows (serve build opts c reads).2 := by
  induction reads generalizing c with
  | nil => cases c <;> exact follows_quiet (by simp [serve])
  | cons r rest ih =>
      cases c with
      | exited => exact follows_quiet (by simp [serve])
      | waiting status saveFd => exact (follows_loopBody r.2 status saveFd r.1).append (ih _)

/-- Whatever the setter process is sent, the times that it writes to the
hardware clock have broken-down times, and are stored unless the device fails. -/
theorem setter_rtcWrite_stores (garbage : Int) (opened sandboxed : Bool)
    (reads : List (TimeRead × SysCalls)) {sec : Int}
    (h : Effect.rtcWrite sec ∈ (timeSetterCoprocess build opts garbage opened sandboxed reads).2)
    (usec : Int) : ∃ rtctm, rtcWrite false ⟨sec, usec⟩ = some (0, some rtctm) := by
  have hserved : Effect.rtcWrite sec ∈
      (serve build opts (start opts garbage opened sandboxed).1 reads).2 := by
    refine (List.mem_append.mp h).resolve_left fun hstart => ?_
    simp only [start] at hstart
    repeat' split at hstart
    all_goals simp_all [notifyAndDie]
  have hsane := (clockCalls_serve _ reads sec (follows_serve _ reads sec hserved)).1
  exact ⟨_, by rw [rtcWrite, gmtimeR_sane hsane]; rfl⟩

end Setter

end Tlsdate.Rtc
