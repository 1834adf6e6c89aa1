import Tlsdate.DaemonState

namespace Tlsdate.Kickoff

open CInt TimeSource Options DaemonState

def continuityInterval : Int := 60 * 60 * 4

def resolverTimeout : Int := 30

/-- What the clocks and the random source answer during one callback: the two
`clock_gettime` readings, which can fail, `time (NULL)` and the bytes that
RAND_bytes leaves in an `int`. A failure of RAND_bytes is fatal and ends the
run. -/
structure Readings where
  real : Option Int
  monotonic : Option Int
  now : Int
  random : BitVec 32

/-- The result of `check_continuity` and what it leaves in `*delta`. -/
def checkContinuity (r : Readings) (delta : Int) : Int × Int :=
  match r.real, r.monotonic with
  | some real, some monotonic =>
      let newDelta := real - monotonic
      if delta ≠ 0 ∧ (newDelta < delta - continuityInterval ∨ newDelta > delta + continuityInterval)
      then (1, newDelta)
      else (0, newDelta)
  | _, _ => (-1, delta)

def addJitter (base jitter : Int) (n : BitVec 32) : Int :=
  if jitter = 0 then base
  else toInt (base + (intAbs n.toInt).tmod (toInt (2 * jitter)) - jitter)

def invalidateTime (r : Readings) (s : State) : State :=
  { s with lastSyncType := .rtc, lastTime := r.now }

def desynced (r : Readings) (s : State) : Bool := decide ((checkContinuity r s.clockDelta).1 > 0)

def kickoffJitter (r : Readings) (s : State) : Int :=
  if desynced r s && s.clockDelta != 0 then addJitter 30 30 r.random else 0

def forgetJump (r : Readings) (s : State) : State :=
  if desynced r s then invalidateTime r { s with clockDelta := 0 } else s

def scheduleAttempt (jitter : Int) (s : State) : State :=
  if s.lastSyncType = .net then s
  else if s.tries > 0 then { s with tries := s.tries - 1 }
  else if timerPending s .tlsdate then s
  else if s.events .resolver = none then triggerEvent s .tlsdate jitter
  else triggerEvent (triggerEvent s .tlsdate (toInt (jitter + resolverTimeout))) .resolver jitter

def actionKickoffTimeSync (r : Readings) (s : State) : State :=
  scheduleAttempt (kickoffJitter r s) (forgetJump r s)

/-- `action_invalidate_time` has nothing to do when time is already invalid and
being acquired. -/
def acquiring (s : State) : Bool := s.lastSyncType == .rtc && timerPending s .tlsdate

def actionInvalidateTime (r : Readings) (s : State) : State :=
  if acquiring s then s else actionKickoffTimeSync r (invalidateTime r s)

theorem checkContinuity_desync {r : Readings} {delta : Int} (h : (checkContinuity r delta).1 > 0) :
    delta ≠ 0 := by
  rw [checkContinuity] at h
  split at h
  · dsimp only at h
    split at h
    next hd => exact hd.1
    next => simp at h
  · simp at h

theorem desynced_zero {r : Readings} {s : State} (h : s.clockDelta = 0) : desynced r s = false := by
  simp only [desynced, decide_eq_false_iff_not]
  exact fun hd => checkContinuity_desync hd h

theorem forgetJump_frame (r : Readings) (s : State) :
    forgetJump r s = s ∨
      forgetJump r s = { s with clockDelta := 0, lastSyncType := .rtc, lastTime := r.now } := by
  rw [forgetJump]
  split
  · exact Or.inr rfl
  · exact Or.inl rfl

/-- The jitter of a kickoff lies below a minute; it is negative, and then not
below -8, only for the random value that has no absolute value. -/
theorem addJitter_range (n : BitVec 32) : -8 ≤ addJitter 30 30 n ∧ addJitter 30 30 n < 60 ∧
    (n.toInt ≠ -2 ^ 31 → 0 ≤ addJitter 30 30 n) := by
  have hl : -2 ^ 31 ≤ n.toInt := by have h := BitVec.le_toInt n; omega
  have hu : n.toInt < 2 ^ 31 := by have h := @BitVec.toInt_lt 32 n; omega
  have h60 : toInt (2 * 30) = 60 := by decide
  have hlt : (intAbs n.toInt).tmod 60 < 60 := Int.tmod_lt_of_pos _ (by decide)
  have hge : n.toInt ≠ -2 ^ 31 → 0 ≤ (intAbs n.toInt).tmod 60 := fun hn =>
    Int.tmod_nonneg 60 (intAbs_nonneg (by omega) hu)
  have hmod : -8 ≤ (intAbs n.toInt).tmod 60 := by
    by_cases hn : n.toInt = -2 ^ 31
    · rw [hn]
      decide
    · have := hge hn
      omega
  have heq : addJitter 30 30 n = (intAbs n.toInt).tmod 60 := by
    rw [addJitter, if_neg (by decide), h60, toInt_of_range] <;> omega
  rw [heq]
  exact ⟨hmod, hlt, hge⟩

end Tlsdate.Kickoff
