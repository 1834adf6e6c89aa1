import Tlsdate.Options
import Tlsdate.TimestampFile
import Mathlib.Algebra.Order.Group.Unbundled.Abs

namespace Tlsdate.TimeSetter

open HostBytes TimeSource Options TimestampFile

inductive TimeRead
  | interrupted
  | failed
  | endOfPipe
  | short
  | whole (sec : Int)
  deriving DecidableEq, Repr

structure SysCalls where
  settimeofday : Bool
  rtcWrite : Bool
  fileWrite : Bool

def allSucceed : SysCalls := ⟨true, true, true⟩

/-- The calls that reach beyond the process, in the order in which it makes
them; the flags say whether the call succeeded. -/
inductive Effect
  | createFile
  | unlink
  | settimeofday (sec : Int) (ok : Bool)
  | rtcWrite (sec : Int)
  | fileWrite (sec : Int) (ok : Bool)
  | notify (status : Int)
  | exit (status : Int)
  deriving DecidableEq, Repr

/-- The coprocess between two reads. The variable `status` is declared outside
the loop and keeps its value from one iteration to the next; `saveFd` says
whether `save_fd` holds a descriptor. -/
inductive Coprocess
  | waiting (status : Int) (saveFd : Bool)
  | exited
  deriving DecidableEq, Repr

def notifyAndDie (status : Int) : Coprocess × List Effect :=
  (.exited, [.notify status, .exit status])

/-- Everything before the loop. Nothing assigns `status` on the way to the
loop, so that it enters with the value `garbage` that the stack held. -/
def start (opts : Opts) (garbage : Int) (opened sandboxed : Bool) : Coprocess × List Effect :=
  let wanted := opts.shouldSaveDisk && !opts.dryRun
  let created := if wanted then [Effect.createFile] else []
  if wanted && !opened then
    ((notifyAndDie setterNoSave).1, .unlink :: (notifyAndDie setterNoSave).2)
  else if !sandboxed then
    ((notifyAndDie setterNoSbox).1, created ++ (notifyAndDie setterNoSbox).2)
  else (.waiting garbage wanted, created)

/-- The branch for a sane time: the status it assigns last, or as an error the
one with which it jumps to `notify_and_die`. -/
def applyTime (opts : Opts) (sys : SysCalls) (saveFd save : Bool) (sec : Int) :
    Except Int Int × List Effect :=
  let rtc := if opts.shouldSyncHwclock then [Effect.rtcWrite sec] else []
  if opts.dryRun then (.ok setterTimeSet, [])
  else if !sys.settimeofday then (.error setterSetErr, [.settimeofday sec false])
  else if opts.shouldSyncHwclock && !sys.rtcWrite then
    (.error setterNoRtc, .settimeofday sec true :: rtc)
  else if save && saveFd then
    (if sys.fileWrite then .ok setterTimeSet else .error setterNoSave,
      .settimeofday sec true :: rtc ++ [.fileWrite sec sys.fileWrite])
  else (.ok setterTimeSet, .settimeofday sec true :: rtc)

/-- One iteration of the loop of `time_setter_coprocess`. The least `time_t`,
whose negation overflows, is not sane with either sign. -/
def loopBody (build : Build) (opts : Opts) (sys : SysCalls) (status : Int) (saveFd : Bool) :
    TimeRead → Coprocess × List Effect
  | .interrupted | .short => (.waiting status saveFd, [])
  | .failed | .endOfPipe => notifyAndDie setterReadErr
  | .whole m =>
      let save := !decide (m < 0)
      let sec := if m < 0 then -m else m
      if sec = 0 then notifyAndDie setterExit
      else if isSaneTime build sec then
        match applyTime opts sys saveFd save sec with
        | (.error st, es) => ((notifyAndDie st).1, es ++ (notifyAndDie st).2)
        | (.ok st, es) => (.waiting st saveFd, es ++ [.notify st])
      else (.waiting status saveFd, [.notify status])

/-- The loop over a sequence of reads; it ends early when the process exits
and otherwise blocks in the next read. -/
def serve (build : Build) (opts : Opts) :
    Coprocess → List (TimeRead × SysCalls) → Coprocess × List Effect
  | .exited, _ => (.exited, [])
  | .waiting status saveFd, [] => (.waiting status saveFd, [])
  | .waiting status saveFd, (r, sys) :: rest =>
      let body := loopBody build opts sys status saveFd r
      ((serve build opts body.1 rest).1, body.2 ++ (serve build opts body.1 rest).2)

def timeSetterCoprocess (build : Build) (opts : Opts) (garbage : Int) (opened sandboxed : Bool)
    (reads : List (TimeRead × SysCalls)) : Coprocess × List Effect :=
  let begun := start opts garbage opened sandboxed
  ((serve build opts begun.1 reads).1, begun.2 ++ (serve build opts begun.1 reads).2)

def notified : List Effect → List Int :=
  List.filterMap fun e => match e with | .notify st => some st | _ => none

def clockCalls : List Effect → List Int :=
  List.filterMap fun e => match e with | .settimeofday sec _ => some sec | _ => none

def Effect.onFile (order : ByteOrder) (file : File) : Effect → File
  | .createFile => create file
  | .unlink => none
  | .fileWrite sec true => some (pwrite (file.getD []) (saveTimestamp order sec))
  | _ => file

def fileAfter (order : ByteOrder) (file : File) (es : List Effect) : File :=
  es.foldl (Effect.onFile order) file

def wholeReads (msgs : List Int) : List (TimeRead × SysCalls) :=
  msgs.map fun m => (.whole m, allSucceed)

variable {build : Build} {opts : Opts}

theorem magnitude (m : Int) : (if m < 0 then -m else m) = |m| := by
  split
  next h => exact (abs_of_neg h).symm
  next h => exact (abs_of_nonneg (by omega)).symm

theorem notified_append (es fs : List Effect) : notified (es ++ fs) = notified es ++ notified fs :=
  List.filterMap_append

theorem clockCalls_append (es fs : List Effect) :
    clockCalls (es ++ fs) = clockCalls es ++ clockCalls fs :=
  List.filterMap_append

theorem fileAfter_append (order : ByteOrder) (file : File) (es fs : List Effect) :
    fileAfter order file (es ++ fs) = fileAfter order (fileAfter order file es) fs :=
  List.foldl_append

theorem start_ready (opts : Opts) (garbage : Int) :
    start opts garbage true true = (.waiting garbage (opts.shouldSaveDisk && !opts.dryRun),
      if opts.shouldSaveDisk && !opts.dryRun then [.createFile] else []) := by
  simp [start]

theorem serve_exited (reads : List (TimeRead × SysCalls)) :
    serve build opts .exited reads = (.exited, []) := by
  cases reads <;> rfl

theorem serve_append (c : Coprocess) (reads more : List (TimeRead × SysCalls)) :
    serve build opts c (reads ++ more) =
      ((serve build opts (serve build opts c reads).1 more).1,
        (serve build opts c reads).2 ++ (serve build opts (serve build opts c reads).1 more).2) := by
  induction reads generalizing c with
  | nil => cases c <;> simp [serve]
  | cons r rest ih =>
      cases c with
      | exited => simp [serve_exited]
      | waiting status saveFd =>
          obtain ⟨r, sys⟩ := r
          simp only [List.cons_append, serve, ih, List.append_assoc]

theorem loopBody_zero (sys : SysCalls) (status : Int) (saveFd : Bool) :
    loopBody build opts sys status saveFd (.whole 0) = notifyAndDie setterExit := by
  simp [loopBody]

theorem loopBody_insane (sys : SysCalls) (status : Int) (saveFd : Bool) {m : Int} (hm : m ≠ 0)
    (hs : isSaneTime build |m| = false) :
    loopBody build opts sys status saveFd (.whole m) = (.waiting status saveFd, [.notify status]) := by
  have hz : |m| ≠ 0 := abs_ne_zero.mpr hm
  simp [loopBody, magnitude, hz, hs]

theorem loopBody_sane (sys : SysCalls) (status : Int) (saveFd : Bool) {m : Int}
    (hs : isSaneTime build |m| = true) :
    loopBody build opts sys status saveFd (.whole m) =
      match applyTime opts sys saveFd (!decide (m < 0)) |m| with
      | (.error st, es) => ((notifyAndDie st).1, es ++ (notifyAndDie st).2)
      | (.ok st, es) => (.waiting st saveFd, es ++ [.notify st]) := by
  have hz : |m| ≠ 0 := (isSaneTime_pos hs).ne'
  simp [loopBody, magnitude, hz, hs]

/-- What one iteration comes to, by what it reads and how far it gets with that. -/
inductive Iteration (build : Build) (opts : Opts) (sys : SysCalls) (status : Int) (saveFd : Bool) :
    TimeRead → Coprocess × List Effect → Prop
  | again {r} (h : r = .interrupted ∨ r = .short) :
      Iteration build opts sys status saveFd r (.waiting status saveFd, [])
  | lost {r} (h : r = .failed ∨ r = .endOfPipe) :
      Iteration build opts sys status saveFd r (notifyAndDie setterReadErr)
  | ended : Iteration build opts sys status saveFd (.whole 0) (notifyAndDie setterExit)
  | refused {m} (hm : m ≠ 0) (hs : isSaneTime build |m| = false) :
      Iteration build opts sys status saveFd (.whole m) (.waiting status saveFd, [.notify status])
  | broken {m st es} (hs : isSaneTime build |m| = true)
      (happ : applyTime opts sys saveFd (!decide (m < 0)) |m| = (.error st, es)) :
      Iteration build opts sys status saveFd (.whole m) (.exited, es ++ (notifyAndDie st).2)
  | applied {m st es} (hs : isSaneTime build |m| = true)
      (happ : applyTime opts sys saveFd (!decide (m < 0)) |m| = (.ok st, es)) :
      Iteration build opts sys status saveFd (.whole m) (.waiting st saveFd, es ++ [.notify st])

theorem loopBody_iteration (sys : SysCalls) (status : Int) (saveFd : Bool) (r : TimeRead) :
    Iteration build opts sys status saveFd r (loopBody build opts sys status saveFd r) := by
  cases r with
  | interrupted => exact .again (Or.inl rfl)
  | short => exact .again (Or.inr rfl)
  | failed => exact .lost (Or.inl rfl)
  | endOfPipe => exact .lost (Or.inr rfl)
  | whole m =>
      by_cases hm : m = 0
      · rw [hm, loopBody_zero]
        exact .ended
      · cases hs : isSaneTime build |m| with
        | false =>
            rw [loopBody_insane sys status saveFd hm hs]
            exact .refused hm hs
        | true =>
            rw [loopBody_sane sys status saveFd hs]
            rcases happ : applyTime opts sys saveFd (!decide (m < 0)) |m| with ⟨st | st, es⟩
            · exact .broken hs happ
            · exact .applied hs happ

theorem applyTime_allSucceed (saveFd save : Bool) (sec : Int) :
    (applyTime opts allSucceed saveFd save sec).1 = .ok setterTimeSet := by
  simp only [applyTime, allSucceed, Bool.not_true, Bool.and_false, Bool.false_eq_true, if_false]
  split
  · rfl
  · split <;> rfl

end Tlsdate.TimeSetter
