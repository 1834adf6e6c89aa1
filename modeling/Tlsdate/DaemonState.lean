import Tlsdate.CInt
import Tlsdate.Options
import Mathlib.Logic.Function.Basic

namespace Tlsdate.DaemonState

open CInt TimeSource Options

inductive EventId
  | resolver
  | tlsdate
  | tlsdateStatus
  | tlsdateTimeout
  | save
  | sigchld
  | sigterm
  | steadystate
  | routeup
  deriving DecidableEq, Repr

/-- How an allocated event stands with libevent: not added, added without a
timeout on its descriptor or signal, or added with a timeout in seconds. An
event whose condition has occurred stays pending until its callback runs. -/
inductive Pending
  | idle
  | waiting
  | timer (sec : Int)
  deriving DecidableEq, Repr

/-- `struct state`. An entry of `events` is NULL for an event that was never
allocated, and a process id is 0 when there is no such process. `triggers` is
no field of the source: it keeps the arguments of all calls of `trigger_event`. -/
structure State where
  opts : Opts
  clockDelta : Int
  lastSyncType : SyncType
  lastTime : Int
  dynamicProxy : String
  events : EventId → Option Pending
  tlsdatePid : Nat
  setterPid : Nat
  backoff : Nat
  tries : Int
  resolving : Bool
  running : Bool
  exitting : Bool
  triggers : List (EventId × Int)

inductive SetTimeReply
  | ok
  | invalid
  | notAllowed
  | badCall
  deriving DecidableEq, Repr

/-- What a callback does outside the state: a word written to the setter, a
child and the arguments it executes (none when it dies before `execve`), a
signal, a D-Bus reply or signal. -/
inductive Output
  | message (t : Int)
  | launch (pid : Nat) (argv : Option (List String))
  | kill (pid : Nat)
  | setTimeReply (reply : SetTimeReply)
  | canSetTimeReply (allowed : Bool)
  | lastSyncInfoReply (netSynced : Bool) (sync : SyncType) (t : Int)
  | announce (sync : SyncType)
  | resolveRequest (url : String)
  deriving DecidableEq, Repr

/-- What becomes of the process: it stays in the event loop, it leaves a loop
that was broken for `cleanup_main`, or it ends, by `exit`, a fatal error or a
signal. -/
inductive Course
  | loops
  | breaks
  | ends
  deriving DecidableEq, Repr

structure Outcome where
  state : State
  outputs : List Output
  course : Course

def proceed (s : State) (out : List Output) : Outcome := ⟨s, out, .loops⟩

/-- Events that have no descriptor, for which an `event_add` without timeout
has no effect. -/
def timerOnly : EventId → Bool
  | .resolver | .tlsdate | .tlsdateTimeout | .steadystate => true
  | _ => false

def eventDel (s : State) (id : EventId) : State :=
  { s with events := Function.update s.events id ((s.events id).map fun _ => .idle) }

def eventAdd (id : EventId) (sec : Int) : Pending :=
  if sec ≥ 0 then .timer sec else if timerOnly id then .idle else .waiting

/-- `trigger_event` reschedules an event, and falls through to tlsdate if there
is no resolver. -/
def triggerEvent (s : State) (id : EventId) (sec : Int) : State :=
  let s := { s with triggers := s.triggers ++ [(id, sec)] }
  let id := if id = .resolver ∧ s.events .resolver = none then .tlsdate else id
  match s.events id with
  | none => s
  | some _ => { s with events := Function.update s.events id (some (eventAdd id sec)) }

def timerPending (s : State) (id : EventId) : Bool :=
  match s.events id with
  | some (.timer _) => true
  | _ => false

def scheduled (s : State) (id : EventId) : Bool :=
  match s.events id with
  | none | some .idle => false
  | _ => true

section Lemmas

variable (s : State) (id : EventId) (sec : Int)

@[simp] theorem eventDel_events (j : EventId) :
    (eventDel s id).events j = if j = id then (s.events id).map fun _ => .idle else s.events j := by
  simp [eventDel, Function.update_apply]

@[simp] theorem eventDel_opts : (eventDel s id).opts = s.opts := rfl

@[simp] theorem eventDel_clockDelta : (eventDel s id).clockDelta = s.clockDelta := rfl

@[simp] theorem eventDel_lastSyncType : (eventDel s id).lastSyncType = s.lastSyncType := rfl

@[simp] theorem eventDel_lastTime : (eventDel s id).lastTime = s.lastTime := rfl

@[simp] theorem eventDel_tries : (eventDel s id).tries = s.tries := rfl

@[simp] theorem eventDel_running : (eventDel s id).running = s.running := rfl

@[simp] theorem eventDel_exitting : (eventDel s id).exitting = s.exitting := rfl

@[simp] theorem eventDel_triggers : (eventDel s id).triggers = s.triggers := rfl

theorem triggerEvent_frame :
    ∃ events, triggerEvent s id sec = { s with events := events, triggers := s.triggers ++ [(id, sec)] } ∧
      ∀ j, (events j).isSome = (s.events j).isSome := by
  simp only [triggerEvent]
  split
  next => exact ⟨s.events, rfl, fun _ => rfl⟩
  next p hp =>
    refine ⟨_, rfl, fun j => ?_⟩
    by_cases hj : j = if id = .resolver ∧ s.events .resolver = none then .tlsdate else id
    · simp [hj, hp]
    · simp [hj]

theorem triggerEvent_events {id : EventId} (hid : id ≠ .resolver) (j : EventId) :
    (triggerEvent s id sec).events j =
      if j = id then (s.events id).map fun _ => eventAdd id sec else s.events j := by
  simp only [triggerEvent, hid, false_and, if_false]
  cases h : s.events id with
  | none => split <;> simp_all
  | some p => simp [Function.update_apply]

theorem triggerEvent_other {id j : EventId} (hj : j ≠ id) (ht : j ≠ .tlsdate) :
    (triggerEvent s id sec).events j = s.events j := by
  have hne : j ≠ if id = .resolver ∧ s.events .resolver = none then .tlsdate else id := by
    split
    next => exact ht
    next => exact hj
  simp only [triggerEvent]
  split
  next => rfl
  next => exact Function.update_of_ne hne _ _

@[simp] theorem triggerEvent_triggers :
    (triggerEvent s id sec).triggers = s.triggers ++ [(id, sec)] := by
  obtain ⟨_, h, _⟩ := triggerEvent_frame s id sec; rw [h]

@[simp] theorem triggerEvent_opts : (triggerEvent s id sec).opts = s.opts := by
  obtain ⟨_, h, _⟩ := triggerEvent_frame s id sec; rw [h]

@[simp] theorem triggerEvent_clockDelta : (triggerEvent s id sec).clockDelta = s.clockDelta := by
  obtain ⟨_, h, _⟩ := triggerEvent_frame s id sec; rw [h]

@[simp] theorem triggerEvent_lastSyncType :
    (triggerEvent s id sec).lastSyncType = s.lastSyncType := by
  obtain ⟨_, h, _⟩ := triggerEvent_frame s id sec; rw [h]

@[simp] theorem triggerEvent_lastTime : (triggerEvent s id sec).lastTime = s.lastTime := by
  obtain ⟨_, h, _⟩ := triggerEvent_frame s id sec; rw [h]

@[simp] theorem triggerEvent_backoff : (triggerEvent s id sec).backoff = s.backoff := by
  obtain ⟨_, h, _⟩ := triggerEvent_frame s id sec; rw [h]

@[simp] theorem triggerEvent_tries : (triggerEvent s id sec).tries = s.tries := by
  obtain ⟨_, h, _⟩ := triggerEvent_frame s id sec; rw [h]

@[simp] theorem triggerEvent_running : (triggerEvent s id sec).running = s.running := by
  obtain ⟨_, h, _⟩ := triggerEvent_frame s id sec; rw [h]

@[simp] theorem triggerEvent_dynamicProxy :
    (triggerEvent s id sec).dynamicProxy = s.dynamicProxy := by
  obtain ⟨_, h, _⟩ := triggerEvent_frame s id sec; rw [h]

@[simp] theorem triggerEvent_exitting : (triggerEvent s id sec).exitting = s.exitting := by
  obtain ⟨_, h, _⟩ := triggerEvent_frame s id sec; rw [h]

@[simp] theorem triggerEvent_isSome (j : EventId) :
    ((triggerEvent s id sec).events j).isSome = (s.events j).isSome := by
  obtain ⟨_, h, hj⟩ := triggerEvent_frame s id sec
  rw [h]
  exact hj j

end Lemmas

end Tlsdate.DaemonState
