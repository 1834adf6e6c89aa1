import Tlsdate.Attempts
import Tlsdate.DBusService
import Tlsdate.Machine
import Tlsdate.ProxyResolver
import Tlsdate.Saving
import Tlsdate.TimestampFile

namespace Tlsdate.EventLoop

open HostBytes TimeSource Options DaemonState Kickoff Monitor Attempts Saving DBusService
  ProxyResolver TimestampFile

structure Daemon where
  state : State
  platform : Platform
  course : Course

def Daemon.exited (d : Daemon) : Bool := d.course != .loops

/-- How a new route shows: a netlink datagram, which may report none, or a byte
on the standard input, whose read can fail. -/
inductive RouteCue
  | netlink (changed : Bool)
  | stdin (received : Bool)
  deriving DecidableEq, Repr

inductive Event
  | continuity (r : Readings)
  | routeUp (cue : RouteCue) (r : Readings)
  | invalidate (r : Readings)
  | runTlsdate (fork : Option Nat)
  | tlsdateStatus (read : MonitorRead)
  | tlsdateTimeout
  | sigchld (waits : List Wait)
  | sigterm (now : Option Int)
  | save (readable : Bool) (write shutdown : WriteResult)
  | timeSet (read : NotifyRead) (r : Readings)
  | service (call : ServiceCall) (r : Readings)
  | resolveProxy (send : Option Nat)
  | bus (msg : BusMessage) (r : Readings)

/-- An event that is not persistent is removed when its callback runs. -/
def fire (s : State) (id : EventId) : Option State :=
  if scheduled s id then some (eventDel s id) else none

def actionRouteUp (r : Readings) : RouteCue → State → State
  | .netlink true, s | .stdin true, s => actionKickoffTimeSync r s
  | .netlink false, s => s
  | .stdin false, s => eventDel s .routeup

def validFork (s : State) : Option Nat → Bool
  | none => true
  | some pid => pid != 0 && pid != s.setterPid

def validWait : Wait → Bool
  | .died pid _ | .stopped pid _ => pid != 0

/-- A child that the daemon is not permitted to kill is its last. -/
def validWaits : List Wait → Bool
  | [] => true
  | w :: ws => validWait w && (!refused w || ws.isEmpty) && validWaits ws

theorem validWaits_cons {w : Wait} {ws : List Wait} : validWaits (w :: ws) = true ↔
    validWait w = true ∧ (refused w = true → ws = []) ∧ validWaits ws = true := by
  rw [validWaits, Bool.and_eq_true, Bool.and_eq_true, and_assoc]
  cases refused w <;> simp

theorem validWaits_mem {ws : List Wait} (h : validWaits ws = true) : ∀ w ∈ ws, validWait w = true := by
  induction ws with
  | nil => exact fun w hm => nomatch hm
  | cons w ws ih =>
      obtain ⟨hw, -, hws⟩ := validWaits_cons.mp h
      exact List.forall_mem_cons.mpr ⟨hw, ih hws⟩

def callback (build : Build) (s : State) : Event → Option Outcome
  | .continuity r => some (proceed (actionKickoffTimeSync r s) [])
  | .routeUp cue r =>
      if scheduled s .routeup then some (proceed (actionRouteUp r cue s) []) else none
  | .invalidate r =>
      if scheduled s .steadystate then some (proceed (actionInvalidateTime r s) []) else none
  | .runTlsdate fork =>
      if validFork s fork then
        (fire s .tlsdate).map fun s =>
          proceed (actionRunTlsdate fork s).1 (actionRunTlsdate fork s).2
      else none
  | .tlsdateStatus read =>
      (fire s .tlsdateStatus).map fun s => proceed (actionTlsdateStatus build read s) []
  | .tlsdateTimeout => (fire s .tlsdateTimeout).map fun s => proceed s (actionTlsdateTimeout s)
  | .sigchld waits => if validWaits waits then some (actionSigchld waits s) else none
  | .sigterm now => if s.opts.shouldSaveDisk then some (actionSigterm now s) else none
  | .save readable write shutdown =>
      (fire s .save).map fun s => actionSyncAndSave readable write shutdown s
  | .timeSet read r => some (actionTimeSet r read s)
  | .service call r =>
      if s.opts.shouldDbus then
        some (proceed (serviceDispatch build r call s).1 (serviceDispatch build r call s).2)
      else none
  | .resolveProxy _ | .bus _ _ => none

def platformCallback (d : Daemon) : Event → Option (Daemon × List Output)
  | .resolveProxy send =>
      (fire d.state .resolver).map fun s =>
        let resolved := actionResolveProxy send s d.platform
        (⟨resolved.1, resolved.2.1, .loops⟩, resolved.2.2)
  | .bus msg r =>
      if d.state.events .resolver = none then none
      else
        let filtered := dbusFilter r msg d.state d.platform
        some (⟨filtered.1, filtered.2.1, filtered.2.2⟩, [])
  | _ => none

def step (build : Build) : Machine.Step Daemon Event Output := fun d e =>
  if d.exited then none
  else
    match callback build d.state e with
    | some o => some (⟨o.state, d.platform, o.course⟩, o.outputs)
    | none => platformCallback d e

/-- The choice of `main` between the system time, the disk and the build date. -/
def initialTime (build : Build) (order : ByteOrder) (opts : Opts) (now : Int) (file : File) :
    SyncType × Int :=
  let fromDisk :=
    if opts.shouldLoadDisk then
      let loaded := loadDiskTimestamp build order file now
      if loaded.1 = 0 ∧ (¬ isSaneTime build now ∨ now < loaded.2) then (SyncType.disk, loaded.2)
      else (.rtc, now)
    else (.rtc, now)
  if isSaneTime build fromDisk.2 then fromDisk else (.build, build.recentCompileDate + 1)

def initialEvents : EventId → Option Pending
  | .resolver | .sigterm | .steadystate | .routeup => none
  | .sigchld => some .waiting
  | .tlsdate | .tlsdateStatus | .tlsdateTimeout | .save => some .idle

def savedStart (build : Build) (order : ByteOrder) (opts : Opts) (setterPid : Nat) (now : Int)
    (file : File) : State :=
  let chosen := initialTime build order opts now file
  triggerEvent
    { opts := opts
      clockDelta := 0
      lastSyncType := chosen.1
      lastTime := chosen.2
      dynamicProxy := ""
      events := initialEvents
      tlsdatePid := 0
      setterPid := setterPid
      backoff := CInt.toUInt opts.waitBetweenTries
      tries := 0
      resolving := false
      running := false
      exitting := false
      triggers := [] } .save (-1)

/-- The steady-state timer is added with its interval also where that is negative; it is
due at once then. -/
def setupWakes (n : BitVec 32) (s : State) : State :=
  let interval := addJitter s.opts.steadyStateInterval s.opts.jitter n
  let routes := Function.update s.events .routeup (some .waiting)
  { s with events := Function.update routes .steadystate (some (.timer interval)) }

/-- `main` from the configuration it has read to the event loop; `platform`
says whether it is built with the resolver, `n` is the random value of the
steady-state jitter. Reading a configuration leaves `cur_source` at NULL. None
is a fatal error. -/
def startup (build : Build) (order : ByteOrder) (opts : Opts) (platform : Bool) (setterPid : Nat)
    (now : Int) (file : File) (n : BitVec 32) (r : Readings) : Option Daemon :=
  if ¬ checkConf opts then none
  else
    let opts := { withDefaultSource opts with curSource := [] }
    let s := savedStart build order opts setterPid now file
    let begun := if platform then platformInitCros s else some (s, ⟨[], 0⟩)
    begun.map fun p => ⟨actionKickoffTimeSync r (setupWakes n p.1), p.2, .loops⟩

def steadyReadings (boot uptime : Int) : Readings := ⟨some (boot + uptime), some uptime, boot + uptime, 0⟩

abbrev plainStart (opts : Opts) : Option Daemon :=
  startup fallbackBuild .little opts false 100 1400000000 none 0 (steadyReadings 1400000000 60)

abbrev defaultStart : Option Daemon := plainStart (setConfDefaults fallbackBuild)

def newTime : BitVec 32 := 1400000100

def uptime70 : Readings := steadyReadings 1400000000 70

theorem defaultStart_some : ∃ d, defaultStart = some d := ⟨_, rfl⟩

@[simp] theorem exited_false {d : Daemon} : d.exited = false ↔ d.course = .loops := by
  simp [Daemon.exited]

structure Fresh (build : Build) (s : State) : Prop where
  clockDelta : s.clockDelta = 0
  lastTime : isSaneTime build s.lastTime = true
  lastSyncType : s.lastSyncType ≠ .net
  tries : s.tries = 0
  curSource : s.opts.curSource = []
  exitting : s.exitting = false
  tlsdate : (s.events .tlsdate).isSome = true
  tlsdateStatus : s.events .tlsdateStatus = some .idle
  save : s.events .save = some .waiting
  triggers : s.triggers = [(.save, -1)]

theorem initialTime_ne_net (build : Build) (order : ByteOrder) (opts : Opts) (now : Int)
    (file : File) : (initialTime build order opts now file).1 ≠ .net := by
  simp only [initialTime]
  repeat' split
  all_goals simp

theorem initialTime_sane (build : Build) (order : ByteOrder) (opts : Opts) (now : Int)
    (file : File) : isSaneTime build (initialTime build order opts now file).2 = true := by
  have hchosen : ∀ p : SyncType × Int, isSaneTime build
      (if isSaneTime build p.2 then p else (.build, build.recentCompileDate + 1)).2 = true := by
    intro p
    split
    next h => exact h
    next => exact isSaneTime_iff.mpr ⟨by simp, build.current⟩
  exact hchosen _

theorem savedStart_fresh {build : Build} {order : ByteOrder} {opts : Opts} {setterPid : Nat}
    {now : Int} {file : File} (h : opts.curSource = []) :
    Fresh build (savedStart build order opts setterPid now file) := by
  refine ⟨by simp [savedStart], ?_, ?_, by simp [savedStart], by simpa [savedStart] using h,
    by simp [savedStart], by simp [savedStart, initialEvents], ?_, ?_, by simp [savedStart]⟩
  · simpa [savedStart] using initialTime_sane build order opts now file
  · simpa [savedStart] using initialTime_ne_net build order opts now file
  · simp [savedStart, triggerEvent_events, initialEvents]
  · simp [savedStart, triggerEvent_events, initialEvents, eventAdd, timerOnly]

theorem platformInitCros_fresh {build : Build} {s s' : State} {ctx : Platform} (h : Fresh build s)
    (hp : platformInitCros s = some (s', ctx)) : Fresh build s' := by
  simp only [platformInitCros] at hp
  split at hp
  next => cases hp
  next =>
    simp only [Option.some.injEq, Prod.mk.injEq] at hp
    obtain ⟨rfl, -⟩ := hp
    exact ⟨h.clockDelta, h.lastTime, h.lastSyncType, h.tries, h.curSource, h.exitting,
      by simpa using h.tlsdate, by simpa using h.tlsdateStatus, by simpa using h.save, h.triggers⟩

theorem startup_fresh {build : Build} {order : ByteOrder} {opts : Opts} {platform : Bool}
    {setterPid : Nat} {now : Int} {file : File} {n : BitVec 32} {r : Readings} {d : Daemon}
    (h : startup build order opts platform setterPid now file n r = some d) :
    ∃ s, Fresh build s ∧ d.state = actionKickoffTimeSync r s := by
  simp only [startup] at h
  split at h
  next => cases h
  next =>
    obtain ⟨⟨s, ctx⟩, hs, rfl⟩ := Option.map_eq_some_iff.mp h
    refine ⟨setupWakes n s, ?_, rfl⟩
    have hsaved := @savedStart_fresh build order
      { withDefaultSource opts with curSource := [] } setterPid now file rfl
    have hbegun : Fresh build s := by
      split at hs
      next => exact platformInitCros_fresh hsaved hs
      next =>
        simp only [Option.some.injEq, Prod.mk.injEq] at hs
        obtain ⟨rfl, -⟩ := hs
        exact hsaved
    exact ⟨hbegun.clockDelta, hbegun.lastTime, hbegun.lastSyncType, hbegun.tries, hbegun.curSource,
      hbegun.exitting, by simpa [setupWakes] using hbegun.tlsdate,
      by simpa [setupWakes] using hbegun.tlsdateStatus, by simpa [setupWakes] using hbegun.save,
      hbegun.triggers⟩

/-- What one callback can do to the state: the functions it runs on the state
that libevent leaves, and their outputs. -/
inductive Moved (build : Build) (s : State) (ctx : Platform) : Event → State → List Output → Prop
  | continuity (r) : Moved build s ctx (.continuity r) (actionKickoffTimeSync r s) []
  | routeUp (cue r) (h : scheduled s .routeup = true) :
      Moved build s ctx (.routeUp cue r) (actionRouteUp r cue s) []
  | invalidate (r) (h : scheduled s .steadystate = true) :
      Moved build s ctx (.invalidate r) (actionInvalidateTime r s) []
  | runTlsdate (fork) (h : scheduled s .tlsdate = true) (hf : validFork s fork = true) :
      Moved build s ctx (.runTlsdate fork) (actionRunTlsdate fork (eventDel s .tlsdate)).1
        (actionRunTlsdate fork (eventDel s .tlsdate)).2
  | tlsdateStatus (read) (h : scheduled s .tlsdateStatus = true) :
      Moved build s ctx (.tlsdateStatus read)
        (actionTlsdateStatus build read (eventDel s .tlsdateStatus)) []
  | tlsdateTimeout (h : scheduled s .tlsdateTimeout = true) :
      Moved build s ctx .tlsdateTimeout (eventDel s .tlsdateTimeout)
        (actionTlsdateTimeout (eventDel s .tlsdateTimeout))
  | sigchld (waits) (h : validWaits waits = true) : Moved build s ctx (.sigchld waits)
      (actionSigchld waits s).state (actionSigchld waits s).outputs
  | sigterm (now) (h : s.opts.shouldSaveDisk = true) :
      Moved build s ctx (.sigterm now) (actionSigterm now s).state (actionSigterm now s).outputs
  | save (readable write shutdown) (h : scheduled s .save = true) :
      Moved build s ctx (.save readable write shutdown)
        (actionSyncAndSave readable write shutdown (eventDel s .save)).state
        (actionSyncAndSave readable write shutdown (eventDel s .save)).outputs
  | timeSet (read r) : Moved build s ctx (.timeSet read r) (actionTimeSet r read s).state
      (actionTimeSet r read s).outputs
  | service (call r) (h : s.opts.shouldDbus = true) : Moved build s ctx (.service call r)
      (serviceDispatch build r call s).1 (serviceDispatch build r call s).2
  | resolveProxy (send) (h : scheduled s .resolver = true) : Moved build s ctx (.resolveProxy send)
      (actionResolveProxy send (eventDel s .resolver) ctx).1
      (actionResolveProxy send (eventDel s .resolver) ctx).2.2
  | bus (msg r) (h : s.events .resolver ≠ none) :
      Moved build s ctx (.bus msg r) (dbusFilter r msg s ctx).1 []

theorem fire_some {s s' : State} {id : EventId} (h : fire s id = some s') :
    scheduled s id = true ∧ s' = eventDel s id := by
  rw [fire] at h
  split at h
  next hs => exact ⟨hs, (Option.some.inj h).symm⟩
  next => cases h

theorem step_moved {build : Build} {d d' : Daemon} {e : Event} {out : List Output}
    (h : step build d e = some (d', out)) :
    d.exited = false ∧ Moved build d.state d.platform e d'.state out := by
  rw [step] at h
  split at h
  next => cases h
  next hex =>
    refine ⟨by simpa using hex, ?_⟩
    split at h
    next o ho =>
      simp only [Option.some.injEq, Prod.mk.injEq] at h
      obtain ⟨rfl, rfl⟩ := h
      cases e with
      | continuity r => cases ho; exact .continuity r
      | routeUp cue r =>
          simp only [callback] at ho
          split at ho
          next hs => cases ho; exact .routeUp cue r hs
          next => cases ho
      | invalidate r =>
          simp only [callback] at ho
          split at ho
          next hs => cases ho; exact .invalidate r hs
          next => cases ho
      | runTlsdate fork =>
          simp only [callback] at ho
          split at ho
          next hf =>
            obtain ⟨s, hs, rfl⟩ := Option.map_eq_some_iff.mp ho
            obtain ⟨hsch, rfl⟩ := fire_some hs
            exact .runTlsdate fork hsch hf
          next => cases ho
      | tlsdateStatus read =>
          obtain ⟨s, hs, rfl⟩ := Option.map_eq_some_iff.mp ho
          obtain ⟨hsch, rfl⟩ := fire_some hs
          exact .tlsdateStatus read hsch
      | tlsdateTimeout =>
          obtain ⟨s, hs, rfl⟩ := Option.map_eq_some_iff.mp ho
          obtain ⟨hsch, rfl⟩ := fire_some hs
          exact .tlsdateTimeout hsch
      | sigchld waits =>
          simp only [callback] at ho
          split at ho
          next hw => cases ho; exact .sigchld waits hw
          next => cases ho
      | sigterm now =>
          simp only [callback] at ho
          split at ho
          next hs => cases ho; exact .sigterm now hs
          next => cases ho
      | save readable write shutdown =>
          obtain ⟨s, hs, rfl⟩ := Option.map_eq_some_iff.mp ho
          obtain ⟨hsch, rfl⟩ := fire_some hs
          exact .save readable write shutdown hsch
      | timeSet read r => cases ho; exact .timeSet read r
      | service call r =>
          simp only [callback] at ho
          split at ho
          next hs => cases ho; exact .service call r hs
          next => cases ho
      | resolveProxy | bus => cases ho
    next =>
      cases e with
      | resolveProxy send =>
          simp only [platformCallback] at h
          obtain ⟨s, hs, he⟩ := Option.map_eq_some_iff.mp h
          obtain ⟨hsch, rfl⟩ := fire_some hs
          simp only [Prod.mk.injEq] at he
          obtain ⟨rfl, rfl⟩ := he
          exact .resolveProxy send hsch
      | bus msg r =>
          simp only [platformCallback] at h
          split at h
          next => cases h
          next hr =>
            simp only [Option.some.injEq, Prod.mk.injEq] at h
            obtain ⟨rfl, rfl⟩ := h
            exact .bus msg r hr
      | _ => cases h

end Tlsdate.EventLoop
