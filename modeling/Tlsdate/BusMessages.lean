import Tlsdate.PacAgreement
import Tlsdate.SourceRotation
import Mathlib.Data.List.Forall2

namespace Tlsdate.BusMessages

open TimeSource HostBytes TimestampFile Options DaemonState Kickoff Monitor Attempts Saving
  DBusService ProxyResolver PacProxy EventLoop SourceRotation
open ProxyBio (CString ascii)

inductive Arg
  | string (s : CString)
  | objectPath (s : CString)
  | int64 (n : BitVec 64)
  | variant (arg : Arg)
  | other

inductive MessageType
  | methodCall
  | methodReturn
  | error
  | signal
  deriving DecidableEq, Repr

/-- `DBusMessage`, with what the daemon asks of it. A header field that the
message does not have is NULL, and the serial that it replies to is then 0. -/
structure Message where
  type : MessageType
  path : Option String
  interface : Option String
  member : Option String
  errorName : Option String
  replySerial : BitVec 32
  args : List Arg

def Message.isSignal (msg : Message) (interface member : String) : Bool :=
  msg.type == .signal && msg.interface == some interface && msg.member == some member

def kLibCrosDest : String := "org.chromium.LibCrosService"
def kDBusInterface : String := "org.freedesktop.DBus"
def kNameOwnerChanged : String := "NameOwnerChanged"
def kNameAcquired : String := "NameAcquired"
def kManagerInterface : String := "org.chromium.flimflam.Manager"
def kServiceInterface : String := "org.chromium.flimflam.Service"
def kMember : String := "PropertyChanged"
def kProxyConfig : String := "ProxyConfig"
def kDefaultService : String := "DefaultService"
def kResolveInterface : String := "org.torproject.tlsdate.Resolver"
def kResolveMember : String := "ProxyChange"
def kPowerManagerInterface : String := "org.chromium.PowerManager"
def kSuspendDone : String := "SuspendDone"
def kErrorServiceUnknown : String := "org.freedesktop.DBus.Error.ServiceUnknown"

section Filter

/-- Shill emits string:ProxyConfig variant string:"..." -/
def handleServiceChange (r : Readings) (msg : Message) (s : State) : State :=
  match msg.path, msg.args with
  | some _, .string pname :: .variant (.string _) :: _ =>
      if pname.1 = ascii kProxyConfig then actionKickoffTimeSync r s else s
  | _, _ => s

def handleManagerChange (r : Readings) (msg : Message) (s : State) : State :=
  match msg.args with
  | .string pname :: .variant (.objectPath _) :: _ =>
      if pname.1 = ascii kDefaultService then actionKickoffTimeSync r s else s
  | _ => s

def handleSuspendDone (r : Readings) (s : State) : State := actionKickoffTimeSync r s

def handleDbusChange (r : Readings) (msg : Message) (s : State) : State :=
  match msg.args with
  | .string pname :: _ => if pname.1 = ascii kLibCrosDest then actionKickoffTimeSync r s else s
  | _ => s

/-- `handle_proxy_change` on the message itself; none is an overrun of the
buffer for the host and port of the proxy. -/
def handleProxyChange (msg : Message) (s : State) : Option State :=
  match predictedSource s.opts with
  | none => some s
  | some src =>
      if !s.resolving then some s
      else
        match msg.args with
        | .string pname :: rest =>
            if (text pname.1).toList ≠ (timeHost src).toList.take (maxProxyUrl - 1) then some s
            else
              match rest with
              | .string pval :: _ => (canonicalizePac pval.1 maxProxyUrl).map fun url =>
                  triggerEvent { s with resolving := false, dynamicProxy := text url } .tlsdate 1
              | _ => some s
        | _ => some s

def dbusFilter (r : Readings) (msg : Message) (d : Daemon) : Option (Daemon × Bool) :=
  let handled (s : State) : Option (Daemon × Bool) := some ({ d with state := s }, true)
  -- terminate gracefully if DBus goes away
  if msg.isSignal "org.freedesktop.DBus.Local" "Disconnected" then
    some ({ d with course := .ends }, true)
  -- hand it over to the service dispatcher
  else if msg.type = .methodCall then some (d, false)
  else if msg.isSignal kDBusInterface kNameAcquired then some (d, true)
  else if msg.isSignal kServiceInterface kMember then handled (handleServiceChange r msg d.state)
  else if msg.isSignal kManagerInterface kMember then handled (handleManagerChange r msg d.state)
  else if msg.isSignal kResolveInterface kResolveMember then
    (handleProxyChange msg d.state).bind handled
  else if msg.isSignal kDBusInterface kNameOwnerChanged then
    handled (handleDbusChange r msg d.state)
  else if msg.isSignal kPowerManagerInterface kSuspendDone then handled (handleSuspendDone r d.state)
  else if msg.type = .error ∧ msg.errorName = some kErrorServiceUnknown then
    -- fire off tlsdate rather than letting it fail silently
    some ({ d with
      state := triggerEvent { d.state with resolving := false } .tlsdate 1
      platform := { d.platform with serial := 0 } }, true)
  else if msg.type = .methodReturn ∧ msg.replySerial.toNat = d.platform.serial then
    some ({ d with platform := { d.platform with serial := 0 } }, true)
  else some (d, false)

end Filter

section Service

def serviceInterface : String := "org.torproject.tlsdate"
def servicePath : String := "/org/torproject/tlsdate"

/-- Expects DBUS_TYPE_INT64:<time_t> -/
def requestedTime : List Arg → Option Int
  | .int64 n :: _ => some n.toInt
  | _ => none

def serviceDispatch (build : Build) (r : Readings) (msg : Message) (s : State) :
    State × List Output :=
  if msg.type ≠ .methodCall then (s, [])
  else
    match msg.interface, msg.member with
    | some interface, some method =>
        if interface ≠ serviceInterface then (s, [])
        else if method = "SetTime" then handleSetTime build r (requestedTime msg.args) s
        else if method = "CanSetTime" then handleCanSetTime r s
        else if method = "LastSyncInfo" then (s, handleLastSyncInfo s)
        else (s, [])
    | _, _ => (s, [])

end Service

/-- How libdbus dispatches a message: to the filter, where the platform has
added one, and what is not handled there to the handler of its object path. -/
def dispatch (build : Build) (r : Readings) (msg : Message) (d : Daemon) :
    Option (Daemon × List Output) :=
  let filtered := if d.state.events .resolver = none then some (d, false) else dbusFilter r msg d
  filtered.map fun f =>
    if f.2 = false ∧ msg.path = some servicePath then
      let served := serviceDispatch build r msg f.1.state
      ({ f.1 with state := served.1 }, served.2)
    else (f.1, [])

/-- The callbacks of the event loop, where those of D-Bus are given the message. -/
inductive RawEvent
  | loop (e : Event)
  | message (msg : Message) (r : Readings)

def rawStep (build : Build) : Machine.Step Daemon RawEvent Output
  | _, .loop (.service _ _) | _, .loop (.bus _ _) => none
  | d, .loop e => step build d e
  | d, .message msg r =>
      if d.exited || !d.state.opts.shouldDbus then none else dispatch build r msg d

section Example

def dynamicOpts : Opts :=
  { setConfDefaults fallbackBuild with sources := [⟨"h", "443", some (.text "dynamic"), 0⟩] }

abbrev dynamicStart : Option Daemon :=
  startup fallbackBuild .little dynamicOpts true 100 1400000000 none 0 (steadyReadings 1400000000 60)

def answerSocks : Message where
  type := .signal
  path := none
  interface := some kResolveInterface
  member := some kResolveMember
  errorName := none
  replySerial := 0
  args := [.string ⟨ascii "https://h:443", by decide⟩, .string ⟨ascii "SOCKS5 a:9", by decide⟩]

def lookup : List RawEvent :=
  [.loop (.resolveProxy (some 7)), .message answerSocks uptime70, .loop (.runTlsdate (some 200))]

theorem lookup_run : ∃ d₀ d out, dynamicStart = some d₀ ∧
    Machine.Run (rawStep fallbackBuild) Machine.Free d₀ lookup d out ∧
    some [fallbackBuild.tlsdate, "-H", "google.com", "-H", "h", "-p", "443", "-x", "socks5://a:9",
      "-Vraw", "-n"] ∈ launches out := by
  have hrun : ∃ d₀ d out, dynamicStart = some d₀ ∧
      Machine.exec (rawStep fallbackBuild) d₀ lookup = some (d, out) ∧
      some [fallbackBuild.tlsdate, "-H", "google.com", "-H", "h", "-p", "443", "-x",
        "socks5://a:9", "-Vraw", "-n"] ∈ launches out := ⟨_, _, _, rfl, rfl, by decide⟩
  obtain ⟨d₀, d, out, h₀, hx, hmem⟩ := hrun
  exact ⟨d₀, d, out, h₀, .of_exec hx, hmem⟩

end Example

section Refinement

inductive Wakes (msg : Message) : Prop
  | service (path pname pval rest) (h : msg.isSignal kServiceInterface kMember = true)
      (hpath : msg.path = some path) (hargs : msg.args = .string pname :: .variant (.string pval) :: rest)
      (hname : pname.1 = ascii kProxyConfig)
  | manager (pname pval rest) (h : msg.isSignal kManagerInterface kMember = true)
      (hargs : msg.args = .string pname :: .variant (.objectPath pval) :: rest)
      (hname : pname.1 = ascii kDefaultService)
  | owner (pname rest) (h : msg.isSignal kDBusInterface kNameOwnerChanged = true)
      (hargs : msg.args = .string pname :: rest) (hname : pname.1 = ascii kLibCrosDest)
  | resume (h : msg.isSignal kPowerManagerInterface kSuspendDone = true)

def Answers (msg : Message) (url pac : CString) : Prop :=
  msg.isSignal kResolveInterface kResolveMember = true ∧
    ∃ rest, msg.args = .string url :: .string pac :: rest

inductive Calls (msg : Message) : ServiceCall → Prop
  | setTime (h : msg.member = some "SetTime") : Calls msg (.setTime (requestedTime msg.args))
  | canSetTime (h : msg.member = some "CanSetTime") : Calls msg .canSetTime
  | lastSyncInfo (h : msg.member = some "LastSyncInfo") : Calls msg .lastSyncInfo

structure Reaches (msg : Message) : Prop where
  type : msg.type = .methodCall
  path : msg.path = some servicePath
  interface : msg.interface = some serviceInterface

/-- What the event loop makes of a message; an unknown call does nothing, and that is also
all that comes of any other message. -/
inductive Views : RawEvent → Event → Prop
  | loop (e) : Views (.loop e) e
  | disconnected {msg : Message} (r) (h : msg.isSignal "org.freedesktop.DBus.Local" "Disconnected" = true) :
      Views (.message msg r) (.bus .disconnected r)
  | wake {msg : Message} (r) (h : Wakes msg) : Views (.message msg r) (.bus .wake r)
  | resolved {msg : Message} {url pac : CString} {proxy : List UInt8} (r) (h : Answers msg url pac)
      (hproxy : canonicalizePac pac.1 maxProxyUrl = some proxy) :
      Views (.message msg r) (.bus (.resolved (text url.1) (text proxy)) r)
  | serviceUnknown {msg : Message} (r) (h : msg.type = .error)
      (hname : msg.errorName = some kErrorServiceUnknown) :
      Views (.message msg r) (.bus .serviceUnknown r)
  | methodReturn {msg : Message} (r) (h : msg.type = .methodReturn) :
      Views (.message msg r) (.bus (.methodReturn msg.replySerial.toNat) r)
  | call {msg : Message} {call : ServiceCall} (r) (h : Reaches msg) (hcall : Calls msg call) :
      Views (.message msg r) (.service call r)
  | ignored {msg : Message} (r) : Views (.message msg r) (.service .unknown r)

variable {build : Build} {r : Readings} {msg : Message} {s : State} {d d' : Daemon}

theorem handleServiceChange_cases : handleServiceChange r msg s = s ∨
    handleServiceChange r msg s = actionKickoffTimeSync r s ∧ ∃ path pname pval rest,
      msg.path = some path ∧ msg.args = .string pname :: .variant (.string pval) :: rest ∧
      pname.1 = ascii kProxyConfig := by
  rw [handleServiceChange]
  split
  next path pname pval rest hpath hargs =>
    split
    next hname => exact Or.inr ⟨rfl, path, pname, pval, rest, hpath, hargs, hname⟩
    next => exact Or.inl rfl
  next => exact Or.inl rfl

theorem handleManagerChange_cases : handleManagerChange r msg s = s ∨
    handleManagerChange r msg s = actionKickoffTimeSync r s ∧ ∃ pname pval rest,
      msg.args = .string pname :: .variant (.objectPath pval) :: rest ∧
      pname.1 = ascii kDefaultService := by
  rw [handleManagerChange]
  split
  next pname pval rest hargs =>
    split
    next hname => exact Or.inr ⟨rfl, pname, pval, rest, hargs, hname⟩
    next => exact Or.inl rfl
  next => exact Or.inl rfl

theorem handleDbusChange_cases : handleDbusChange r msg s = s ∨
    handleDbusChange r msg s = actionKickoffTimeSync r s ∧ ∃ pname rest,
      msg.args = .string pname :: rest ∧ pname.1 = ascii kLibCrosDest := by
  rw [handleDbusChange]
  split
  next pname rest hargs =>
    split
    next hname => exact Or.inr ⟨rfl, pname, rest, hargs, hname⟩
    next => exact Or.inl rfl
  next => exact Or.inl rfl

theorem handleProxyChange_some {s' : State} (h : handleProxyChange msg s = some s') : s' = s ∨
    ∃ url pac proxy rest, msg.args = .string url :: .string pac :: rest ∧
      canonicalizePac pac.1 maxProxyUrl = some proxy ∧
      s' = ProxyResolver.handleProxyChange (text url.1) (text proxy) s := by
  rw [handleProxyChange] at h
  split at h
  next => exact Or.inl (Option.some.inj h).symm
  next src hsrc =>
    split_ifs at h with hidle
    · exact Or.inl (Option.some.inj h).symm
    · split at h
      next url args hargs =>
        split_ifs at h with hurl
        · exact Or.inl (Option.some.inj h).symm
        · split at h
          next pac rest =>
            obtain ⟨proxy, hproxy, rfl⟩ := Option.map_eq_some_iff.mp h
            refine Or.inr ⟨url, pac, proxy, rest, hargs, hproxy, ?_⟩
            simp only [ProxyResolver.handleProxyChange, hsrc, if_neg hidle, if_neg hurl]
          next => exact Or.inl (Option.some.inj h).symm
      next => exact Or.inl (Option.some.inj h).symm

theorem dbusFilter_some {handled : Bool} (hex : d.exited = false)
    (h : dbusFilter r msg d = some (d', handled)) : d' = d ∨ handled = true ∧
      ∃ m, Views (.message msg r) (.bus m r) ∧
        ProxyResolver.dbusFilter r m d.state d.platform = (d'.state, d'.platform, d'.course) := by
  have hloops := exited_false.mp hex
  rw [dbusFilter] at h
  obtain ⟨hdown, h⟩ | ⟨-, h⟩ := ite_eq_iff.mp h
  · obtain ⟨rfl, rfl⟩ := Prod.mk.inj (Option.some.inj h)
    exact Or.inr ⟨rfl, _, .disconnected r hdown, rfl⟩
  obtain ⟨-, h⟩ | ⟨-, h⟩ := ite_eq_iff.mp h
  · exact Or.inl (Prod.mk.inj (Option.some.inj h)).1.symm
  obtain ⟨-, h⟩ | ⟨-, h⟩ := ite_eq_iff.mp h
  · exact Or.inl (Prod.mk.inj (Option.some.inj h)).1.symm
  obtain ⟨hservice, h⟩ | ⟨-, h⟩ := ite_eq_iff.mp h
  · obtain ⟨rfl, rfl⟩ := Prod.mk.inj (Option.some.inj h)
    obtain hs | ⟨hs, path, pname, pval, rest, hpath, hargs, hname⟩ := handleServiceChange_cases
    · exact Or.inl (by rw [hs])
    · refine Or.inr ⟨rfl, _, .wake r (.service path pname pval rest hservice hpath hargs hname), ?_⟩
      rw [hs, hloops]
      rfl
  obtain ⟨hmanager, h⟩ | ⟨-, h⟩ := ite_eq_iff.mp h
  · obtain ⟨rfl, rfl⟩ := Prod.mk.inj (Option.some.inj h)
    obtain hs | ⟨hs, pname, pval, rest, hargs, hname⟩ := handleManagerChange_cases
    · exact Or.inl (by rw [hs])
    · refine Or.inr ⟨rfl, _, .wake r (.manager pname pval rest hmanager hargs hname), ?_⟩
      rw [hs, hloops]
      rfl
  obtain ⟨hproxy, h⟩ | ⟨-, h⟩ := ite_eq_iff.mp h
  · obtain ⟨s', hs, he⟩ := Option.bind_eq_some_iff.mp h
    obtain ⟨rfl, rfl⟩ := Prod.mk.inj (Option.some.inj he)
    obtain rfl | ⟨url, pac, proxy, rest, hargs, hpac, rfl⟩ := handleProxyChange_some hs
    · exact Or.inl rfl
    · refine Or.inr ⟨rfl, _, .resolved r ⟨hproxy, rest, hargs⟩ hpac, ?_⟩
      rw [hloops]
      rfl
  obtain ⟨howner, h⟩ | ⟨-, h⟩ := ite_eq_iff.mp h
  · obtain ⟨rfl, rfl⟩ := Prod.mk.inj (Option.some.inj h)
    obtain hs | ⟨hs, pname, rest, hargs, hname⟩ := handleDbusChange_cases
    · exact Or.inl (by rw [hs])
    · refine Or.inr ⟨rfl, _, .wake r (.owner pname rest howner hargs hname), ?_⟩
      rw [hs, hloops]
      rfl
  obtain ⟨hresume, h⟩ | ⟨-, h⟩ := ite_eq_iff.mp h
  · obtain ⟨rfl, rfl⟩ := Prod.mk.inj (Option.some.inj h)
    refine Or.inr ⟨rfl, _, .wake r (.resume hresume), ?_⟩
    rw [hloops]
    rfl
  obtain ⟨herror, h⟩ | ⟨-, h⟩ := ite_eq_iff.mp h
  · obtain ⟨rfl, rfl⟩ := Prod.mk.inj (Option.some.inj h)
    refine Or.inr ⟨rfl, _, .serviceUnknown r herror.1 herror.2, ?_⟩
    rw [hloops]
    rfl
  obtain ⟨hreturn, h⟩ | ⟨-, h⟩ := ite_eq_iff.mp h
  · obtain ⟨rfl, rfl⟩ := Prod.mk.inj (Option.some.inj h)
    refine Or.inr ⟨rfl, _, .methodReturn r hreturn.1, ?_⟩
    rw [ProxyResolver.dbusFilter, if_pos hreturn.2, hloops]
  · exact Or.inl (Prod.mk.inj (Option.some.inj h)).1.symm

theorem serviceDispatch_cases : serviceDispatch build r msg s = (s, []) ∨
    ∃ call, msg.type = .methodCall ∧ msg.interface = some serviceInterface ∧ Calls msg call ∧
      serviceDispatch build r msg s = DBusService.serviceDispatch build r call s := by
  rw [serviceDispatch]
  split
  next => exact Or.inl rfl
  next htype =>
    split
    next interface method hinterface hmethod =>
      split_ifs with hservice hset hcan hlast
      · exact Or.inl rfl
      all_goals have hreach : msg.type = .methodCall ∧ msg.interface = some serviceInterface :=
        ⟨not_not.mp htype, hinterface.trans (congrArg some (not_not.mp hservice))⟩
      · exact Or.inr ⟨_, hreach.1, hreach.2, .setTime (hset ▸ hmethod), rfl⟩
      · exact Or.inr ⟨_, hreach.1, hreach.2, .canSetTime (hcan ▸ hmethod), rfl⟩
      · exact Or.inr ⟨_, hreach.1, hreach.2, .lastSyncInfo (hlast ▸ hmethod), rfl⟩
      · exact Or.inl rfl
    next => exact Or.inl rfl

theorem step_service {o : List Output} {call : ServiceCall} (hex : d.exited = false)
    (hbus : d.state.opts.shouldDbus = true) (hd : { d with
      state := (DBusService.serviceDispatch build r call d.state).1 } = d')
    (ho : (DBusService.serviceDispatch build r call d.state).2 = o) :
    step build d (.service call r) = some (d', o) := by
  subst hd ho
  simp [step, callback, hbus, proceed, hex, exited_false.mp hex]

theorem step_bus {m : BusMessage} (hex : d.exited = false) (hr : d.state.events .resolver ≠ none)
    (h : ProxyResolver.dbusFilter r m d.state d.platform = (d'.state, d'.platform, d'.course)) :
    step build d (.bus m r) = some (d', []) := by
  simp [step, callback, platformCallback, hr, h, hex]

theorem dispatch_views {o : List Output} (hex : d.exited = false)
    (hbus : d.state.opts.shouldDbus = true) (h : dispatch build r msg d = some (d', o)) :
    ∃ e, Views (.message msg r) e ∧ step build d e = some (d', o) := by
  have hignored : ∃ e, Views (.message msg r) e ∧ step build d e = some (d, []) :=
    ⟨_, .ignored r, step_service hex hbus rfl rfl⟩
  have hserve (hpath : msg.path = some servicePath) : ∃ e, Views (.message msg r) e ∧
      step build d e = some ({ d with state := (serviceDispatch build r msg d.state).1 },
        (serviceDispatch build r msg d.state).2) := by
    obtain hs | ⟨call, htype, hinterface, hcall, hs⟩ :=
      @serviceDispatch_cases build r msg d.state
    · rw [hs]
      exact hignored
    · rw [hs]
      exact ⟨_, .call r ⟨htype, hpath, hinterface⟩ hcall, step_service hex hbus rfl rfl⟩
  have hrest (h : (if false = false ∧ msg.path = some servicePath then
      ({ d with state := (serviceDispatch build r msg d.state).1 },
        (serviceDispatch build r msg d.state).2) else (d, [])) = (d', o)) :
      ∃ e, Views (.message msg r) e ∧ step build d e = some (d', o) := by
    rw [← h]
    split_ifs with hpath
    · exact hserve hpath.2
    · exact hignored
  simp only [dispatch] at h
  obtain ⟨⟨d₁, handled⟩, hf, he⟩ := Option.map_eq_some_iff.mp h
  split_ifs at hf with hr
  · obtain ⟨rfl, rfl⟩ := Prod.mk.inj (Option.some.inj hf)
    exact hrest he
  · obtain rfl | ⟨rfl, m, hm, hs⟩ := dbusFilter_some hex hf
    · cases handled with
      | false => exact hrest he
      | true =>
          obtain ⟨rfl, rfl⟩ := Prod.mk.inj he
          exact hignored
    · obtain ⟨rfl, rfl⟩ := Prod.mk.inj he
      exact ⟨_, hm, step_bus hex hr hs⟩

theorem rawStep_views {e : RawEvent} {o : List Output} (h : rawStep build d e = some (d', o)) :
    ∃ f, Views e f ∧ step build d f = some (d', o) := by
  cases e with
  | loop e =>
      cases e with
      | service | bus => cases h
      | _ => exact ⟨_, .loop _, h⟩
  | message msg r =>
      rw [rawStep] at h
      split_ifs at h with hlive
      obtain ⟨hex, hbus⟩ := Bool.or_eq_false_iff.mp (Bool.eq_false_of_not_eq_true hlive)
      exact dispatch_views hex (by simpa using hbus) h

/-- Whatever the messages on the bus, the daemon runs as the event loop does on what they
stand for: only the known signals, errors, replies and calls, with the arguments that their
handlers expect, have any effect. -/
theorem run_views {d₀ : Daemon} {es : List RawEvent} {out : List Output}
    (h : Machine.Run (rawStep build) Machine.Free d₀ es d out) :
    ∃ fs, List.Forall₂ Views es fs ∧ Machine.Run (step build) Machine.Free d₀ fs d out := by
  induction h with
  | nil => exact ⟨[], .nil, .nil⟩
  | snoc _ _ hs ih =>
      obtain ⟨fs, hviews, hrun⟩ := ih
      obtain ⟨f, hf, hstep⟩ := rawStep_views hs
      exact ⟨fs ++ [f], List.rel_append hviews (.cons hf .nil), .snoc hrun trivial hstep⟩

theorem run_views_lookup : ∃ d₀ d out fs, dynamicStart = some d₀ ∧ List.Forall₂ Views lookup fs ∧
    Machine.Run (step fallbackBuild) Machine.Free d₀ fs d out := by
  obtain ⟨d₀, d, out, h₀, hrun, -⟩ := lookup_run
  obtain ⟨fs, hviews, hfs⟩ := run_views hrun
  exact ⟨d₀, d, out, fs, h₀, hviews, hfs⟩

end Refinement

section Launches

variable {build : Build} {r : Readings} {s s' : State} {d d' d₀ : Daemon}

@[simp] theorem forgetJump_dynamicProxy : (forgetJump r s).dynamicProxy = s.dynamicProxy := by
  rcases forgetJump_frame r s with h | h <;> rw [h]

@[simp] theorem actionKickoffTimeSync_dynamicProxy :
    (actionKickoffTimeSync r s).dynamicProxy = s.dynamicProxy := by
  simp only [actionKickoffTimeSync, scheduleAttempt]
  repeat' split
  all_goals simp

theorem actionRunTlsdate_dynamicProxy (fork : Option Nat) :
    (actionRunTlsdate fork s).1.dynamicProxy = s.dynamicProxy ∧
      ∀ argv ∈ launches (actionRunTlsdate fork s).2, argv = (buildArgv s.dynamicProxy s.opts).1 := by
  obtain ⟨-, h⟩ | ⟨-, tries, backoff, resolving, h⟩ := actionRunTlsdate_cases fork s
  · rw [h]
    cases fork with
    | none => exact ⟨by simp [beginAttempt, tlsdate, eventDel], fun argv ha => by cases ha⟩
    | some pid =>
        refine ⟨by simp [beginAttempt, tlsdate], fun argv ha => ?_⟩
        simpa [beginAttempt, tlsdate, launches, child] using ha
  · rw [h]
    exact ⟨rfl, fun argv ha => by cases ha⟩

theorem actionSigchld_dynamicProxy (waits : List Wait) :
    (actionSigchld waits s).state.dynamicProxy = s.dynamicProxy := by
  refine actionSigchld_rule (R := fun s t _ => t.dynamicProxy = s.dynamicProxy) (fun _ => rfl) ?_
    (fun h h' => h'.trans h) waits s
  intro s w
  cases w with
  | stopped pid permitted => cases permitted <;> rfl
  | died pid status =>
      simp only [handleWait, handleChildDeath, reapTlsdate]
      repeat' split
      all_goals simp [proceed, eventDel]

theorem serviceDispatch_dynamicProxy (call : ServiceCall) :
    (DBusService.serviceDispatch build r call s).1.dynamicProxy = s.dynamicProxy := by
  cases call with
  | lastSyncInfo | unknown => rfl
  | canSetTime => simp [DBusService.serviceDispatch, handleCanSetTime, canSetTime]
  | setTime requested =>
      cases requested with
      | none => rfl
      | some t =>
          simp only [DBusService.serviceDispatch, handleSetTime]
          repeat' split
          all_goals simp [canSetTime]

theorem handleProxyChange_answers (url proxy : String) (s : State) :
    ProxyResolver.handleProxyChange url proxy s = s ∨ ∃ src, predictedSource s.opts = some src ∧
      url.toList = (timeHost src).toList.take (maxProxyUrl - 1) ∧
      (ProxyResolver.handleProxyChange url proxy s).dynamicProxy = proxy := by
  rw [ProxyResolver.handleProxyChange]
  cases predictedSource s.opts with
  | none => exact Or.inl rfl
  | some src =>
      dsimp only
      split_ifs with hidle hurl
      · exact Or.inl rfl
      · exact Or.inl rfl
      · exact Or.inr ⟨src, rfl, not_not.mp hurl, by simp⟩

/-- The buffer for the proxy of the next source is emptied when a resolution begins, filled by
the answer for that source, and left alone by all else. -/
theorem moved_dynamicProxy {ctx : Platform} {e : Event} {out : List Output}
    (hm : Moved build s ctx e s' out) : s'.dynamicProxy = s.dynamicProxy ∨ s'.dynamicProxy = "" ∨
      ∃ url r src, e = .bus (.resolved url s'.dynamicProxy) r ∧ predictedSource s.opts = some src ∧
        url.toList = (timeHost src).toList.take (maxProxyUrl - 1) := by
  cases hm with
  | continuity r => exact Or.inl (by simp)
  | routeUp cue r =>
      refine Or.inl ?_
      rcases cue with (_ | _) | (_ | _) <;> simp [actionRouteUp, eventDel]
  | invalidate r =>
      refine Or.inl ?_
      simp only [actionInvalidateTime]
      split <;> simp [invalidateTime]
  | runTlsdate fork => exact Or.inl (actionRunTlsdate_dynamicProxy fork).1
  | tlsdateStatus read =>
      refine Or.inl ?_
      cases read with
      | again | truncated => simp [actionTlsdateStatus, eventDel]
      | word serverTime =>
          simp only [actionTlsdateStatus]
          split <;> simp [eventDel]
  | tlsdateTimeout => exact Or.inl rfl
  | sigchld waits => exact Or.inl (actionSigchld_dynamicProxy waits)
  | sigterm now => cases now <;> exact Or.inl (by simp [actionSigterm, proceed])
  | save readable write shutdown =>
      obtain ⟨h | h, -⟩ := actionSyncAndSave_cases readable write shutdown (eventDel s .save)
      all_goals exact Or.inl ((congrArg State.dynamicProxy h).trans rfl)
  | timeSet read r =>
      obtain ⟨h | h | ⟨-, h⟩, -⟩ := actionTimeSet_cases r read s
      all_goals exact Or.inl ((congrArg State.dynamicProxy h).trans rfl)
  | service call r => exact Or.inl (serviceDispatch_dynamicProxy call)
  | resolveProxy send =>
      obtain h | ⟨-, -, h | h | ⟨serial, url, -, h⟩⟩ :=
        actionResolveProxy_cases send (eventDel s .resolver) ctx
      · exact Or.inl (by rw [h]; rfl)
      · exact Or.inr (Or.inl (by rw [h]; simp))
      · exact Or.inr (Or.inl (by rw [h]))
      · exact Or.inr (Or.inl (by rw [h]))
  | bus msg r =>
      cases msg with
      | resolved url proxy =>
          obtain h | ⟨src, hsrc, hurl, hproxy⟩ := handleProxyChange_answers url proxy s
          · exact Or.inl (by rw [ProxyResolver.dbusFilter, h])
          · exact Or.inr (Or.inr ⟨url, r, src, by rw [ProxyResolver.dbusFilter, hproxy], hsrc, hurl⟩)
      | _ => exact Or.inl (by simp [ProxyResolver.dbusFilter])

theorem moved_launches {ctx : Platform} {e : Event} {out : List Output}
    (hm : Moved build s ctx e s' out) :
    ∀ argv ∈ launches out, argv = (buildArgv s.dynamicProxy s.opts).1 := by
  have quiet : ∀ {o : List Output}, launches o = [] →
      ∀ argv ∈ launches o, argv = (buildArgv s.dynamicProxy s.opts).1 := fun ho argv ha => by
    rw [ho] at ha
    cases ha
  cases hm with
  | runTlsdate fork => exact (@actionRunTlsdate_dynamicProxy (eventDel s .tlsdate) fork).2
  | sigchld waits => exact quiet (actionSigchld_opts waits).2
  | save readable write shutdown =>
      exact quiet (@actionSyncAndSave_opts (eventDel s .save) readable write shutdown).2
  | timeSet read r =>
      refine quiet (List.filterMap_eq_nil_iff.mpr fun o ho => ?_)
      obtain ⟨sync, rfl⟩ := (actionTimeSet_cases r read s).2 o ho
      rfl
  | service call r => exact quiet (serviceDispatch_opts call).2
  | resolveProxy send => exact quiet (@actionResolveProxy_opts (eventDel s .resolver) send ctx).2
  | tlsdateTimeout =>
      refine quiet ?_
      simp only [actionTlsdateTimeout]
      split <;> rfl
  | sigterm now => cases now <;> exact quiet rfl
  | continuity | routeUp | invalidate | tlsdateStatus | bus => exact quiet rfl

/-- The buffer is empty or holds what came out of an answer for the next source. -/
def Answered (opts : Opts) (es : List RawEvent) (proxy : String) : Prop :=
  proxy = "" ∨ ∃ src msg r url pac bytes, predictedSource opts = some src ∧
    RawEvent.message msg r ∈ es ∧ Answers msg url pac ∧
    (text url.1).toList = (timeHost src).toList.take (maxProxyUrl - 1) ∧
    canonicalizePac pac.1 maxProxyUrl = some bytes ∧ proxy = text bytes

theorem Answered.snoc {opts : Opts} {es : List RawEvent} {proxy : String} (e : RawEvent)
    (h : Answered opts es proxy) : Answered opts (es ++ [e]) proxy := by
  obtain h | ⟨src, msg, r, url, pac, bytes, hsrc, hmem, h⟩ := h
  · exact Or.inl h
  · exact Or.inr ⟨src, msg, r, url, pac, bytes, hsrc, List.mem_append_left _ hmem, h⟩

theorem rawStep_answered {e : RawEvent} {es : List RawEvent} {o : List Output}
    (hs : rawStep build d e = some (d', o))
    (h : Answered d.state.opts es d.state.dynamicProxy) :
    Answered d.state.opts (es ++ [e]) d'.state.dynamicProxy := by
  obtain ⟨f, hviews, hstep⟩ := rawStep_views hs
  obtain hkept | hnone | ⟨url, r, src, rfl, hsrc, hurl⟩ :=
    moved_dynamicProxy (step_moved hstep).2
  · exact hkept ▸ h.snoc e
  · exact Or.inl hnone
  · generalize hproxy : d'.state.dynamicProxy = proxy at hviews
    cases hviews with
    | loop => cases hs
    | @resolved msg url pac bytes _ hanswers hpac =>
        exact Or.inr ⟨src, msg, r, url, pac, bytes, hsrc, by simp, hanswers, hurl, hpac, rfl⟩

def ProxyArgument (opts : Opts) (src : Source) (es : List RawEvent) (args : List String) : Prop :=
  args = [] ∨ ∃ url, args = ["-x", url] ∧ (opts.proxy.or src.proxy = some (.text url) ∨
    opts.proxy.or src.proxy = some .dynamic ∧ ∃ kind rest msg r asked pac,
      RawEvent.message msg r ∈ es ∧ Answers msg asked pac ∧
      (text asked.1).toList = (timeHost src).toList.take (maxProxyUrl - 1) ∧
      canonicalizePac pac.1 maxProxyUrl = some (proxyUri kind rest) ∧
      PacAgreement.HostPort rest ∧ url = text (proxyUri kind rest))

theorem canonicalizePac_url {s url : List UInt8} {len : Nat}
    (h : canonicalizePac s len = some url) :
    url = [] ∨ ∃ kind rest, url = proxyUri kind rest ∧ PacAgreement.HostPort rest := by
  by_cases hs : (32 : UInt8) ∈ s
  · obtain ⟨⟨word, rest⟩, hsplit⟩ := Option.ne_none_iff_exists'.mp fun hn => strchr_none.mp hn hs
    obtain ⟨rfl, hw⟩ := strchr_some.mp hsplit
    obtain ⟨hnone, -⟩ | ⟨kind, hurl, -, hr, -, -⟩ | ⟨hempty, -, -⟩ :=
      PacAgreement.canonicalizePac_split hw rest len
    · rw [hnone] at h
      cases h
    · exact Or.inr ⟨kind, rest, Option.some.inj (h.symm.trans hurl), hr⟩
    · exact Or.inl (Option.some.inj (h.symm.trans hempty))
  · exact Or.inl (Option.some.inj (h.symm.trans (PacAgreement.canonicalizePac_whole hs len)))

theorem proxyArgs_argument {opts : Opts} {src : Source} {es : List RawEvent} {proxy : String}
    (hsrc : predictedSource opts = some src) (h : Answered opts es proxy) :
    ProxyArgument opts src es (proxyArgs proxy opts src) := by
  rw [proxyArgs]
  cases hp : opts.proxy.or src.proxy with
  | none => exact Or.inl rfl
  | some ref =>
      dsimp only
      split_ifs with hne
      · refine Or.inr ⟨_, rfl, ?_⟩
        cases ref with
        | text url => exact Or.inl hp
        | dynamic =>
            obtain h | ⟨src', msg, r, asked, pac, bytes, hsrc', hmem, hanswers, hasked, hpac, rfl⟩ := h
            · exact absurd h hne
            · obtain rfl := Option.some.inj (hsrc.symm.trans hsrc')
              obtain rfl | ⟨kind, rest, rfl, hr⟩ := canonicalizePac_url hpac
              · exact absurd rfl hne
              · exact Or.inr ⟨hp, kind, rest, msg, r, asked, pac, hmem, hanswers, hasked, hpac, hr,
                  rfl⟩
      · exact Or.inl rfl

/-- With what each child of a run is started: the base arguments, the host and the port of the
first source, and a proxy that was configured, or that an answer on the bus for this
source named, and is then no more than a scheme, a host and a port. -/
def Launched (opts : Opts) (es : List RawEvent) (args : List String) : Prop :=
  ∃ src proxy, opts.sources.head? = some src ∧ ProxyArgument opts src es proxy ∧
    args = opts.baseArgv ++ ["-H", src.host, "-p", src.port] ++ proxy ++ ["-Vraw", "-n"] ++
      if opts.leap then ["-l"] else []

theorem buildArgv_launched {opts : Opts} {es : List RawEvent} {proxy : String} {args : List String}
    (hcur : opts.curSource = []) (h : Answered opts es proxy)
    (hargs : (buildArgv proxy opts).1 = some args) : Launched opts es args := by
  simp only [buildArgv, nextSource, hcur] at hargs
  split at hargs
  next => cases hargs
  next src rest hsources =>
    have hhead : opts.sources.head? = some src := by rw [hsources]; rfl
    have hpredicted : predictedSource opts = some src := by rw [predictedSource, hcur]; exact hhead
    split at hargs
    next => cases hargs
    next => exact ⟨src, _, hhead, proxyArgs_argument hpredicted h, (Option.some.inj hargs).symm⟩

theorem Launched.snoc {opts : Opts} {es : List RawEvent} {args : List String} (e : RawEvent)
    (h : Launched opts es args) : Launched opts (es ++ [e]) args := by
  obtain ⟨src, proxy, hsrc, hproxy, hargs⟩ := h
  refine ⟨src, proxy, hsrc, ?_, hargs⟩
  obtain h | ⟨url, hurl, h | ⟨hdynamic, kind, rest, msg, r, asked, pac, hmem, h⟩⟩ := hproxy
  · exact Or.inl h
  · exact Or.inr ⟨url, hurl, Or.inl h⟩
  · exact Or.inr ⟨url, hurl, Or.inr ⟨hdynamic, kind, rest, msg, r, asked, pac,
      List.mem_append_left _ hmem, h⟩⟩

theorem startup_empty {order : ByteOrder} {opts : Opts} {platform : Bool} {setterPid : Nat}
    {now : Int} {file : File} {n : BitVec 32}
    (h : startup build order opts platform setterPid now file n r = some d) :
    d.state.opts.curSource = [] ∧ d.state.dynamicProxy = "" := by
  constructor
  · obtain ⟨s, hs, he⟩ := startup_fresh h
    rw [he, actionKickoffTimeSync_opts]
    exact hs.curSource
  · simp only [startup] at h
    split at h
    next => cases h
    next =>
      obtain ⟨⟨s, ctx⟩, hs, rfl⟩ := Option.map_eq_some_iff.mp h
      rw [actionKickoffTimeSync_dynamicProxy]
      change s.dynamicProxy = ""
      split at hs
      next =>
        simp only [platformInitCros] at hs
        split at hs
        next => cases hs
        next =>
          obtain ⟨rfl, -⟩ := Prod.mk.inj (Option.some.inj hs)
          rfl
      next =>
        obtain ⟨rfl, -⟩ := Prod.mk.inj (Option.some.inj hs)
        simp [savedStart]

/-- Nothing that comes over the bus reaches the command line of a child but the proxy that was
asked for. -/
theorem run_launched {order : ByteOrder} {opts : Opts} {platform : Bool} {setterPid : Nat}
    {now : Int} {file : File} {n : BitVec 32} {es : List RawEvent} {out : List Output}
    (h₀ : startup build order opts platform setterPid now file n r = some d₀)
    (hrun : Machine.Run (rawStep build) Machine.Free d₀ es d out) (args : List String)
    (hargs : some args ∈ launches out) : Launched d₀.state.opts es args := by
  obtain ⟨hcur, hempty⟩ := startup_empty h₀
  have hinv : d.state.opts = d₀.state.opts ∧ Answered d₀.state.opts es d.state.dynamicProxy ∧
      ∀ args, some args ∈ launches out → Launched d₀.state.opts es args := by
    clear hargs
    induction hrun with
    | nil => exact ⟨rfl, Or.inl hempty, fun args ha => by cases ha⟩
    | @snoc es d out e d' o _ _ hs ih =>
        obtain ⟨hopts, hanswered, hlaunched⟩ := ih
        obtain ⟨f, -, hstep⟩ := rawStep_views hs
        obtain ⟨hopts', hnew⟩ := moved_opts (hopts ▸ hcur) (step_moved hstep).2
        refine ⟨hopts'.trans hopts, hopts ▸ rawStep_answered hs (hopts ▸ hanswered), fun args ha => ?_⟩
        rw [launches_append, List.mem_append] at ha
        obtain ha | ha := ha
        · exact (hlaunched args ha).snoc e
        · exact buildArgv_launched hcur (hanswered.snoc e)
            (hopts ▸ (moved_launches (step_moved hstep).2 _ ha).symm)
  exact hinv.2.2 args hargs

theorem run_launched_lookup : ∃ d₀, dynamicStart = some d₀ ∧
    Launched d₀.state.opts lookup [fallbackBuild.tlsdate, "-H", "google.com", "-H", "h", "-p", "443",
      "-x", "socks5://a:9", "-Vraw", "-n"] := by
  obtain ⟨d₀, d, out, h₀, hrun, hmem⟩ := lookup_run
  exact ⟨d₀, h₀, run_launched h₀ hrun _ hmem⟩

end Launches

end Tlsdate.BusMessages
