import Tlsdate.Kickoff

namespace Tlsdate.ProxyResolver

open TimeSource Options DaemonState Kickoff

/-- `struct platform_state`: the prepared resolver message of each source, with
the url that it asks about, and the serial of the call under way or 0. -/
structure Platform where
  resolveMsg : List (Option String)
  serial : Nat

def predictedSource (opts : Opts) : Option Source :=
  match opts.curSource with
  | _ :: src :: _ => some src
  | _ => opts.sources.head?

def timeHost (src : Source) : String := "https://" ++ src.host ++ ":" ++ src.port

def maxProxyUrl : Nat := 255 + 9 + 6 + 1

/-- `new_resolver_message`; a url that does not fit is fatal. -/
def newResolverMessage (src : Source) : Option (Option String) :=
  if src.proxy ≠ some (.text "dynamic") then some none
  else if (timeHost src).length < maxProxyUrl then some (some (timeHost src))
  else none

/-- The entry of one source in the table of messages; an id beyond the number
of sources is fatal. -/
def addResolverMessage (msgs : List (Option String)) (src : Source) : Option (List (Option String)) :=
  if src.id ≥ msgs.length then none
  else (newResolverMessage src).map fun msg => msgs.set src.id msg

def platformInitCros (s : State) : Option (State × Platform) :=
  match s.opts.sources.foldlM addResolverMessage (s.opts.sources.map fun _ => none) with
  | none => none
  | some msgs =>
      let sources := s.opts.sources.map fun src =>
        if src.proxy = some (.text "dynamic") then { src with proxy := some .dynamic } else src
      let proxy := if s.opts.proxy = some (.text "dynamic") then some .dynamic else s.opts.proxy
      some ({ s with
          opts := { s.opts with sources := sources, proxy := proxy }
          dynamicProxy := ""
          events := Function.update s.events .resolver (some .idle) },
        ⟨msgs, 0⟩)

/-- `action_resolve_proxy`; `send` is the serial of the call if D-Bus takes it. -/
def actionResolveProxy (send : Option Nat) (s : State) (ctx : Platform) :
    State × Platform × List Output :=
  match predictedSource s.opts with
  | none => (s, ctx, [])
  | some src =>
      if s.resolving || ctx.serial != 0 then (s, ctx, [])
      else
        let s := { s with dynamicProxy := "" }
        match ctx.resolveMsg.getD src.id none with
        | none => (triggerEvent s .tlsdate 1, ctx, [])
        | some url =>
            let s := { s with resolving := true }
            match send with
            | none => (s, ctx, [])
            | some serial => (s, { ctx with serial := serial }, [.resolveRequest url])

theorem actionResolveProxy_cases (send : Option Nat) (s : State) (ctx : Platform) :
    actionResolveProxy send s ctx = (s, ctx, []) ∨ s.resolving = false ∧ ctx.serial = 0 ∧
      (actionResolveProxy send s ctx =
          (triggerEvent { s with dynamicProxy := "" } .tlsdate 1, ctx, []) ∨
        actionResolveProxy send s ctx = ({ s with dynamicProxy := "", resolving := true }, ctx, []) ∨
        ∃ serial url, send = some serial ∧ actionResolveProxy send s ctx =
          ({ s with dynamicProxy := "", resolving := true }, { ctx with serial := serial },
            [.resolveRequest url])) := by
  rw [actionResolveProxy]
  cases predictedSource s.opts with
  | none => exact Or.inl rfl
  | some src =>
      dsimp only
      by_cases hbusy : (s.resolving || ctx.serial != 0) = true
      · rw [if_pos hbusy]
        exact Or.inl rfl
      · rw [if_neg hbusy]
        obtain ⟨hresolving, hserial⟩ := Bool.or_eq_false_iff.mp (Bool.eq_false_of_not_eq_true hbusy)
        refine Or.inr ⟨hresolving, by simpa using hserial, ?_⟩
        cases ctx.resolveMsg.getD src.id none with
        | none => exact Or.inl rfl
        | some url =>
            cases send with
            | none => exact Or.inr (Or.inl rfl)
            | some serial => exact Or.inr (Or.inr ⟨serial, url, rfl, rfl⟩)

/-- A resolution that Chromium signals: the url it is about and the url that
`canonicalize_pac` leaves in the buffer for its answer. -/
def handleProxyChange (url proxy : String) (s : State) : State :=
  match predictedSource s.opts with
  | none => s
  | some src =>
      if !s.resolving then s
      else if url.toList ≠ (timeHost src).toList.take (maxProxyUrl - 1) then s
      else triggerEvent { s with resolving := false, dynamicProxy := proxy } .tlsdate 1

theorem handleProxyChange_cases (url proxy : String) (s : State) :
    handleProxyChange url proxy s = s ∨ s.resolving = true ∧ handleProxyChange url proxy s =
      triggerEvent { s with resolving := false, dynamicProxy := proxy } .tlsdate 1 := by
  rw [handleProxyChange]
  cases predictedSource s.opts with
  | none => exact Or.inl rfl
  | some src =>
      dsimp only
      split_ifs with hidle hurl
      · exact Or.inl rfl
      · exact Or.inl rfl
      · exact Or.inr ⟨by simpa using hidle, rfl⟩

/-- The messages that `dbus_filter` tells apart. A signal that is a wake is one
of the service, manager, suspend and name owner signals with the arguments that
its handler expects. -/
inductive BusMessage
  | disconnected
  | wake
  | resolved (url proxy : String)
  | serviceUnknown
  | methodReturn (replySerial : Nat)
  | other
  deriving DecidableEq, Repr

def dbusFilter (r : Readings) (msg : BusMessage) (s : State) (ctx : Platform) :
    State × Platform × Course :=
  match msg with
  | .disconnected => (s, ctx, .ends)
  | .wake => (actionKickoffTimeSync r s, ctx, .loops)
  | .resolved url proxy => (handleProxyChange url proxy s, ctx, .loops)
  | .serviceUnknown =>
      (triggerEvent { s with resolving := false } .tlsdate 1, { ctx with serial := 0 }, .loops)
  | .methodReturn replySerial =>
      (s, if replySerial = ctx.serial then { ctx with serial := 0 } else ctx, .loops)
  | .other => (s, ctx, .loops)

end Tlsdate.ProxyResolver
