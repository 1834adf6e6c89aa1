import Tlsdate.Kickoff

namespace Tlsdate.DBusService

open TimeSource Options DaemonState Kickoff

/-- The method calls of the tlsdate service. The argument of SetTime is absent
when the message does not carry an INT64 first. -/
inductive ServiceCall
  | setTime (requested : Option Int)
  | canSetTime
  | lastSyncInfo
  | unknown
  deriving DecidableEq, Repr

def canSetTime (r : Readings) (s : State) : Bool × State :=
  let s := forgetJump r s
  (s.clockDelta == 0, s)

def handleSetTime (build : Build) (r : Readings) (requested : Option Int) (s : State) :
    State × List Output :=
  match requested with
  | none => (s, [.setTimeReply .badCall])
  | some t =>
      if !isSaneTime build t then (s, [.setTimeReply .invalid])
      else
        let allowed := canSetTime r s
        if !allowed.1 then (allowed.2, [.setTimeReply .notAllowed])
        else
          let s := triggerEvent { allowed.2 with lastTime := t, lastSyncType := .platform } .save (-1)
          -- kick off a network sync for good measure
          (actionKickoffTimeSync r s, [.setTimeReply .ok])

def handleCanSetTime (r : Readings) (s : State) : State × List Output :=
  ((canSetTime r s).2, [.canSetTimeReply (canSetTime r s).1])

def handleLastSyncInfo (s : State) : List Output :=
  [.lastSyncInfoReply (s.clockDelta != 0) s.lastSyncType s.lastTime]

def serviceDispatch (build : Build) (r : Readings) (call : ServiceCall) (s : State) :
    State × List Output :=
  match call with
  | .setTime requested => handleSetTime build r requested s
  | .canSetTime => handleCanSetTime r s
  | .lastSyncInfo => (s, handleLastSyncInfo s)
  | .unknown => (s, [])

end Tlsdate.DBusService
