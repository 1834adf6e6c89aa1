import Tlsdate.EventLoop

namespace Tlsdate.TimeLedger

open TimeSource Options DaemonState Kickoff Attempts Saving DBusService ProxyResolver EventLoop

/-- The part of the daemon's state through which a time travels from its source
to the setter's pipe. -/
structure Ledger where
  clockDelta : Int
  lastSyncType : SyncType
  lastTime : Int
  exitting : Bool
  status : Option Pending
  save : Option Pending

def ledger (s : State) : Ledger :=
  ⟨s.clockDelta, s.lastSyncType, s.lastTime, s.exitting, s.events .tlsdateStatus, s.events .save⟩

inductive Entry
  | idle
  | jump (r : Readings)
  | invalidate (r : Readings)
  | listen
  | hangUp
  | accept (t : Int)
  | sigterm (now : Option Int)
  | save (readable : Bool) (write shutdown : WriteResult)
  | badTime (r : Readings)
  | timeSet (r : Readings)
  | setTime (t : Int) (r : Readings)

/-- A read event is served only once it has been armed. -/
def armed : Option Pending → Bool
  | none | some .idle => false
  | _ => true

def arm (p : Option Pending) : Option Pending := p.map fun _ => .waiting

def disarm (p : Option Pending) : Option Pending := p.map fun _ => .idle

def jumped (r : Readings) (l : Ledger) : Bool := decide ((checkContinuity r l.clockDelta).1 > 0)

def invalidated (r : Readings) (l : Ledger) : Ledger :=
  { l with lastSyncType := .rtc, lastTime := r.now }

def settled (r : Readings) (l : Ledger) : Ledger :=
  if jumped r l then invalidated r { l with clockDelta := 0 } else l

def encoded (l : Ledger) : Int := if l.lastSyncType ≠ .net then -l.lastTime else l.lastTime

/-- E_SAVE is not persistent, and only a write that succeeds writes anything. -/
def saved (readable : Bool) (write shutdown : WriteResult) (l : Ledger) : Ledger × List Int :=
  let l := { l with save := disarm l.save }
  if readable ∨ write ≠ .written then (l, [])
  else if l.exitting ∧ encoded l ≠ 0 then
    ({ l with lastTime := 0 }, encoded l :: if shutdown = .written then [0] else [])
  else (l, [encoded l])

def granted (r : Readings) (l : Ledger) : Bool := (settled r l).clockDelta == 0

/-- The abstract machine. Only an attempt on behalf of an unsynchronized clock
arms the status event, unless a read that found nothing arms it again. -/
def step : Machine.Step Ledger Entry Int := fun l e =>
  match e with
  | .idle => some (l, [])
  | .jump r => some (settled r l, [])
  | .invalidate r => some (settled r (invalidated r l), [])
  | .listen =>
      if l.lastSyncType ≠ .net ∨ armed l.status then some ({ l with status := arm l.status }, [])
      else none
  | .hangUp => if armed l.status then some ({ l with status := disarm l.status }, []) else none
  | .accept t =>
      if armed l.status then
        some ({ l with lastSyncType := .net, lastTime := t, status := disarm l.status,
                       save := arm l.save }, [])
      else none
  | .sigterm none => some ({ l with exitting := true }, [])
  | .sigterm (some sec) =>
      some ({ l with exitting := true, lastTime := sec, save := arm l.save }, [])
  | .save readable write shutdown =>
      if armed l.save then some (saved readable write shutdown l) else none
  | .badTime r => some (invalidated r l, [])
  | .timeSet r =>
      some (if l.lastSyncType = .net then { l with clockDelta := (checkContinuity r 0).2 } else l, [])
  | .setTime t r =>
      some (if granted r l then
          { settled r l with lastTime := t, lastSyncType := .platform, save := arm l.save }
        else settled r l, [])

def entry (build : Build) (s : State) : Event → Entry
  | .continuity r | .routeUp (.netlink true) r | .routeUp (.stdin true) r | .bus .wake r => .jump r
  | .invalidate r => if acquiring s then .idle else .invalidate r
  | .runTlsdate _ => if begins s then .listen else .idle
  | .tlsdateStatus .again => .listen
  | .tlsdateStatus .truncated => .hangUp
  | .tlsdateStatus (.word serverTime) =>
      if isSaneTime build serverTime.toNat then .accept serverTime.toNat else .hangUp
  | .sigterm now => .sigterm now
  | .save readable write shutdown => .save readable write shutdown
  | .timeSet (.status word) r =>
      if word = setterBadTime then .badTime r else if word = setterTimeSet then .timeSet r else .idle
  | .service (.setTime (some t)) r => if isSaneTime build t then .setTime t r else .idle
  | .service .canSetTime r => .jump r
  | _ => .idle

theorem entry_accept {build : Build} {s : State} {e : Event} {t : Int}
    (h : entry build s e = .accept t) : isSaneTime build t = true := by
  simp only [entry] at h
  repeat' split at h
  all_goals cases h
  assumption

theorem entry_setTime {build : Build} {s : State} {e : Event} {t : Int} {r : Readings}
    (h : entry build s e = .setTime t r) : isSaneTime build t = true := by
  simp only [entry] at h
  repeat' split at h
  all_goals cases h
  assumption

def onLedger : EventId → Bool
  | .tlsdateStatus | .save => true
  | _ => false

def messages : List Output → List Int :=
  List.filterMap fun o => match o with | .message t => some t | _ => none

theorem messages_append (out out' : List Output) :
    messages (out ++ out') = messages out ++ messages out' :=
  List.filterMap_append

section Simulation

variable {build : Build} {s : State} {r : Readings} {id : EventId} {sec : Int}

theorem off_ledger (h : onLedger id = false) : EventId.tlsdateStatus ≠ id ∧ EventId.save ≠ id := by
  constructor <;> rintro rfl <;> cases h

theorem ledger_eventDel (id : EventId) (h : onLedger id = false) :
    ledger (eventDel s id) = ledger s := by
  obtain ⟨hstatus, hsave⟩ := off_ledger h
  simp [ledger, hstatus, hsave]

theorem ledger_triggerEvent (id : EventId) (h : onLedger id = false) :
    ledger (triggerEvent s id sec) = ledger s := by
  obtain ⟨hne, hne'⟩ := off_ledger h
  have hstatus := triggerEvent_other s sec hne (by decide)
  have hsave := triggerEvent_other s sec hne' (by decide)
  simp only [ledger, triggerEvent_clockDelta, triggerEvent_lastSyncType, triggerEvent_lastTime,
    triggerEvent_exitting, hstatus, hsave]

theorem ledger_scheduleAttempt (jitter : Int) : ledger (scheduleAttempt jitter s) = ledger s := by
  have htlsdate : ∀ s sec, ledger (triggerEvent s .tlsdate sec) = ledger s := fun _ _ =>
    ledger_triggerEvent .tlsdate rfl
  have hresolver : ∀ s sec, ledger (triggerEvent s .resolver sec) = ledger s := fun _ _ =>
    ledger_triggerEvent .resolver rfl
  simp only [scheduleAttempt]
  repeat' split
  all_goals first | rfl | simp only [htlsdate, hresolver]

theorem ledger_forgetJump : ledger (forgetJump r s) = settled r (ledger s) := by
  have hd : desynced r s = jumped r (ledger s) := rfl
  simp only [forgetJump, settled, hd]
  split <;> rfl

theorem settled_zero {l : Ledger} (h : l.clockDelta = 0) : settled r l = l := by
  have hj : jumped r l = false := by
    simp only [jumped, decide_eq_false_iff_not]
    exact fun hd => checkContinuity_desync hd h
  simp only [settled, hj, Bool.false_eq_true, if_false]

theorem ledger_kickoff : ledger (actionKickoffTimeSync r s) = settled r (ledger s) :=
  (ledger_scheduleAttempt _).trans ledger_forgetJump

theorem step_jump (l : Ledger) : step l (.jump r) = some (settled r l, []) := rfl

theorem ledger_armStatus :
    ledger (triggerEvent s .tlsdateStatus (-1)) = { ledger s with status := arm (ledger s).status } := by
  simp [ledger, triggerEvent_events, arm, eventAdd, timerOnly]

theorem ledger_armSave :
    ledger (triggerEvent s .save (-1)) = { ledger s with save := arm (ledger s).save } := by
  simp [ledger, triggerEvent_events, arm, eventAdd, timerOnly]

theorem ledger_beginAttempt (fork : Option Nat) :
    ledger (beginAttempt fork s).1 = { ledger s with status := arm (ledger s).status } ∧
      messages (beginAttempt fork s).2 = [] := by
  have hlaunch : ∀ t : State, ledger (triggerEvent (triggerEvent t .tlsdateTimeout
      s.opts.subprocessWaitBetweenTries) .tlsdateStatus (-1)) =
      { ledger t with status := arm (ledger t).status } := fun t => by
    rw [ledger_armStatus, ledger_triggerEvent .tlsdateTimeout rfl]
  have hbegun := hlaunch { s with tries := s.tries + 1, running := true }
  cases fork with
  | none => exact ⟨(ledger_eventDel _ rfl).trans hbegun, rfl⟩
  | some pid => exact ⟨hbegun, rfl⟩

theorem ledger_runTlsdate (fork : Option Nat) :
    step (ledger s) (if begins s then .listen else .idle) =
      some (ledger (actionRunTlsdate fork (eventDel s .tlsdate)).1,
        messages (actionRunTlsdate fork (eventDel s .tlsdate)).2) := by
  have hdel := ledger_eventDel (s := s) .tlsdate rfl
  have hbegins : begins (eventDel s .tlsdate) = begins s := rfl
  rcases actionRunTlsdate_cases fork (eventDel s .tlsdate) with ⟨hb, he⟩ | ⟨hb, _, _, _, he⟩
  · obtain ⟨hl, hm⟩ := @ledger_beginAttempt { eventDel s .tlsdate with resolving := false } fork
    have hn : (ledger s).lastSyncType ≠ .net := by
      rw [hbegins] at hb
      simp only [begins, Bool.and_eq_true, bne_iff_ne] at hb
      exact hb.1.1
    rw [he, hl, hm, ← hbegins, hb, ← hdel]
    rw [← hdel] at hn
    simp only [if_true, step, hn, ne_eq, not_false_eq_true, true_or]
    rfl
  · rw [he, ← hbegins, hb, ← hdel]
    rfl

theorem ledger_tlsdateStatus (read : MonitorRead) (h : scheduled s .tlsdateStatus = true) :
    step (ledger s) (entry build s (.tlsdateStatus read)) =
      some (ledger (actionTlsdateStatus build read (eventDel s .tlsdateStatus)), []) := by
  have harmed : armed (ledger s).status = true := h
  have hdel : ledger (eventDel s .tlsdateStatus) =
      { ledger s with status := disarm (ledger s).status } := by simp [ledger, disarm]
  cases read with
  | again =>
      simp only [entry, step, harmed, or_true, if_true, actionTlsdateStatus, ledger_armStatus, hdel]
      cases (ledger s).status <;> rfl
  | truncated =>
      simp only [entry, step, harmed, if_true, actionTlsdateStatus,
        ledger_triggerEvent .tlsdateTimeout rfl, hdel]
  | word serverTime =>
      have hrestore : ∀ (t : State) (backoff : Nat),
          ledger { t with tries := 0, backoff := backoff } = ledger t := fun _ _ => rfl
      simp only [entry, actionTlsdateStatus, hrestore]
      split
      next hs =>
        have haccept : ledger (triggerEvent { eventDel s .tlsdateStatus with
            lastSyncType := .net, lastTime := serverTime.toNat } .save (-1)) =
            { ledger s with
              lastSyncType := .net, lastTime := serverTime.toNat
              status := disarm (ledger s).status, save := arm (ledger s).save } := by
          rw [ledger_armSave]
          simp [ledger, disarm]
        simp only [step, harmed, if_true, haccept]
      next => simp only [step, harmed, if_true, hdel]

theorem ledger_handleWait (w : Wait) :
    ledger (handleWait s w).state = ledger s ∧ messages (handleWait s w).outputs = [] := by
  have hdel := ledger_eventDel (s := s) .tlsdateTimeout rfl
  cases w with
  | stopped pid permitted => cases permitted <;> exact ⟨rfl, rfl⟩
  | died pid status =>
      simp only [handleWait, handleChildDeath]
      split
      next => exact ⟨rfl, rfl⟩
      next =>
        split
        next => exact ⟨rfl, rfl⟩
        next =>
          refine ⟨?_, rfl⟩
          rw [proceed]
          obtain ⟨-, heq⟩ | ⟨-, t, rfl, ⟨-, heq⟩ | ⟨-, heq⟩⟩ := reapTlsdate_cases status s
          all_goals rw [heq]
          · exact hdel
          · exact (ledger_triggerEvent .tlsdate rfl).trans hdel
          · exact (ledger_triggerEvent .resolver rfl).trans
              ((ledger_triggerEvent .tlsdate rfl).trans hdel)

theorem ledger_sigchld (waits : List Wait) :
    ledger (actionSigchld waits s).state = ledger s ∧ messages (actionSigchld waits s).outputs = [] := by
  refine actionSigchld_rule (R := fun s t out => ledger t = ledger s ∧ messages out = [])
    (fun _ => ⟨rfl, rfl⟩) (fun _ w => ledger_handleWait w) ?_ waits s
  rintro s t u o o' ⟨hl, hm⟩ ⟨hl', hm'⟩
  exact ⟨hl'.trans hl, by rw [messages_append, hm, hm', List.nil_append]⟩

theorem ledger_save (readable : Bool) (write shutdown : WriteResult) :
    (ledger (actionSyncAndSave readable write shutdown (eventDel s .save)).state,
        messages (actionSyncAndSave readable write shutdown (eventDel s .save)).outputs) =
      saved readable write shutdown (ledger s) := by
  have hdel : ledger (eventDel s .save) = { ledger s with save := disarm (ledger s).save } := by
    simp [ledger, disarm]
  have hquiet : ∀ (w : WriteResult) (t : State), w ≠ .written →
      ledger (syncAndSave w t).state = ledger t ∧ messages (syncAndSave w t).outputs = [] :=
    fun w t hw => by cases w <;> first | exact ⟨rfl, rfl⟩ | exact absurd rfl hw
  have hcode : encodedTime (eventDel s .save) = encoded (ledger s) := rfl
  cases readable with
  | true => simp only [actionSyncAndSave, saved, if_true, true_or, proceed, hdel, messages,
      List.filterMap_nil]
  | false =>
      by_cases hw : write = .written
      · subst hw
        have hx : ((eventDel s .save).exitting = true ∧ encodedTime (eventDel s .save) ≠ 0) =
            ((ledger s).exitting = true ∧ encoded (ledger s) ≠ 0) := rfl
        have he : encoded { ledger s with save := disarm (ledger s).save } = encoded (ledger s) := rfl
        simp only [actionSyncAndSave, saved, Bool.false_eq_true, if_false, ne_eq, not_true_eq_false,
          or_false, true_and, hx, he]
        split
        next hdown =>
          have hzero : encodedTime { eventDel s .save with lastTime := 0 } = 0 := by
            simp [encodedTime]
          have hshut : messages (syncAndSave shutdown { eventDel s .save with lastTime := 0 }).outputs =
              if shutdown = .written then [0] else [] := by
            cases shutdown with
            | written => exact congrArg (fun t => [t]) hzero
            | _ => rfl
          have hkept : (syncAndSave shutdown { eventDel s .save with lastTime := 0 }).state =
              { eventDel s .save with lastTime := 0 } := by cases shutdown <;> rfl
          rw [messages_append, hshut, hkept]
          refine Prod.ext ?_ rfl
          exact congrArg (fun l : Ledger => { l with lastTime := 0 }) hdel
        next => exact Prod.ext hdel rfl
      · obtain ⟨hl, hm⟩ := hquiet write (eventDel s .save) hw
        simp only [actionSyncAndSave, saved, Bool.false_eq_true, if_false, hw, false_and, ne_eq,
          not_false_eq_true, or_true, if_true, hl, hm, hdel]

theorem ledger_timeSet (read : NotifyRead) :
    step (ledger s) (entry build s (.timeSet read r)) =
      some (ledger (actionTimeSet r read s).state, messages (actionTimeSet r read s).outputs) := by
  cases read with
  | again | truncated => rfl
  | status word =>
      simp only [entry, actionTimeSet, handleTimeSetter]
      split
      next => rfl
      next =>
        split
        next =>
          have hquiet : ∀ (b : Bool) (sync : SyncType),
              messages (if b then [Output.announce sync] else []) = [] := fun b sync => by
            cases b <;> rfl
          simp only [proceed, step, hquiet]
          have hn : (ledger s).lastSyncType = s.lastSyncType := rfl
          rw [hn]
          split <;> rfl
        next => split <;> rfl

theorem ledger_service (call : ServiceCall) :
    step (ledger s) (entry build s (.service call r)) =
      some (ledger (serviceDispatch build r call s).1, messages (serviceDispatch build r call s).2) := by
  cases call with
  | lastSyncInfo | unknown => rfl
  | canSetTime =>
      simp only [entry, step, serviceDispatch, handleCanSetTime, canSetTime, ledger_forgetJump]
      rfl
  | setTime requested =>
      cases requested with
      | none => rfl
      | some t =>
          simp only [entry, serviceDispatch, handleSetTime]
          cases hs : isSaneTime build t with
          | false => rfl
          | true =>
              have hcan : (canSetTime r s).1 = granted r (ledger s) := by
                rw [granted, ← ledger_forgetJump]
                rfl
              cases hg : granted r (ledger s) with
              | false =>
                  have hstate : ledger (canSetTime r s).2 = settled r (ledger s) := ledger_forgetJump
                  simp only [if_true, step, hg, hcan, Bool.not_true, Bool.not_false, Bool.false_eq_true,
                    if_false, hstate]
                  rfl
              | true =>
                  have hstored : ledger (triggerEvent { (canSetTime r s).2 with
                      lastTime := t, lastSyncType := .platform } .save (-1)) =
                      { settled r (ledger s) with
                        lastTime := t, lastSyncType := .platform, save := arm (ledger s).save } := by
                    rw [ledger_armSave, ← ledger_forgetJump]
                    rcases forgetJump_frame r s with h | h <;> simp only [canSetTime, h] <;> rfl
                  have hz : (settled r (ledger s)).clockDelta = 0 := by
                    simpa only [granted, beq_iff_eq] using hg
                  simp only [if_true, step, hg, hcan, Bool.not_true, Bool.false_eq_true, if_false,
                    ledger_kickoff, hstored]
                  exact congrArg (fun l => some (l, [])) (settled_zero (by exact hz)).symm

theorem ledger_resolveProxy (send : Option Nat) (ctx : Platform) :
    ledger (actionResolveProxy send (eventDel s .resolver) ctx).1 = ledger s ∧
      messages (actionResolveProxy send (eventDel s .resolver) ctx).2.2 = [] := by
  have hdel := ledger_eventDel (s := s) .resolver rfl
  obtain h | ⟨-, -, h | h | ⟨serial, url, -, h⟩⟩ := actionResolveProxy_cases send (eventDel s .resolver) ctx
  all_goals
    rw [h]
    refine ⟨?_, rfl⟩
  · exact hdel
  · exact (ledger_triggerEvent .tlsdate rfl).trans hdel
  · exact hdel
  · exact hdel

theorem ledger_bus (msg : BusMessage) (ctx : Platform) :
    step (ledger s) (entry build s (.bus msg r)) = some (ledger (dbusFilter r msg s ctx).1, []) := by
  have hretry : ∀ t : State, ledger (triggerEvent t .tlsdate 1) = ledger t := fun t =>
    ledger_triggerEvent .tlsdate rfl
  cases msg with
  | wake => simp only [entry, step_jump, dbusFilter, ledger_kickoff]
  | disconnected | methodReturn _ | other => rfl
  | serviceUnknown =>
      simp only [entry, step, dbusFilter, hretry]
      rfl
  | resolved url proxy =>
      obtain h | ⟨-, h⟩ := handleProxyChange_cases url proxy s
      all_goals rw [dbusFilter, h]
      · rfl
      · rw [hretry]
        rfl

/-- The ledger of the daemon makes the step that the event means to it. -/
theorem moved_ledger {ctx : Platform} {e : Event} {s' : State} {out : List Output}
    (hm : Moved build s ctx e s' out) :
    step (ledger s) (entry build s e) = some (ledger s', messages out) := by
  cases hm with
  | continuity r => simp only [entry, step_jump, ledger_kickoff, messages, List.filterMap_nil]
  | routeUp cue r =>
      rcases cue with (_ | _) | (_ | _)
      · rfl
      · simp only [entry, step_jump, actionRouteUp, ledger_kickoff, messages, List.filterMap_nil]
      · simp only [entry, step, actionRouteUp, messages, List.filterMap_nil,
          ledger_eventDel (s := s) .routeup rfl]
      · simp only [entry, step_jump, actionRouteUp, ledger_kickoff, messages, List.filterMap_nil]
  | invalidate r =>
      simp only [entry, actionInvalidateTime]
      split
      next => rfl
      next =>
        rw [ledger_kickoff]
        rfl
  | runTlsdate fork => exact ledger_runTlsdate fork
  | tlsdateStatus read h => exact ledger_tlsdateStatus read h
  | tlsdateTimeout =>
      have hdel := ledger_eventDel (s := s) .tlsdateTimeout rfl
      have hquiet : messages (actionTlsdateTimeout (eventDel s .tlsdateTimeout)) = [] := by
        simp only [actionTlsdateTimeout]
        split <;> rfl
      rw [hdel, hquiet]
      rfl
  | sigchld waits =>
      rw [(ledger_sigchld waits).1, (ledger_sigchld waits).2]
      rfl
  | sigterm now =>
      cases now with
      | none => rfl
      | some sec =>
          have harm : ledger (triggerEvent { s with exitting := true, lastTime := sec } .save (-1)) =
              { ledger s with exitting := true, lastTime := sec, save := arm (ledger s).save } :=
            ledger_armSave
          simp only [entry, step, actionSigterm, proceed, harm, messages, List.filterMap_nil]
  | save readable write shutdown h =>
      have harmed : armed (ledger s).save = true := h
      simp only [entry, step, harmed, if_true, ledger_save]
  | timeSet read r => exact ledger_timeSet read
  | service call r => exact ledger_service call
  | resolveProxy send =>
      rw [(ledger_resolveProxy send ctx).1, (ledger_resolveProxy send ctx).2]
      rfl
  | bus msg r => exact ledger_bus msg ctx

end Simulation

theorem step_ledger {build : Build} {d d' : Daemon} {e : Event} {out : List Output}
    (h : EventLoop.step build d e = some (d', out)) :
    step (ledger d.state) (entry build d.state e) = some (ledger d'.state, messages out) :=
  moved_ledger (step_moved h).2

/-- Every run of the daemon is a run of its ledger, with the messages as outputs. -/
theorem run_ledger {build : Build} {C : Daemon → Event → Prop} {D : Ledger → Entry → Prop}
    {d₀ d : Daemon} {es : List Event} {out : List Output}
    (hCD : ∀ d e, C d e → D (ledger d.state) (entry build d.state e))
    (h : Machine.Run (EventLoop.step build) C d₀ es d out) :
    ∃ fs, Machine.Run step D (ledger d₀.state) fs (ledger d.state) (messages out) :=
  h.simulate (fun d => ledger d.state) (fun d => entry build d.state) messages rfl messages_append
    (fun d e _ _ hC hs => ⟨hCD d e hC, step_ledger hs⟩)

theorem armed_arm {p : Option Pending} (h : p.isSome = true) : armed (arm p) = true := by
  obtain ⟨q, rfl⟩ := Option.isSome_iff_exists.mp h
  rfl

theorem armed_disarm (p : Option Pending) : armed (disarm p) = false := by
  cases p <;> rfl

theorem settled_steady {r : Readings} {l : Ledger} (h : jumped r l = false) : settled r l = l := by
  simp only [settled, h, Bool.false_eq_true, if_false]

@[simp] theorem settled_status (r : Readings) (l : Ledger) : (settled r l).status = l.status := by
  simp only [settled]
  split <;> rfl

@[simp] theorem settled_save (r : Readings) (l : Ledger) : (settled r l).save = l.save := by
  simp only [settled]
  split <;> rfl

theorem step_saved {l l' : Ledger} {readable : Bool} {write shutdown : WriteResult} {out : List Int}
    (h : step l (.save readable write shutdown) = some (l', out)) :
    ∃ t, (t = l.lastTime ∨ t = 0) ∧ l' = { l with save := disarm l.save, lastTime := t } := by
  simp only [step, saved] at h
  split at h
  next =>
    split at h
    next =>
      cases h
      exact ⟨_, Or.inl rfl, rfl⟩
    next =>
      split at h
      next =>
        cases h
        exact ⟨_, Or.inr rfl, rfl⟩
      next =>
        cases h
        exact ⟨_, Or.inl rfl, rfl⟩
  next => cases h

theorem step_writes {l l' : Ledger} {e : Entry} {out : List Int} (h : step l e = some (l', out)) :
    out = [] ∨ ∃ readable write shutdown, armed l.save = true ∧
      out = (saved readable write shutdown l).2 := by
  cases e with
  | save readable write shutdown =>
      simp only [step] at h
      split at h
      next ha =>
        simp only [Option.some.injEq] at h
        exact Or.inr ⟨readable, write, shutdown, ha, by rw [h]⟩
      next => cases h
  | listen | hangUp | accept t =>
      simp only [step] at h
      split at h <;> cases h
      exact Or.inl rfl
  | sigterm now => cases now <;> cases h <;> exact Or.inl rfl
  | _ =>
      cases h
      exact Or.inl rfl

theorem step_save {l l' : Ledger} {e : Entry} {out : List Int} (h : step l e = some (l', out)) :
    l'.save.isSome = l.save.isSome := by
  cases e with
  | idle | badTime r => cases h; rfl
  | jump r => cases h; simp
  | invalidate r => cases h; simp [invalidated]
  | listen =>
      simp only [step] at h
      split at h <;> cases h
      rfl
  | hangUp =>
      simp only [step] at h
      split at h <;> cases h
      rfl
  | accept t =>
      simp only [step] at h
      split at h <;> cases h
      simp [arm]
  | sigterm now => cases now <;> cases h <;> simp [arm]
  | save readable write shutdown =>
      obtain ⟨t, -, rfl⟩ := step_saved h
      simp [disarm]
  | timeSet r =>
      cases h
      split <;> rfl
  | setTime t r =>
      cases h
      split <;> simp [arm]

theorem startup_ledger {build : Build} {order : HostBytes.ByteOrder} {opts : Opts} {platform : Bool}
    {setterPid : Nat} {now : Int} {file : TimestampFile.File} {n : BitVec 32} {r : Readings}
    {d : Daemon} (h : startup build order opts platform setterPid now file n r = some d) :
    (ledger d.state).lastSyncType ≠ .net ∧ isSaneTime build (ledger d.state).lastTime = true ∧
      (ledger d.state).save = some .waiting := by
  obtain ⟨s, hs, he⟩ := startup_fresh h
  rw [he, ledger_kickoff, settled_zero hs.clockDelta]
  exact ⟨hs.lastSyncType, hs.lastTime, hs.save⟩

theorem save_allocated {build : Build} {order : HostBytes.ByteOrder} {opts : Opts} {platform : Bool}
    {setterPid : Nat} {now : Int} {file : TimestampFile.File} {n : BitVec 32} {r : Readings}
    {C : Daemon → Event → Prop} {d₀ d : Daemon} {es : List Event} {out : List Output}
    (h : startup build order opts platform setterPid now file n r = some d₀)
    (hr : Machine.Run (EventLoop.step build) C d₀ es d out) :
    (ledger d.state).save.isSome = true := by
  obtain ⟨fs, hl⟩ := run_ledger (D := Machine.Free) (fun _ _ _ => trivial) hr
  refine hl.invariant (fun l => l.save.isSome = true) ?_ (fun l e l' o hi _ hs => ?_)
  · rw [(startup_ledger h).2.2]
    rfl
  · rw [step_save hs]
    exact hi

end Tlsdate.TimeLedger
