import Tlsdate.AttemptTurns
import Tlsdate.WakeProgress

namespace Tlsdate.TimerDelays

open CInt HostBytes TimeSource Options TimestampFile DaemonState Kickoff Attempts Saving DBusService
  ProxyResolver EventLoop AttemptTurns WakeProgress

abbrev Call := EventId × Int

/-- The calls that lead from one state to a later one. -/
def asked (s s' : State) : List Call := s'.triggers.drop s.triggers.length

def scheduleCalls (jitter : Int) (s : State) : List Call :=
  if s.lastSyncType = .net ∨ 0 < s.tries ∨ timerPending s .tlsdate = true then []
  else if s.events .resolver = none then [(.tlsdate, jitter)]
  else [(.tlsdate, toInt (jitter + resolverTimeout)), (.resolver, jitter)]

def kickoffCalls (r : Readings) (s : State) : List Call :=
  scheduleCalls (kickoffJitter r s) (forgetJump r s)

def beginCalls (s : State) : List Call :=
  if begins s then [(.tlsdateTimeout, s.opts.subprocessWaitBetweenTries), (.tlsdateStatus, -1)]
  else []

def statusCalls (build : Build) : MonitorRead → List Call
  | .truncated => [(.tlsdateTimeout, 0)]
  | .again => [(.tlsdateStatus, -1)]
  | .word t => if isSaneTime build t.toNat then [(.save, -1)] else []

def reapCalls (status : Int) (s : State) : List Call :=
  if status = 0 then []
  else if s.events .resolver = none then [(.tlsdate, toInt (nextBackoff s.backoff))]
  else [(.tlsdate, toInt (resolverTimeout + nextBackoff s.backoff)),
    (.resolver, toInt (nextBackoff s.backoff))]

def waitCalls (s : State) : Wait → List Call
  | .died pid status =>
      if pid = s.setterPid ∨ pid ≠ s.tlsdatePid then [] else reapCalls status s
  | .stopped _ _ => []

def sigchldCalls : List Wait → State → List Call
  | [], _ => []
  | w :: ws, s => waitCalls s w ++ sigchldCalls ws (handleWait s w).state

def resolveCalls (s : State) (ctx : Platform) : List Call :=
  match predictedSource s.opts with
  | none => []
  | some src =>
      if s.resolving || ctx.serial != 0 || (ctx.resolveMsg.getD src.id none).isSome then []
      else [(.tlsdate, 1)]

def proxyCalls (url : String) (s : State) : List Call :=
  match predictedSource s.opts with
  | none => []
  | some src =>
      if !s.resolving || url.toList != (timeHost src).toList.take (maxProxyUrl - 1) then []
      else [(.tlsdate, 1)]

/-- The calls of a callback, read off the state that it starts from. -/
def calls (build : Build) (d : Daemon) : Event → List Call
  | .continuity r | .bus .wake r => kickoffCalls r d.state
  | .routeUp (.netlink changed) r => if changed then kickoffCalls r d.state else []
  | .routeUp (.stdin received) r => if received then kickoffCalls r d.state else []
  | .invalidate r => if acquiring d.state then [] else kickoffCalls r (invalidateTime r d.state)
  | .runTlsdate _ => beginCalls d.state
  | .tlsdateStatus read => statusCalls build read
  | .sigchld waits => sigchldCalls waits d.state
  | .sigterm (some _) => [(.save, -1)]
  | .service (.setTime (some t)) r =>
      if isSaneTime build t && (canSetTime r d.state).1 then
        (.save, -1) :: kickoffCalls r (triggerEvent { (canSetTime r d.state).2 with
          lastTime := t, lastSyncType := .platform } .save (-1))
      else []
  | .resolveProxy _ => resolveCalls d.state d.platform
  | .bus (.resolved url _) _ => proxyCalls url d.state
  | .bus .serviceUnknown _ => [(.tlsdate, 1)]
  | _ => []

section Triggers

variable {build : Build} (s : State)

theorem scheduleAttempt_triggers (jitter : Int) :
    (scheduleAttempt jitter s).triggers = s.triggers ++ scheduleCalls jitter s := by
  simp only [scheduleAttempt, scheduleCalls]
  by_cases hn : s.lastSyncType = .net
  · simp [hn]
  · by_cases ht : 0 < s.tries
    · simp [hn, ht]
    · cases hp : timerPending s .tlsdate with
      | true => simp [hn, ht]
      | false => by_cases hr : s.events .resolver = none <;> simp [hn, ht, hr]

theorem forgetJump_triggers (r : Readings) : (forgetJump r s).triggers = s.triggers := by
  obtain h | h := forgetJump_frame r s <;> rw [h]

theorem kickoff_triggers (r : Readings) :
    (actionKickoffTimeSync r s).triggers = s.triggers ++ kickoffCalls r s := by
  rw [actionKickoffTimeSync, scheduleAttempt_triggers, forgetJump_triggers]
  rfl

theorem armed_triggers : (armed s).triggers = s.triggers ++
    [(.tlsdateTimeout, s.opts.subprocessWaitBetweenTries), (.tlsdateStatus, -1)] := by
  rw [armed, triggerEvent_triggers, triggerEvent_triggers, List.append_assoc]
  rfl

theorem actionRunTlsdate_triggers (fork : Option Nat) :
    (actionRunTlsdate fork s).1.triggers = s.triggers ++ beginCalls s := by
  obtain ⟨hb, he⟩ | ⟨hb, tries, backoff, resolving, he⟩ := actionRunTlsdate_cases fork s
  · have harmed := armed_triggers { s with resolving := false }
    rw [he, beginCalls, if_pos hb]
    cases fork with
    | none => exact harmed
    | some pid => exact harmed
  · rw [he, beginCalls, hb, if_neg Bool.false_ne_true, List.append_nil]

theorem actionTlsdateStatus_triggers (read : MonitorRead) :
    (actionTlsdateStatus build read s).triggers = s.triggers ++ statusCalls build read := by
  cases read with
  | truncated | again => exact triggerEvent_triggers _ _ _
  | word t =>
      simp only [actionTlsdateStatus, statusCalls]
      split_ifs
      · exact triggerEvent_triggers _ _ _
      · exact (List.append_nil _).symm

theorem reapTlsdate_triggers (status : Int) :
    (reapTlsdate status s).triggers = s.triggers ++ reapCalls status s := by
  obtain ⟨hz, he⟩ | ⟨hz, t, rfl, ⟨hr, he⟩ | ⟨hr, he⟩⟩ := reapTlsdate_cases status s
  all_goals rw [he, reapCalls]
  · rw [if_pos hz]
    exact (List.append_nil _).symm
  · rw [if_neg hz, if_pos hr, triggerEvent_triggers, retryDelay, if_pos hr]
    rfl
  · rw [if_neg hz, if_neg hr, triggerEvent_triggers, triggerEvent_triggers, List.append_assoc,
      retryDelay, if_neg hr]
    rfl

theorem handleWait_triggers (w : Wait) :
    (handleWait s w).state.triggers = s.triggers ++ waitCalls s w := by
  cases w with
  | stopped pid permitted => cases permitted <;> exact (List.append_nil _).symm
  | died pid status =>
      rw [handleWait, handleChildDeath, waitCalls]
      split_ifs with hs hor hp hor
      · exact (List.append_nil _).symm
      · exact absurd (Or.inl hs) hor
      · exact (List.append_nil _).symm
      · exact absurd (Or.inr hp) hor
      · exact absurd ‹_› (not_or.mpr ⟨hs, hp⟩)
      · exact reapTlsdate_triggers s status

theorem actionSigchld_triggers {waits : List Wait} (h : validWaits waits = true) :
    (actionSigchld waits s).state.triggers = s.triggers ++ sigchldCalls waits s := by
  induction waits generalizing s with
  | nil => exact (List.append_nil _).symm
  | cons w ws ih =>
      obtain ⟨-, hlast, hrest⟩ := validWaits_cons.mp h
      obtain ⟨hrefused, he⟩ | ⟨-, he, -⟩ := actionSigchld_cons w ws s
      · rw [he, hlast hrefused, sigchldCalls, sigchldCalls, List.append_nil, handleWait_triggers]
      · rw [he, ih _ hrest, handleWait_triggers, sigchldCalls, List.append_assoc]

theorem actionResolveProxy_triggers (send : Option Nat) (ctx : Platform) :
    (actionResolveProxy send s ctx).1.triggers = s.triggers ++ resolveCalls s ctx := by
  simp only [actionResolveProxy, resolveCalls]
  cases predictedSource s.opts with
  | none => exact (List.append_nil _).symm
  | some src =>
      dsimp only
      generalize (s.resolving || ctx.serial != 0) = busy
      generalize ctx.resolveMsg.getD src.id none = msg
      cases busy <;> cases msg <;> cases send <;> simp

theorem handleProxyChange_triggers (url proxy : String) :
    (handleProxyChange url proxy s).triggers = s.triggers ++ proxyCalls url s := by
  simp only [handleProxyChange, proxyCalls]
  cases predictedSource s.opts with
  | none => exact (List.append_nil _).symm
  | some src =>
      cases s.resolving with
      | false => exact (List.append_nil _).symm
      | true =>
          by_cases hu : url.toList = (timeHost src).toList.take (maxProxyUrl - 1) <;> simp [hu]

theorem moved_triggers {d : Daemon} {e : Event} {s' : State} {out : List Output}
    (h : Moved build d.state d.platform e s' out) :
    s'.triggers = d.state.triggers ++ calls build d e := by
  cases h with
  | continuity r => exact kickoff_triggers d.state r
  | routeUp cue r =>
      rcases cue with (_ | _) | (_ | _)
      · exact (List.append_nil _).symm
      · exact kickoff_triggers d.state r
      · exact (List.append_nil _).symm
      · exact kickoff_triggers d.state r
  | invalidate r =>
      rw [actionInvalidateTime, calls]
      split_ifs
      · exact (List.append_nil _).symm
      · exact kickoff_triggers (invalidateTime r d.state) r
  | runTlsdate fork => exact actionRunTlsdate_triggers (eventDel d.state .tlsdate) fork
  | tlsdateStatus read => exact actionTlsdateStatus_triggers (eventDel d.state .tlsdateStatus) read
  | tlsdateTimeout => exact (List.append_nil _).symm
  | sigchld waits hw => exact actionSigchld_triggers d.state hw
  | sigterm now =>
      cases now with
      | none => exact (List.append_nil _).symm
      | some sec => exact triggerEvent_triggers _ _ _
  | save readable write shutdown =>
      obtain h | h := (actionSyncAndSave_cases readable write shutdown (eventDel d.state .save)).1
      all_goals
        rw [h]
        exact (List.append_nil _).symm
  | timeSet read r =>
      obtain h | h | ⟨-, h⟩ := (actionTimeSet_cases r read d.state).1
      all_goals
        rw [h]
        exact (List.append_nil _).symm
  | service call r =>
      have hforget := (forgetJump_triggers d.state r).trans (List.append_nil _).symm
      cases call with
      | canSetTime => exact hforget
      | lastSyncInfo | unknown => exact (List.append_nil _).symm
      | setTime requested =>
          cases requested with
          | none => exact (List.append_nil _).symm
          | some t =>
              simp only [serviceDispatch, handleSetTime, calls]
              cases isSaneTime build t with
              | false => exact (List.append_nil _).symm
              | true =>
                  cases hcan : (canSetTime r d.state).1 with
                  | false => exact hforget
                  | true =>
                      have hcanned : (canSetTime r d.state).2.triggers = d.state.triggers :=
                        forgetJump_triggers d.state r
                      simp only [kickoff_triggers, triggerEvent_triggers, hcanned, Bool.not_true,
                        Bool.false_eq_true, if_false, Bool.and_self, if_true, List.append_assoc,
                        List.singleton_append]
  | resolveProxy send => exact actionResolveProxy_triggers (eventDel d.state .resolver) send d.platform
  | bus msg r =>
      cases msg with
      | wake => exact kickoff_triggers d.state r
      | disconnected | methodReturn | other => exact (List.append_nil _).symm
      | serviceUnknown => exact triggerEvent_triggers _ _ _
      | resolved url proxy => exact handleProxyChange_triggers d.state url proxy

theorem step_asked {d d' : Daemon} {e : Event} {out : List Output}
    (h : EventLoop.step build d e = some (d', out)) :
    d'.state.triggers = d.state.triggers ++ calls build d e ∧
      asked d.state d'.state = calls build d e := by
  have htriggers := moved_triggers (step_moved h).2
  exact ⟨htriggers, by rw [asked, htriggers, List.drop_left]⟩

end Triggers

def Armed (calls : List Call) : Prop := ∀ call ∈ calls, attemptTimer call.1 = true → 0 ≤ call.2

/-- No jump is answered with the random value that has no absolute value. -/
def Jumped (r : Readings) (s : State) : Prop :=
  desynced r s = true → s.tries ≤ 0 → timerPending s .tlsdate = false → r.random.toInt ≠ -2 ^ 31

/-- A delay between tries that stays one when it is doubled, and when the
timeout of the resolver is added to it. -/
def Retriable (s : State) : Prop :=
  0 < s.opts.waitBetweenTries ∧
    (s.events .resolver ≠ none → s.opts.waitBetweenTries + resolverTimeout < 2 ^ 31)

def failed (s : State) : Wait → Bool
  | .died pid status => pid != s.setterPid && pid == s.tlsdatePid && status != 0
  | .stopped _ _ => false

def failures : List Wait → State → Bool
  | [], _ => false
  | w :: ws, s => failed s w || failures ws (handleWait s w).state

def Armable (d : Daemon) : Event → Prop
  | .continuity r | .bus .wake r => Jumped r d.state
  | .routeUp (.netlink changed) r => changed = true → Jumped r d.state
  | .routeUp (.stdin received) r => received = true → Jumped r d.state
  | .invalidate r => acquiring d.state = false → Jumped r d.state
  | .runTlsdate _ => begins d.state = true → 0 ≤ d.state.opts.subprocessWaitBetweenTries
  | .sigchld waits => failures waits d.state = true → Retriable d.state
  | _ => True

/-- The backoff starts from the configured delay, and doubles below a limit. -/
def Backing (wait : Int) (backoff : Nat) : Prop :=
  backoff = toUInt wait ∨
    0 < wait ∧ wait < maxSaneBackoff ∧ 0 < backoff ∧ backoff < 2 * maxSaneBackoff

theorem armed_nil : Armed [] := fun _ h => by cases h

theorem armed_cons {call : Call} {calls : List Call} :
    Armed (call :: calls) ↔ (attemptTimer call.1 = true → 0 ≤ call.2) ∧ Armed calls :=
  List.forall_mem_cons

theorem armed_append {calls calls' : List Call} :
    Armed (calls ++ calls') ↔ Armed calls ∧ Armed calls' := List.forall_mem_append

theorem addJitter_nonneg (n : BitVec 32) : 0 ≤ addJitter 30 30 n ↔ n.toInt ≠ -2 ^ 31 := by
  refine ⟨fun h hn => ?_, (addJitter_range n).2.2⟩
  have hneg : addJitter 30 30 n = -8 := by
    rw [addJitter, if_neg (by decide), hn]
    decide
  omega

theorem scheduleCalls_armed {jitter : Int} {s : State} (hl : -30 ≤ jitter) (hu : jitter < 60) :
    Armed (scheduleCalls jitter s) ↔ (s.lastSyncType ≠ .net → s.tries ≤ 0 →
      timerPending s .tlsdate = false → 0 ≤ jitter) := by
  rw [scheduleCalls]
  split
  next h =>
    refine iff_of_true armed_nil fun hn ht hp => ?_
    rcases h with h | h | h
    · exact absurd h hn
    · omega
    · rw [hp] at h
      cases h
  next h =>
    simp only [not_or, not_lt, Bool.not_eq_true] at h
    obtain ⟨hn, ht, hp⟩ := h
    have hneed : (s.lastSyncType ≠ .net → s.tries ≤ 0 → timerPending s .tlsdate = false →
        0 ≤ jitter) ↔ 0 ≤ jitter := ⟨fun h => h hn ht hp, fun h _ _ _ => h⟩
    rw [hneed]
    split
    next => simp [armed_cons, armed_nil, attemptTimer]
    next =>
      have hsum : toInt (jitter + resolverTimeout) = jitter + 30 := by
        rw [resolverTimeout, toInt_of_range] <;> omega
      simp only [armed_cons, attemptTimer, true_implies, hsum, armed_nil, and_true]
      omega

theorem kickoffCalls_armed (r : Readings) (s : State) :
    Armed (kickoffCalls r s) ↔ Jumped r s := by
  obtain ⟨hlo, hhi, -⟩ := addJitter_range r.random
  rw [kickoffCalls, Jumped]
  cases hd : desynced r s with
  | false =>
      have hz : kickoffJitter r s = 0 := by simp [kickoffJitter, hd]
      rw [hz, scheduleCalls_armed (by decide) (by decide)]
      simp
  | true =>
      have hne : s.clockDelta ≠ 0 := fun h => by
        rw [desynced_zero h] at hd
        cases hd
      have hj : kickoffJitter r s = addJitter 30 30 r.random := by simp [kickoffJitter, hd, hne]
      have hf : forgetJump r s = invalidateTime r { s with clockDelta := 0 } := by
        rw [forgetJump, if_pos hd]
      rw [hj, hf, scheduleCalls_armed (by omega) hhi, addJitter_nonneg]
      simp only [invalidateTime, ne_eq, reduceCtorEq, not_false_eq_true, true_implies]
      rfl

/-- The delay between tries is a nonzero `int`. -/
def IntWait (wait : Int) : Prop := -2 ^ 31 ≤ wait ∧ wait < 2 ^ 31 ∧ wait ≠ 0

theorem nextBackoff_eq (backoff : Nat) : backoff < maxSaneBackoff ∧ nextBackoff backoff = backoff * 2 ∨
    maxSaneBackoff ≤ backoff ∧ nextBackoff backoff = backoff := by
  rw [nextBackoff]
  split
  next h =>
    have hlt : backoff * 2 < 2 ^ 32 := by
      rw [maxSaneBackoff] at h
      omega
    exact Or.inl ⟨h, Nat.mod_eq_of_lt hlt⟩
  next h => exact Or.inr ⟨not_lt.mp h, rfl⟩

theorem toUInt_cast (x : Int) : (toUInt x : Int) = x % 2 ^ 32 := by
  rw [toUInt, Int.toNat_of_nonneg (Int.emod_nonneg _ (by norm_num))]

theorem nextBackoff_cases {wait : Int} {backoff : Nat} (hw : IntWait wait)
    (hb : Backing wait backoff) :
    (wait < 0 ∧ (nextBackoff backoff : Int) = wait + 2 ^ 32) ∨
      (maxSaneBackoff ≤ wait ∧ (nextBackoff backoff : Int) = wait) ∨
      (0 < wait ∧ wait < maxSaneBackoff ∧ 0 < nextBackoff backoff ∧
        nextBackoff backoff < 2 * maxSaneBackoff) := by
  obtain ⟨hlo, hhi, hne⟩ := hw
  have hmax : maxSaneBackoff = 600 := rfl
  have hnext := nextBackoff_eq backoff
  rw [hmax] at hnext ⊢
  rcases hb with rfl | ⟨hpos, hsmall, hb, hlt⟩
  · have hcast := toUInt_cast wait
    omega
  · omega

theorem Backing.next {wait : Int} {backoff : Nat} (hw : IntWait wait) (hb : Backing wait backoff) :
    Backing wait (nextBackoff backoff) := by
  have hcast := toUInt_cast wait
  have hcases := nextBackoff_cases hw hb
  obtain ⟨hlo, hhi, -⟩ := hw
  rcases hcases with ⟨hneg, he⟩ | ⟨hlarge, he⟩ | h
  · exact Or.inl (by omega)
  · exact Or.inl (by omega)
  · exact Or.inr h

theorem toInt_nonneg_of_neg {wait : Int} (hlo : -2 ^ 31 ≤ wait) (h : wait < 0) :
    toInt (wait + 2 ^ 32) = wait := by
  rw [toInt, wrap_eq]
  split <;> omega

theorem reapCalls_armed {s : State} {status : Int} (hw : IntWait s.opts.waitBetweenTries)
    (hb : Backing s.opts.waitBetweenTries s.backoff) (hz : status ≠ 0) :
    Armed (reapCalls status s) ↔ Retriable s := by
  have hcases := nextBackoff_cases hw hb
  obtain ⟨hlo, hhi, hne⟩ := hw
  have hplain : 0 ≤ toInt (nextBackoff s.backoff) ↔ 0 < s.opts.waitBetweenTries := by
    rcases hcases with ⟨hneg, he⟩ | ⟨hlarge, he⟩ | ⟨hpos, -, -, hlt⟩
    · rw [he, toInt_nonneg_of_neg hlo hneg]
      omega
    · rw [he, toInt_of_range hlo hhi]
      omega
    · simp only [maxSaneBackoff] at hlt
      rw [toInt_of_range] <;> omega
  rw [reapCalls, if_neg hz, Retriable]
  split
  next hr => simp [armed_cons, armed_nil, attemptTimer, hplain, hr]
  next hr =>
    simp only [armed_cons, armed_nil, attemptTimer, and_true, hplain, ne_eq, hr, not_false_eq_true,
      true_implies]
    rw [and_comm]
    refine and_congr_right fun hpos => ?_
    rw [resolverTimeout]
    rcases hcases with ⟨hneg, -⟩ | ⟨hlarge, he⟩ | ⟨-, hsmall, -, hlt⟩
    · omega
    · rw [he, toInt, wrap_eq]
      split <;> omega
    · simp only [maxSaneBackoff] at hsmall hlt
      rw [toInt_of_range] <;> omega

structure Kept (s s' : State) : Prop where
  opts : s'.opts = s.opts
  resolver : s'.events .resolver ≠ none ↔ s.events .resolver ≠ none
  backoff : s'.backoff = s.backoff ∨ s'.backoff = nextBackoff s.backoff

theorem handleWait_kept (s : State) (w : Wait) : Kept s (handleWait s w).state := by
  have hreap : ∀ status, Kept s (reapTlsdate status s) := by
    intro status
    have hresolver (t : State) (h : (t.events .resolver).isSome = (s.events .resolver).isSome) :
        t.events .resolver ≠ none ↔ s.events .resolver ≠ none := by
      rw [← Option.isSome_iff_ne_none, ← Option.isSome_iff_ne_none, h]
    obtain ⟨-, he⟩ | ⟨-, t, rfl, ⟨-, he⟩ | ⟨-, he⟩⟩ := reapTlsdate_cases status s
    all_goals rw [he]
    · exact ⟨rfl, hresolver _ (by simp), Or.inl rfl⟩
    · exact ⟨by simp, hresolver _ (by simp), Or.inr (by simp)⟩
    · exact ⟨by simp, hresolver _ (by simp), Or.inr (by simp)⟩
  cases w with
  | stopped pid permitted =>
      simp only [handleWait, handleChildStop]
      split <;> exact ⟨rfl, Iff.rfl, Or.inl rfl⟩
  | died pid status =>
      simp only [handleWait, handleChildDeath]
      split
      next => exact ⟨rfl, Iff.rfl, Or.inl rfl⟩
      next =>
        split
        next => exact ⟨rfl, Iff.rfl, Or.inl rfl⟩
        next => exact hreap status

theorem waitCalls_armed {s : State} (hw : IntWait s.opts.waitBetweenTries)
    (hb : Backing s.opts.waitBetweenTries s.backoff) (w : Wait) :
    Armed (waitCalls s w) ↔ (failed s w = true → Retriable s) := by
  cases w with
  | stopped pid permitted => simp [waitCalls, failed, armed_nil]
  | died pid status =>
      simp only [waitCalls, failed]
      split
      next h =>
        refine iff_of_true armed_nil fun hf => ?_
        simp only [Bool.and_eq_true, bne_iff_ne, beq_iff_eq] at hf
        rcases h with h | h
        · exact absurd h hf.1.1
        · exact absurd hf.1.2 h
      next h =>
        simp only [not_or, not_not] at h
        obtain ⟨hs, rfl⟩ := h
        by_cases hz : status = 0
        · simp [hz, reapCalls, armed_nil]
        · rw [reapCalls_armed hw hb hz]
          simp [hs, hz]

theorem sigchldCalls_armed {waits : List Wait} {s : State} (hw : IntWait s.opts.waitBetweenTries)
    (hb : Backing s.opts.waitBetweenTries s.backoff) :
    Armed (sigchldCalls waits s) ↔ (failures waits s = true → Retriable s) := by
  induction waits generalizing s with
  | nil => simp [sigchldCalls, failures, armed_nil]
  | cons w ws ih =>
      obtain ⟨ho, hr, hback⟩ := handleWait_kept s w
      have hnext : Backing (handleWait s w).state.opts.waitBetweenTries
          (handleWait s w).state.backoff := by
        rw [ho]
        rcases hback with hsame | hdouble
        · rw [hsame]
          exact hb
        · rw [hdouble]
          exact hb.next hw
      have hretriable : Retriable (handleWait s w).state ↔ Retriable s := by
        rw [Retriable, Retriable, ho, hr]
      rw [sigchldCalls, armed_append, waitCalls_armed hw hb, ih (ho ▸ hw) hnext, hretriable, failures,
        Bool.or_eq_true, or_imp]

theorem calls_armed {build : Build} {d : Daemon} {e : Event}
    (hw : IntWait d.state.opts.waitBetweenTries)
    (hb : Backing d.state.opts.waitBetweenTries d.state.backoff) :
    Armed (calls build d e) ↔ Armable d e := by
  have hnone : Armed [] ↔ True := iff_of_true armed_nil trivial
  have hif : ∀ {b : Bool} {cs : List Call} {P : Prop}, (Armed cs ↔ P) →
      (Armed (if b then cs else []) ↔ (b = true → P)) := by
    intro b cs P h
    cases b with
    | true => simpa using h
    | false => simp [armed_nil]
  have hone : Armed [(EventId.tlsdate, 1)] := armed_cons.mpr ⟨fun _ => by norm_num, armed_nil⟩
  have hother {id : EventId} {sec : Int} {cs : List Call} (h : attemptTimer id = false) :
      Armed ((id, sec) :: cs) ↔ Armed cs := by simp [armed_cons, h]
  cases e with
  | continuity r => exact kickoffCalls_armed r d.state
  | routeUp cue r => cases cue <;> exact hif (kickoffCalls_armed r d.state)
  | invalidate r =>
      simp only [calls, Armable]
      split
      next ha => exact iff_of_true armed_nil fun hf => absurd ha (by rw [hf]; decide)
      next ha =>
        rw [kickoffCalls_armed]
        exact ⟨fun h _ => h, fun h => h (Bool.not_eq_true _ ▸ ha)⟩
  | runTlsdate fork =>
      refine hif ?_
      rw [armed_cons, hother rfl, and_iff_left armed_nil]
      exact forall_prop_of_true rfl
  | tlsdateStatus read =>
      cases read with
      | truncated => exact iff_of_true (armed_cons.mpr ⟨fun _ => le_rfl, armed_nil⟩) trivial
      | again => exact (hother rfl).trans hnone
      | word t => exact (hif ((hother rfl).trans hnone)).trans (iff_of_true (fun _ => trivial) trivial)
  | sigchld waits => exact sigchldCalls_armed hw hb
  | sigterm now =>
      cases now with
      | none => exact hnone
      | some sec => exact (hother rfl).trans hnone
  | service call r =>
      cases call with
      | setTime requested =>
          cases requested with
          | none => exact hnone
          | some t =>
              simp only [calls, Armable, iff_true]
              split
              next h =>
                rw [Bool.and_eq_true] at h
                have hz : (canSetTime r d.state).2.clockDelta = 0 := by
                  simpa only [canSetTime, beq_iff_eq] using h.2
                refine (hother rfl).mpr ((kickoffCalls_armed _ _).mpr fun hd => ?_)
                rw [desynced_zero (by simpa using hz)] at hd
                cases hd
              next => exact armed_nil
      | _ => exact hnone
  | resolveProxy send =>
      simp only [calls, Armable, iff_true, resolveCalls]
      repeat' split
      all_goals first | exact armed_nil | exact hone
  | bus msg r =>
      cases msg with
      | wake => exact kickoffCalls_armed r d.state
      | resolved url proxy =>
          simp only [calls, Armable, iff_true, proxyCalls]
          repeat' split
          all_goals first | exact armed_nil | exact hone
      | serviceUnknown => exact iff_of_true hone trivial
      | _ => exact hnone
  | _ => exact hnone

theorem Backing.turn {c : Terms} {k : Cause} {a b : Attempt} {ms : List Mark}
    (hw : IntWait c.waitBetweenTries) (hb : Backing c.waitBetweenTries a.backoff)
    (ht : Turn c k a ms b) : Backing c.waitBetweenTries b.backoff := by
  cases ht with
  | rerun | exhausted | reply => exact Or.inl rfl
  | fail => exact hb.next hw
  | _ => exact hb

theorem Backing.moves {s s' : State} {k : Cause} {ms : List Mark} {wait : Int} (hw : IntWait wait)
    (hs : s.opts.waitBetweenTries = wait) (hb : Backing wait s.backoff) (h : Moves k s ms s') :
    s'.opts.waitBetweenTries = wait ∧ Backing wait s'.backoff := by
  subst hs
  refine ⟨congrArg Terms.waitBetweenTries h.1, ?_⟩
  exact h.2.preserve (I := fun a => Backing s.opts.waitBetweenTries a.backoff)
    (fun a ms b hi ht => hi.turn hw ht) hb

/-- The steady-state interval stays positive for every random value. -/
def SteadyRange (opts : Opts) : Prop :=
  opts.jitter ≠ 0 →
    2 ^ 31 % |toInt (2 * opts.jitter)| < opts.steadyStateInterval - opts.jitter ∧
      opts.steadyStateInterval - opts.jitter + |toInt (2 * opts.jitter)| ≤ 2 ^ 31

structure IntOpts (opts : Opts) : Prop where
  interval : -2 ^ 31 ≤ opts.steadyStateInterval ∧ opts.steadyStateInterval < 2 ^ 31
  jitter : -2 ^ 31 ≤ opts.jitter ∧ opts.jitter < 2 ^ 31
  wait : -2 ^ 31 ≤ opts.waitBetweenTries ∧ opts.waitBetweenTries < 2 ^ 31

theorem toInt_range (x : Int) : -2 ^ 31 ≤ toInt x ∧ toInt x < 2 ^ 31 := by
  rw [toInt, wrap_eq]
  split <;> omega

/-- The random part of a jitter, from the values that `abs` really leaves. -/
def spread (m x : Int) : Int := if x = -2 ^ 31 then -(2 ^ 31 % m) else |x| % m

theorem addJitter_eq {base jitter : Int} (n : BitVec 32) (hj : jitter ≠ 0) :
    addJitter base jitter n = toInt (base - jitter + spread |toInt (2 * jitter)| n.toInt) := by
  have hlo : -2 ^ 31 ≤ n.toInt := BitVec.le_toInt n
  have hhi : n.toInt < 2 ^ 31 := @BitVec.toInt_lt 32 n
  have hmod : (intAbs n.toInt).tmod (toInt (2 * jitter)) = spread |toInt (2 * jitter)| n.toInt := by
    rw [spread]
    split
    next hn =>
      have habs : intAbs n.toInt = -2 ^ 31 := by
        rw [hn]
        decide
      rw [habs, Int.neg_tmod, Int.tmod_eq_emod_of_nonneg (by norm_num), Int.emod_abs]
    next hn =>
      have habs : intAbs n.toInt = |n.toInt| := by
        rw [intAbs]
        split
        next hneg => rw [toInt_of_range (by omega) (by omega), abs_of_neg hneg]
        next hpos => rw [abs_of_nonneg (by omega)]
      rw [habs, Int.tmod_eq_emod_of_nonneg (abs_nonneg _), Int.emod_abs]
  rw [addJitter, if_neg hj, hmod]
  congr 1
  omega

theorem spread_min (m : Int) : spread m (BitVec.intMin 32).toInt = -(2 ^ 31 % m) := by
  rw [spread, if_pos (by decide)]

theorem spread_small {m x : Int} (h0 : 0 ≤ x) (hx : x < m) : spread m x = x := by
  rw [spread, if_neg (by omega), abs_of_nonneg h0, Int.emod_eq_of_lt h0 hx]

theorem spread_bounds {m : Int} (hm : 0 < m) (x : Int) :
    -(2 ^ 31 % m) ≤ spread m x ∧ spread m x < m := by
  have hmin := Int.emod_nonneg (2 ^ 31) hm.ne'
  rw [spread]
  split
  next => omega
  next =>
    have hnonneg := Int.emod_nonneg |x| hm.ne'
    exact ⟨by omega, Int.emod_lt_of_pos _ hm⟩

theorem steady_armed {opts : Opts} (h : IntOpts opts) (hc : opts.jitter < opts.steadyStateInterval) :
    (∀ n, 0 < addJitter opts.steadyStateInterval opts.jitter n) ↔ SteadyRange opts := by
  obtain ⟨⟨hil, hiu⟩, ⟨hjl, hju⟩, -⟩ := h
  rw [SteadyRange]
  by_cases hj : opts.jitter = 0
  · have hpos : 0 < opts.steadyStateInterval := by omega
    simp [addJitter, hj, hpos]
  · simp only [addJitter_eq _ hj, ne_eq, hj, not_false_eq_true, true_implies]
    obtain ⟨hml, hmu⟩ := toInt_range (2 * opts.jitter)
    generalize hm : |toInt (2 * opts.jitter)| = m
    generalize hD : opts.steadyStateInterval - opts.jitter = D
    have hm₀ : 0 ≤ m := hm ▸ abs_nonneg _
    have hm₁ : m ≤ 2 ^ 31 := hm ▸ abs_le.mpr ⟨hml, hmu.le⟩
    have hp : 0 ≤ (2 ^ 31 : Int) % m ∧ (2 ^ 31 : Int) % m ≤ 2 ^ 31 := by
      by_cases hz : m = 0
      · simp [hz]
      · exact ⟨Int.emod_nonneg _ hz, (Int.emod_lt_of_pos _ (by omega)).le.trans hm₁⟩
    constructor
    · intro hall
      have hzero : 0 < toInt D := by simpa [spread] using hall 0
      have hDu : D < 2 ^ 31 := by
        rw [toInt, wrap_eq] at hzero
        split at hzero <;> omega
      refine ⟨?_, ?_⟩
      · have hmin := hall (BitVec.intMin 32)
        rw [spread_min, toInt_of_range (by omega) (by omega)] at hmin
        omega
      · by_contra hgt
        have hr : (BitVec.ofInt 32 (2 ^ 31 - D)).toInt = 2 ^ 31 - D := by
          rw [BitVec.toInt_ofInt]
          exact toInt_of_range (by omega) (by omega)
        have hbad := hall (BitVec.ofInt 32 (2 ^ 31 - D))
        have hsum : D + (2 ^ 31 - D) = 2 ^ 31 := by omega
        rw [hr, spread_small (by omega) (by omega), hsum] at hbad
        exact absurd hbad (by decide)
    · rintro ⟨hlow, hhigh⟩ n
      have hpos : 0 < m := by
        by_contra hz
        obtain rfl : m = 0 := by omega
        simp at hlow
        omega
      have hspread := spread_bounds hpos n.toInt
      rw [toInt_of_range (by omega) (by omega)]
      omega

theorem checkConf_jitter {opts : Opts} (h : checkConf opts = true) :
    opts.waitBetweenTries ≠ 0 ∧ opts.jitter < opts.steadyStateInterval := by
  simp only [checkConf, Bool.and_eq_true, bne_iff_ne, decide_eq_true_iff] at h
  exact ⟨h.1.1.1.2, h.2⟩

theorem kickoff_steadystate (r : Readings) (s : State) :
    (actionKickoffTimeSync r s).events .steadystate = s.events .steadystate := by
  have hforget : (forgetJump r s).events = s.events := by
    obtain h | h := forgetJump_frame r s <;> rw [h]
  have htrigger (t : State) {id : EventId} (sec : Int) (h : EventId.steadystate ≠ id) :
      (triggerEvent t id sec).events .steadystate = t.events .steadystate :=
    triggerEvent_other t sec h (by decide)
  rw [actionKickoffTimeSync, scheduleAttempt, ← hforget]
  split_ifs
  · rfl
  · rfl
  · rfl
  · exact htrigger _ _ (by decide)
  · exact (htrigger _ _ (by decide)).trans (htrigger _ _ (by decide))

theorem platformInitCros_interval {s s' : State} {ctx : Platform}
    (h : platformInitCros s = some (s', ctx)) :
    s'.opts.steadyStateInterval = s.opts.steadyStateInterval ∧ s'.opts.jitter = s.opts.jitter := by
  rw [platformInitCros] at h
  split at h
  · cases h
  · cases h
    exact ⟨rfl, rfl⟩

theorem startup_steadystate {build : Build} {order : ByteOrder} {opts : Opts} {platform : Bool}
    {setterPid : Nat} {now : Int} {file : File} {n : BitVec 32} {r : Readings} {d₀ : Daemon}
    (h : startup build order opts platform setterPid now file n r = some d₀) :
    d₀.state.events .steadystate = some (.timer (addJitter opts.steadyStateInterval opts.jitter n)) := by
  simp only [startup] at h
  split at h
  next => cases h
  next =>
    obtain ⟨⟨s, ctx⟩, hs, rfl⟩ := Option.map_eq_some_iff.mp h
    have hdefault : (withDefaultSource opts).steadyStateInterval = opts.steadyStateInterval ∧
        (withDefaultSource opts).jitter = opts.jitter := by
      rw [withDefaultSource]
      split_ifs <;> exact ⟨rfl, rfl⟩
    have hopts : s.opts.steadyStateInterval = opts.steadyStateInterval ∧ s.opts.jitter = opts.jitter := by
      split at hs
      next =>
        obtain ⟨hinterval, hjitter⟩ := platformInitCros_interval hs
        rw [hinterval, hjitter]
        simpa [savedStart] using hdefault
      next =>
        cases hs
        simpa [savedStart] using hdefault
    refine (kickoff_steadystate r _).trans ?_
    rw [← hopts.1, ← hopts.2]
    simp [setupWakes]

theorem startup_armed {build : Build} {order : ByteOrder} {opts : Opts} {platform : Bool}
    {setterPid : Nat} {now : Int} {file : File} {n : BitVec 32} {r : Readings} {d₀ : Daemon}
    (h : startup build order opts platform setterPid now file n r = some d₀) :
    Armed d₀.state.triggers := by
  obtain ⟨s, hs, he⟩ := startup_fresh h
  rw [he, kickoff_triggers, armed_append, hs.triggers, kickoffCalls_armed]
  refine ⟨armed_cons.mpr ⟨fun ht => absurd ht (by decide), armed_nil⟩, fun hd => ?_⟩
  rw [desynced_zero hs.clockDelta] at hd
  cases hd

/-- The steady-state timer has an interval for every random value exactly in the
steady range, and in a run of the daemon all delays that a timer is given can be
waited for exactly if each step is given what it needs. -/
theorem timers_armed {build : Build} {order : ByteOrder} {opts : Opts} {platform : Bool}
    {setterPid : Nat} {now : Int} {file : File} {n : BitVec 32} {r : Readings} {d₀ : Daemon}
    (hopts : IntOpts opts)
    (h : startup build order opts platform setterPid now file n r = some d₀) :
    d₀.state.events .steadystate =
        some (.timer (addJitter opts.steadyStateInterval opts.jitter n)) ∧
      ((∀ n, 0 < addJitter opts.steadyStateInterval opts.jitter n) ↔ SteadyRange opts) ∧
      ∀ es d out, Machine.Run (EventLoop.step build) Machine.Free d₀ es d out →
        (Armed d.state.triggers ↔ Machine.Run (EventLoop.step build) Armable d₀ es d out) := by
  have hconf : checkConf opts = true := by
    by_contra hc
    rw [startup, if_pos hc] at h
    cases h
  obtain ⟨hne, hjitter⟩ := checkConf_jitter hconf
  have hw : IntWait opts.waitBetweenTries := ⟨hopts.wait.1, hopts.wait.2, hne⟩
  refine ⟨startup_steadystate h, steady_armed hopts hjitter, fun es d out hr => ?_⟩
  obtain ⟨s, hs, hterms, hattempt⟩ := startup_attempt h
  have hstart : d₀.state.opts.waitBetweenTries = opts.waitBetweenTries ∧
      Backing opts.waitBetweenTries d₀.state.backoff := by
    rw [hs]
    refine Backing.moves hw (congrArg Terms.waitBetweenTries hterms) ?_ (kickoff_moves r s)
    exact Or.inl (congrArg Attempt.backoff hattempt)
  refine hr.holds_iff (fun d _ => Armed d.state.triggers)
    (fun d _ => d.state.opts.waitBetweenTries = opts.waitBetweenTries ∧
      Backing opts.waitBetweenTries d.state.backoff) (startup_armed h) hstart ?_
  rintro d e d' o out ⟨hwait, hback⟩ hstep
  refine ⟨hback.moves hw hwait (moved_moves (step_moved hstep).2), ?_⟩
  rw [(step_asked hstep).1, armed_append,
    calls_armed (by rw [hwait]; exact hw) (by rw [hwait]; exact hback)]

theorem timers_armed_default : IntOpts (setConfDefaults fallbackBuild) ∧
    ∃ d₀, defaultStart = some d₀ ∧
      d₀.state.events .steadystate = some (.timer (addJitter (60 * 60 * 24) 0 0)) ∧
      ((∀ n, 0 < addJitter (60 * 60 * 24) 0 n) ↔ SteadyRange (setConfDefaults fallbackBuild)) ∧
      ∀ es d out, Machine.Run (EventLoop.step fallbackBuild) Machine.Free d₀ es d out →
        (Armed d.state.triggers ↔ Machine.Run (EventLoop.step fallbackBuild) Armable d₀ es d out) := by
  have hopts : IntOpts (setConfDefaults fallbackBuild) := ⟨by decide, by decide, by decide⟩
  obtain ⟨d₀, hd⟩ := defaultStart_some
  exact ⟨hopts, d₀, hd, timers_armed hopts hd⟩

def triggered (opts : Opts) (es : List Event) : Option (List Call) :=
  (plainStart opts).bind fun d =>
    (Machine.exec (EventLoop.step fallbackBuild) d es).map (·.1.state.triggers)

/-- A negative delay between tries leaves a failed attempt without a retry, a
negative one between wait attempts leaves an attempt without its timeout, and a
jitter just below the interval can make the interval negative. -/
theorem timers_unarmed :
    triggered { setConfDefaults fallbackBuild with waitBetweenTries := -1 }
        [.runTlsdate (some 200), .sigchld [.died 200 1]] =
      some [(.save, -1), (.tlsdate, 0), (.tlsdateTimeout, 10), (.tlsdateStatus, -1),
        (.tlsdate, -1)] ∧
    triggered { setConfDefaults fallbackBuild with subprocessWaitBetweenTries := -1 }
        [.runTlsdate (some 200)] =
      some [(.save, -1), (.tlsdate, 0), (.tlsdateTimeout, -1), (.tlsdateStatus, -1)] ∧
    checkConf { setConfDefaults fallbackBuild with steadyStateInterval := 101, jitter := 100 } = true ∧
    addJitter 101 100 (BitVec.intMin 32) = -47 :=
  ⟨by decide +kernel, by decide +kernel, by decide +kernel, by decide +kernel⟩

end Tlsdate.TimerDelays
