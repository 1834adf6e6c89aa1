import Tlsdate.EventLoop

namespace Tlsdate.WakeProgress

open CInt HostBytes TimeSource Options TimestampFile DaemonState Kickoff Attempts Saving DBusService
  ProxyResolver EventLoop

/-- An attempt is running, or E_TLSDATE is pending with a timer. -/
def underWay (s : State) : Bool := s.running || timerPending s .tlsdate

def kicksOff (build : Build) (s : State) : Event → Bool
  | .continuity _ | .bus .wake _ => true
  | .routeUp (.netlink changed) _ => changed
  | .routeUp (.stdin received) _ => received
  | .invalidate _ => !acquiring s
  | .service (.setTime (some t)) r => isSaneTime build t && (canSetTime r s).1
  | _ => false

/-- No wake is swallowed in this state, nor by a step that it admits. -/
def Heeded (build : Build) (C : Daemon → Event → Prop) (d : Daemon) : Prop :=
  (0 < d.state.tries → underWay d.state = true) ∧
    ∀ e d' out, C d e → step build d e = some (d', out) → kicksOff build d.state e = true →
      d'.state.lastSyncType ≠ .net → underWay d'.state = true

/-- A child that is reaped after a clean exit leaves no try behind unless
E_TLSDATE is pending, and after a failed one the retry delay is a delay. -/
def WaitTended (s : State) : Wait → Prop
  | .died pid status =>
      pid ≠ s.setterPid → pid = s.tlsdatePid → 0 < s.tries →
        if status = 0 then timerPending s .tlsdate = true else 0 ≤ retryDelay s
  | .stopped _ _ => True

def WaitsTended (s : State) : List Wait → Prop
  | [] => True
  | w :: ws => WaitTended s w ∧ WaitsTended (handleWait s w).state ws

/-- The jitter after a jump does not make a delay negative: only the random
value without an absolute value does, when no resolver timeout is added. -/
def JitterTended (r : Readings) (s : State) : Prop :=
  desynced r s = true → s.events .resolver = none → underWay s = false → r.random.toInt ≠ -2 ^ 31

def Tended (d : Daemon) : Event → Prop
  | .sigchld waits => WaitsTended d.state waits
  | .continuity r | .routeUp _ r | .invalidate r | .bus _ r => JitterTended r d.state
  | _ => True

structure Attempting (s : State) : Prop where
  synced : s.lastSyncType = .net → s.tries ≤ 0
  pending : 0 < s.tries → underWay s = true
  allocated : (s.events .tlsdate).isSome = true

theorem Attempting.frame {s s' : State} (h : Attempting s)
    (hn : s'.lastSyncType = .net → s.lastSyncType = .net) (ht : s'.tries ≤ s.tries)
    (hu : underWay s = true → underWay s' = true)
    (he : (s'.events .tlsdate).isSome = (s.events .tlsdate).isSome) : Attempting s' := by
  refine ⟨fun h' => ?_, fun h' => hu (h.pending (by omega)), he.trans h.allocated⟩
  have := h.synced (hn h')
  omega

theorem Attempting.same {s s' : State} (h : Attempting s)
    (hn : s'.lastSyncType = .net → s.lastSyncType = .net) (ht : s'.tries = s.tries)
    (hr : s'.running = s.running) (he : s'.events .tlsdate = s.events .tlsdate) :
    Attempting s' :=
  h.frame hn (Int.le_of_eq ht) (fun hu => by simpa only [underWay, timerPending, hr, he] using hu)
    (by rw [he])

theorem Attempting.idle {s : State} (ht : s.tries ≤ 0) (he : (s.events .tlsdate).isSome = true) :
    Attempting s :=
  ⟨fun _ => ht, fun h => by omega, he⟩

section Timers

variable {s : State} {sec : Int}

theorem timerPending_congr {s s' : State} {id : EventId} (h : s'.events id = s.events id) :
    timerPending s' id = timerPending s id := by
  simp only [timerPending, h]

theorem timerPending_eventDel {id : EventId} (h : id ≠ .tlsdate) :
    timerPending (eventDel s id) .tlsdate = timerPending s .tlsdate :=
  timerPending_congr (by rw [eventDel_events, if_neg (Ne.symm h)])

theorem timerPending_tlsdate (he : (s.events .tlsdate).isSome = true) (hs : 0 ≤ sec) :
    timerPending (triggerEvent s .tlsdate sec) .tlsdate = true := by
  obtain ⟨p, hp⟩ := Option.isSome_iff_exists.mp he
  have h := triggerEvent_events s sec (show EventId.tlsdate ≠ .resolver by decide) .tlsdate
  simp only [if_true, hp, Option.map_some, eventAdd, ge_iff_le, hs] at h
  simp only [timerPending, h]

theorem timerPending_resolver (h : s.events .resolver ≠ none) :
    timerPending (triggerEvent s .resolver sec) .tlsdate = timerPending s .tlsdate := by
  apply timerPending_congr
  simp only [triggerEvent, h, and_false, if_false]
  cases hr : s.events .resolver with
  | none => exact absurd hr h
  | some p => simp

end Timers

theorem scheduleAttempt_progress {s : State} {jitter : Int} (h : Attempting s)
    (hj : underWay s = false →
      0 ≤ if s.events .resolver = none then jitter else toInt (jitter + resolverTimeout)) :
    Attempting (scheduleAttempt jitter s) ∧ ((scheduleAttempt jitter s).lastSyncType ≠ .net →
      underWay (scheduleAttempt jitter s) = true) := by
  rw [scheduleAttempt]
  split
  next hn => exact ⟨h, fun hne => absurd hn hne⟩
  next hn =>
    split
    next ht =>
      have hu : underWay { s with tries := s.tries - 1 } = true := h.pending ht
      exact ⟨h.frame id (by simp) (fun _ => hu) rfl, fun _ => hu⟩
    next ht =>
      split
      next hp =>
        have hu : underWay s = true := by simp [underWay, hp]
        exact ⟨h, fun _ => hu⟩
      next hp =>
        have hkeep : ∀ {s' : State}, s'.tries = s.tries →
            (s'.events .tlsdate).isSome = (s.events .tlsdate).isSome → underWay s' = true →
            Attempting s' ∧ (s'.lastSyncType ≠ .net → underWay s' = true) := fun ht' he' hu =>
          ⟨.idle (ht' ▸ not_lt.mp ht) (he'.trans h.allocated), fun _ => hu⟩
        by_cases hrun : s.running = true
        · split <;> exact hkeep (by simp) (by simp) (by simp [underWay, hrun])
        · have hdelay := hj (by simp [underWay, hrun, hp])
          split
          next hr =>
            rw [if_pos hr] at hdelay
            have hpend : timerPending (triggerEvent s .tlsdate jitter) .tlsdate = true :=
              timerPending_tlsdate h.allocated hdelay
            exact hkeep (by simp) (by simp) (by simp [underWay, hpend])
          next hr =>
            rw [if_neg hr] at hdelay
            have hsome : (triggerEvent s .tlsdate (toInt (jitter + resolverTimeout))).events
                .resolver ≠ none := by
              rw [triggerEvent_events _ _ (by decide)]
              simpa using hr
            have hpend : timerPending (triggerEvent (triggerEvent s .tlsdate
                (toInt (jitter + resolverTimeout))) .resolver jitter) .tlsdate = true :=
              (timerPending_resolver hsome).trans (timerPending_tlsdate h.allocated hdelay)
            exact hkeep (by simp) (by simp) (by simp [underWay, hpend])

theorem kickoffDelay {r : Readings} {s : State} (hj : JitterTended r s)
    (hu : underWay s = false) : 0 ≤ if s.events .resolver = none then kickoffJitter r s
      else toInt (kickoffJitter r s + resolverTimeout) := by
  obtain ⟨hlo, hhi, hnn⟩ := addJitter_range r.random
  split
  next hr =>
    rw [kickoffJitter]
    split
    next hd =>
      simp only [Bool.and_eq_true] at hd
      exact hnn (hj hd.1 hr hu)
    next => exact Int.le_refl 0
  next =>
    rw [kickoffJitter]
    split
    next => rw [resolverTimeout, toInt_of_range] <;> omega
    next => decide

theorem kickoff_progress {r : Readings} {s : State} (h : Attempting s) (hj : JitterTended r s) :
    Attempting (actionKickoffTimeSync r s) ∧
      ((actionKickoffTimeSync r s).lastSyncType ≠ .net →
        underWay (actionKickoffTimeSync r s) = true) := by
  have hdelay := kickoffDelay hj
  rw [actionKickoffTimeSync]
  rcases forgetJump_frame r s with ht | ht <;> rw [ht]
  · exact scheduleAttempt_progress h hdelay
  · exact scheduleAttempt_progress (h.frame (fun hn => by cases hn) (Int.le_refl _) id rfl) hdelay

theorem reapTlsdate_attempting {s : State} {status : Int} (h : Attempting s)
    (hw : 0 < s.tries → if status = 0 then timerPending s .tlsdate = true else 0 ≤ retryDelay s) :
    Attempting (reapTlsdate status s) := by
  have hkeep (s' : State) (hn : s'.lastSyncType = s.lastSyncType) (ht : s'.tries = s.tries)
      (hsome : (s'.events .tlsdate).isSome = true)
      (hpend : 0 < s.tries → timerPending s' .tlsdate = true) : Attempting s' := by
    refine ⟨fun hnet => ht ▸ h.synced (hn ▸ hnet), fun hpos => ?_, hsome⟩
    simp [underWay, hpend (ht ▸ hpos)]
  obtain ⟨hz, heq⟩ | ⟨hz, t, rfl, ⟨-, heq⟩ | ⟨hr, heq⟩⟩ := reapTlsdate_cases status s
  all_goals rw [heq]
  · rw [if_pos hz] at hw
    have hne : EventId.tlsdateTimeout ≠ .tlsdate := by decide
    refine hkeep _ rfl rfl (by simpa using h.allocated) fun ht => ?_
    exact (timerPending_eventDel hne).trans (hw ht)
  · rw [if_neg hz] at hw
    refine hkeep _ (by simp) (by simp) (by simpa using h.allocated) fun ht => ?_
    exact timerPending_tlsdate (by simpa using h.allocated) (hw ht)
  · rw [if_neg hz] at hw
    refine hkeep _ (by simp) (by simp) (by simpa using h.allocated) fun ht => ?_
    rw [timerPending_resolver]
    · exact timerPending_tlsdate (by simpa using h.allocated) (hw ht)
    · rw [triggerEvent_events _ _ (by decide)]
      simpa using hr

theorem handleWait_attempting {s : State} {w : Wait} (h : Attempting s) (hw : WaitTended s w) :
    Attempting (handleWait s w).state := by
  cases w with
  | stopped pid permitted =>
      simp only [handleWait, handleChildStop]
      split <;> exact h
  | died pid status =>
      simp only [handleWait, handleChildDeath]
      split
      next => exact h
      next hs =>
        split
        next => exact h
        next hp => exact reapTlsdate_attempting h (hw hs (not_not.mp hp))

theorem actionSigchld_attempting {waits : List Wait} {s : State} (h : Attempting s)
    (hw : WaitsTended s waits) : Attempting (actionSigchld waits s).state := by
  induction waits generalizing s with
  | nil => exact h
  | cons w ws ih =>
      have hfirst := handleWait_attempting h hw.1
      obtain ⟨-, heq⟩ | ⟨-, heq, -⟩ := actionSigchld_cons w ws s
      · rw [heq]
        exact hfirst
      · rw [heq]
        exact ih hfirst hw.2

theorem beginAttempt_attempting {s : State} (fork : Option Nat) (h : (s.events .tlsdate).isSome = true)
    (hn : s.lastSyncType ≠ .net) : Attempting (beginAttempt fork s).1 := by
  cases fork with
  | none => exact .idle (Int.le_refl _) (by simpa [beginAttempt, Monitor.tlsdate] using h)
  | some pid =>
      refine ⟨fun h' => absurd h' ?_, fun _ => ?_, ?_⟩
      · simpa [beginAttempt, Monitor.tlsdate] using hn
      · simp [beginAttempt, Monitor.tlsdate, underWay]
      · simpa [beginAttempt, Monitor.tlsdate] using h

theorem actionRunTlsdate_attempting {s : State} {fork : Option Nat} (h : Attempting s) :
    Attempting (actionRunTlsdate fork (eventDel s .tlsdate)).1 := by
  have hsome : ((eventDel s .tlsdate).events .tlsdate).isSome = true := by
    simpa using h.allocated
  simp only [actionRunTlsdate]
  split
  next hn => exact .idle (h.synced hn) hsome
  next hn =>
    split
    next hrun =>
      split
      next ht =>
        exact ⟨fun h' => absurd h' hn, fun _ => by simp only [underWay, hrun, Bool.true_or], hsome⟩
      next ht => exact .idle (not_lt.mp ht) hsome
    next hrun =>
      split
      next hmax => exact beginAttempt_attempting fork hsome hn
      next hmax => exact .idle (Int.le_refl _) hsome

theorem actionTlsdateStatus_attempting {build : Build} {read : MonitorRead} {s : State}
    (h : Attempting s) : Attempting (actionTlsdateStatus build read (eventDel s .tlsdateStatus)) := by
  have hsome : ((eventDel s .tlsdateStatus).events .tlsdate).isSome = true := by
    simpa using h.allocated
  cases read with
  | word serverTime =>
      refine .idle (Int.le_refl _) ?_
      simp only [actionTlsdateStatus]
      split <;> simpa using h.allocated
  | again | truncated =>
      refine h.same (by simp [actionTlsdateStatus]) (by simp [actionTlsdateStatus])
        (by simp [actionTlsdateStatus]) ?_
      simp [actionTlsdateStatus, triggerEvent_events]

theorem actionSyncAndSave_attempting {s : State} (readable : Bool) (write shutdown : WriteResult)
    (h : Attempting s) : Attempting (actionSyncAndSave readable write shutdown s).state := by
  obtain hstate | hstate := (actionSyncAndSave_cases readable write shutdown s).1
  all_goals rw [hstate]
  · exact h
  · exact h.same id rfl rfl rfl

theorem actionTimeSet_attempting {s : State} (r : Readings) (read : NotifyRead)
    (h : Attempting s) : Attempting (actionTimeSet r read s).state := by
  obtain hstate | hstate | ⟨-, hstate⟩ := (actionTimeSet_cases r read s).1
  all_goals rw [hstate]
  · exact h
  · exact h.same (fun hn => by cases hn) rfl rfl rfl
  · exact h.same id rfl rfl rfl

theorem actionResolveProxy_attempting {s : State} {ctx : Platform} (send : Option Nat)
    (h : Attempting s) : Attempting (actionResolveProxy send s ctx).1 := by
  have hagain : Attempting (triggerEvent { s with dynamicProxy := "" } .tlsdate 1) :=
    h.frame (by simp) (by simp)
      (fun _ => by simp [underWay, timerPending_tlsdate, h.allocated]) (by simp)
  obtain hr | ⟨-, -, hr | hr | ⟨serial, url, -, hr⟩⟩ := actionResolveProxy_cases send s ctx
  all_goals rw [hr]
  · exact h
  · exact hagain
  · exact h.same id rfl rfl rfl
  · exact h.same id rfl rfl rfl

theorem canSetTime_attempting {s : State} (r : Readings) (h : Attempting s) :
    Attempting (canSetTime r s).2 := by
  rcases forgetJump_frame r s with ht | ht <;> simp only [canSetTime, ht]
  · exact h
  · exact h.same (fun hn => by cases hn) rfl rfl rfl

theorem handleSetTime_progress {build : Build} {s : State} {r : Readings} (requested : Option Int)
    (h : Attempting s) :
    Attempting (handleSetTime build r requested s).1 ∧
      (kicksOff build s (.service (.setTime requested) r) = true →
        (handleSetTime build r requested s).1.lastSyncType ≠ .net →
        underWay (handleSetTime build r requested s).1 = true) := by
  have hcan := canSetTime_attempting r h
  cases requested with
  | none => exact ⟨h, fun hk => by cases hk⟩
  | some t =>
      simp only [handleSetTime, kicksOff]
      by_cases hsane : isSaneTime build t = true
      · by_cases hallowed : (canSetTime r s).1 = true
        · simp only [hsane, hallowed, Bool.not_true, Bool.false_eq_true, if_false]
          have hz : (canSetTime r s).2.clockDelta = 0 := by
            simpa only [canSetTime, beq_iff_eq] using hallowed
          have hstored : Attempting (triggerEvent { (canSetTime r s).2 with
              lastTime := t, lastSyncType := .platform } .save (-1)) :=
            hcan.same (by simp) (by simp) (by simp) (by simp [triggerEvent_events])
          have hj : JitterTended r (triggerEvent { (canSetTime r s).2 with
              lastTime := t, lastSyncType := .platform } .save (-1)) := by
            intro hd
            rw [desynced_zero (by simpa using hz)] at hd
            cases hd
          exact ⟨(kickoff_progress hstored hj).1, fun _ => (kickoff_progress hstored hj).2⟩
        · simp only [hsane, hallowed, Bool.not_true, Bool.false_eq_true, if_false, Bool.and_false]
          exact ⟨hcan, fun hk => by cases hk⟩
      · simp only [hsane, Bool.not_false, if_true, Bool.false_and]
        exact ⟨h, fun hk => by cases hk⟩

theorem dbusFilter_progress {build : Build} {s : State} {ctx : Platform} {r : Readings}
    (msg : BusMessage) (h : Attempting s) (hj : JitterTended r s) :
    Attempting (dbusFilter r msg s ctx).1 ∧
      (kicksOff build s (.bus msg r) = true → (dbusFilter r msg s ctx).1.lastSyncType ≠ .net →
        underWay (dbusFilter r msg s ctx).1 = true) := by
  have hresolved : ∀ proxy, Attempting
      (triggerEvent { s with resolving := false, dynamicProxy := proxy } .tlsdate 1) := fun proxy =>
    h.frame (by simp) (by simp)
      (fun _ => by simp [underWay, timerPending_tlsdate, h.allocated]) (by simp)
  cases msg with
  | wake => exact ⟨(kickoff_progress h hj).1, fun _ => (kickoff_progress h hj).2⟩
  | disconnected | methodReturn _ | other => exact ⟨h, fun hk => by cases hk⟩
  | serviceUnknown => exact ⟨hresolved s.dynamicProxy, fun hk => by cases hk⟩
  | resolved url proxy =>
      refine ⟨?_, fun hk => by cases hk⟩
      obtain hp | ⟨-, hp⟩ := handleProxyChange_cases url proxy s
      all_goals rw [dbusFilter, hp]
      · exact h
      · exact hresolved proxy

theorem moved_progress {build : Build} {d : Daemon} {e : Event} {s' : State} {out : List Output}
    (h : Attempting d.state) (hc : Tended d e) (hm : Moved build d.state d.platform e s' out) :
    Attempting s' ∧ (kicksOff build d.state e = true → s'.lastSyncType ≠ .net →
      underWay s' = true) := by
  cases hm with
  | continuity r => exact ⟨(kickoff_progress h hc).1, fun _ => (kickoff_progress h hc).2⟩
  | routeUp cue r =>
      have hk := kickoff_progress h hc
      cases cue with
      | netlink changed =>
          cases changed with
          | true => exact ⟨hk.1, fun _ => hk.2⟩
          | false => exact ⟨h, fun hf => by cases hf⟩
      | stdin received =>
          cases received with
          | true => exact ⟨hk.1, fun _ => hk.2⟩
          | false => exact ⟨h.same id rfl rfl (by simp [actionRouteUp]), fun hf => by cases hf⟩
  | invalidate r =>
      simp only [actionInvalidateTime, kicksOff]
      cases hacq : acquiring d.state with
      | true => exact ⟨h, fun hf => by cases hf⟩
      | false =>
          have hi : Attempting (invalidateTime r d.state) := h.same (fun hn => by cases hn) rfl rfl rfl
          have hk := kickoff_progress hi hc
          exact ⟨hk.1, fun _ => hk.2⟩
  | runTlsdate fork => exact ⟨actionRunTlsdate_attempting h, fun hf => by cases hf⟩
  | tlsdateStatus read => exact ⟨actionTlsdateStatus_attempting h, fun hf => by cases hf⟩
  | tlsdateTimeout => exact ⟨h.same id rfl rfl (by simp), fun hf => by cases hf⟩
  | sigchld waits => exact ⟨actionSigchld_attempting h hc, fun hf => by cases hf⟩
  | sigterm now =>
      refine ⟨?_, fun hf => by cases hf⟩
      cases now with
      | none => exact h.same id rfl rfl rfl
      | some sec =>
          exact h.same (by simp [actionSigterm, proceed]) (by simp [actionSigterm, proceed])
            (by simp [actionSigterm, proceed]) (by simp [actionSigterm, proceed, triggerEvent_events])
  | save readable write shutdown =>
      exact ⟨actionSyncAndSave_attempting _ _ _ (h.same id rfl rfl (by simp)), fun hf => by cases hf⟩
  | timeSet read r => exact ⟨actionTimeSet_attempting r read h, fun hf => by cases hf⟩
  | service call r =>
      cases call with
      | setTime requested => exact handleSetTime_progress requested h
      | canSetTime => exact ⟨canSetTime_attempting r h, fun hf => by cases hf⟩
      | lastSyncInfo | unknown => exact ⟨h, fun hf => by cases hf⟩
  | resolveProxy send =>
      exact ⟨actionResolveProxy_attempting send (h.same id rfl rfl (by simp)),
        fun hf => by cases hf⟩
  | bus msg r => exact dbusFilter_progress msg h hc

theorem Attempting.heeded {build : Build} {d : Daemon} (h : Attempting d.state) :
    Heeded build Tended d :=
  ⟨h.pending, fun _ _ _ hc hs => (moved_progress h hc (step_moved hs).2).2⟩

theorem startup_attempting {build : Build} {order : ByteOrder} {opts : Opts} {platform : Bool}
    {setterPid : Nat} {now : Int} {file : File} {n : BitVec 32} {r : Readings} {d : Daemon}
    (h : startup build order opts platform setterPid now file n r = some d) :
    Attempting d.state ∧ (d.state.lastSyncType ≠ .net → underWay d.state = true) := by
  obtain ⟨s, hs, he⟩ := startup_fresh h
  have hj : JitterTended r s := fun hd => by
    rw [desynced_zero hs.clockDelta] at hd
    cases hd
  rw [he]
  exact kickoff_progress (.idle (Int.le_of_eq hs.tries) hs.tlsdate) hj

/-- Every kickoff of a tended run, that of the start included, leaves an attempt
under way or a synchronized clock, and no wake is spent on stale tries. -/
theorem kickoffs_progress {build : Build} {order : ByteOrder} {opts : Opts} {platform : Bool}
    {setterPid : Nat} {now : Int} {file : File} {n : BitVec 32} {r : Readings} {d₀ : Daemon}
    (h : startup build order opts platform setterPid now file n r = some d₀) :
    (d₀.state.lastSyncType ≠ .net → underWay d₀.state = true) ∧
      ∀ es d out, Machine.Run (step build) Tended d₀ es d out → Heeded build Tended d := by
  obtain ⟨h₀, hfirst⟩ := startup_attempting h
  refine ⟨hfirst, fun es d out hrun => ?_⟩
  have hinv : Attempting d.state := hrun.invariant (fun d => Attempting d.state) h₀
    (fun _ _ _ _ hi hc hs => (moved_progress hi hc (step_moved hs).2).1)
  exact hinv.heeded

theorem kickoffs_progress_default :
    ∃ d₀, defaultStart = some d₀ ∧ (d₀.state.lastSyncType ≠ .net → underWay d₀.state = true) ∧
      ∀ es d out, Machine.Run (step fallbackBuild) Tended d₀ es d out →
        Heeded fallbackBuild Tended d := by
  obtain ⟨d₀, hd⟩ := defaultStart_some
  exact ⟨d₀, hd, kickoffs_progress hd⟩

/-- The monitor exits cleanly before it has written a time: the kickoff that
follows takes away the try it left and schedules nothing. -/
theorem kickoffs_swallowed :
    ¬ ∀ d₀, defaultStart = some d₀ → ∀ es d out,
      Machine.Run (step fallbackBuild) Machine.Free d₀ es d out →
        Heeded fallbackBuild Machine.Free d := by
  intro h
  obtain ⟨d₀, hd⟩ := defaultStart_some
  have hrun : ∃ d out d' out', Machine.exec (step fallbackBuild) d₀
        [.runTlsdate (some 200), .sigchld [.died 200 0]] = some (d, out) ∧
      step fallbackBuild d (.continuity (steadyReadings 1400000000 14400)) = some (d', out') ∧
      d'.state.lastSyncType ≠ .net ∧ underWay d'.state = false := by
    cases hd
    exact ⟨_, _, _, _, rfl, rfl, by decide, by decide⟩
  obtain ⟨d, out, d', out', hx, hs, hn, hu⟩ := hrun
  have hkept := (h d₀ hd _ _ _ (Machine.Run.of_exec hx)).2 _ _ _ trivial hs rfl hn
  rw [hu] at hkept
  cases hkept

end Tlsdate.WakeProgress
