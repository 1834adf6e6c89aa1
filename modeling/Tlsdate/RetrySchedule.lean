import Tlsdate.RetryLimit
import Tlsdate.TimerDelays

namespace Tlsdate.RetrySchedule

open CInt TimeSource Options TimestampFile DaemonState Kickoff Monitor Attempts Saving DBusService
  ProxyResolver EventLoop AttemptTurns WakeProgress RetryLimit TimerDelays

def backoffAfter (w : Nat) : Nat → Nat
  | 0 => w
  | k + 1 => if backoffAfter w k < maxSaneBackoff then 2 * backoffAfter w k else backoffAfter w k

inductive Milestone
  | launched
  | delayed (sec : Int)
  deriving DecidableEq

def schedule (w : Nat) (n : Nat) : List Milestone :=
  (List.range n).flatMap fun k => [.launched, .delayed (backoffAfter w (k + 1))]

def delays (cs : List Call) : List Milestone :=
  cs.filterMap fun call => if call.1 = .tlsdate then some (.delayed call.2) else none

def milestones (s s' : State) (out : List Output) : List Milestone :=
  List.replicate (launches out) .launched ++ delays (asked s s')

/-- The daemon, observed at its launches and at the delays of E_TLSDATE. -/
def paced (build : Build) : Machine.Step Daemon Event Milestone := fun d e =>
  (EventLoop.step build d e).map fun r => (r.1, milestones d.state r.1.state r.2)

structure Retry where
  tries : Int
  backoff : Nat
  running : Bool
  pid : Nat
  timer : Option Pending
  deriving DecidableEq

def retry (s : State) : Retry := ⟨s.tries, s.backoff, s.running, s.tlsdatePid, s.events .tlsdate⟩

def resting (w : Nat) : Retry := ⟨0, w, false, 0, some .idle⟩

structure Standing (c : Terms) (s : State) : Prop where
  terms : terms s = c
  resolver : s.events .resolver = none
  unsynced : s.lastSyncType ≠ .net

def Fails (s : State) : Event → Prop
  | .runTlsdate none => False
  | .sigchld waits => ∀ pid, Wait.died pid 0 ∈ waits → pid ≠ s.tlsdatePid
  | _ => True

/-- There is no wake, and the children write nothing and fail. -/
structure Failing (build : Build) (d : Daemon) (e : Event) : Prop where
  unwoken : kicksOff build d.state e = false
  silent : replies e = false
  fails : Fails d.state e

/-- As long as an attempt is under way it keeps to the schedule; after that the
schedule is complete and the daemon rests, which it can always come to. -/
structure Scheduled (build : Build) (w n : Nat) (d₁ : Daemon) : Prop where
  looping : d₁.exited = false
  keeps : ∀ es d ms, Machine.Run (paced build) (Failing build) d₁ es d ms →
    ms <+: schedule w n ∧
      (underWay d.state = false → ms = schedule w n ∧ retry d.state = resting w)
  ends : ∀ es d ms, Machine.Run (paced build) (Failing build) d₁ es d ms → d.exited = false →
    ∃ fs d' ms', Machine.Run (paced build) (Failing build) d fs d' ms' ∧ underWay d'.state = false

/-- Where the retries stand: the next attempt is due, it is running, or the
daemon has given up. -/
inductive Stage (w n setter : Nat) : Retry → List Milestone → Prop
  | due (k : Nat) (sec : Int) (hk : k ≤ n) (hsec : 0 ≤ sec) :
      Stage w n setter ⟨k, backoffAfter w k, false, 0, some (.timer sec)⟩ (schedule w k)
  | busy (k pid : Nat) (hk : k < n) (hp : pid ≠ 0) (hs : pid ≠ setter) :
      Stage w n setter ⟨k + 1, backoffAfter w k, true, pid, some .idle⟩
        (schedule w k ++ [.launched])
  | rest : Stage w n setter (resting w) (schedule w n)

theorem schedule_succ (w k : Nat) :
    schedule w (k + 1) = schedule w k ++ [.launched, .delayed (backoffAfter w (k + 1))] := by
  rw [schedule, schedule, List.range_succ, List.flatMap_append]
  rfl

theorem schedule_mono (w : Nat) {k n : Nat} (h : k ≤ n) : schedule w k <+: schedule w n := by
  induction h with
  | refl => exact List.prefix_refl _
  | step _ ih =>
      rw [schedule_succ]
      exact ih.trans (List.prefix_append _ _)

theorem backoffAfter_lt {w : Nat} (hw : w < 2 ^ 31) (k : Nat) : backoffAfter w k < 2 ^ 31 := by
  induction k with
  | zero => exact hw
  | succ k ih =>
      rw [backoffAfter]
      split_ifs with h
      · rw [maxSaneBackoff] at h
        omega
      · exact ih

theorem backoffAfter_sane {w k : Nat} (h : 2 * maxSaneBackoff ≤ backoffAfter w k) :
    2 * maxSaneBackoff ≤ w := by
  induction k with
  | zero => exact h
  | succ k ih =>
      rw [backoffAfter] at h
      split_ifs at h
      · omega
      · exact ih h

theorem nextBackoff_after (w k : Nat) : nextBackoff (backoffAfter w k) = backoffAfter w (k + 1) := by
  rw [nextBackoff, backoffAfter]
  split_ifs with h
  · rw [maxSaneBackoff] at h
    omega
  · rfl

section Stages

variable {w n setter : Nat} {s : State} {ms : List Milestone}

theorem Stage.kept (h : Stage w n setter (retry s) ms) :
    ms <+: schedule w n ∧ (underWay s = false → ms = schedule w n ∧ retry s = resting w) := by
  generalize hr : retry s = r at h
  cases h with
  | due k sec hk =>
      obtain ⟨-, -, -, -, htimer⟩ := Retry.mk.inj hr
      refine ⟨schedule_mono w hk, fun hu => ?_⟩
      rw [underWay, timerPending, htimer, Bool.or_true] at hu
      cases hu
  | busy k pid hk =>
      obtain ⟨-, -, hrun, -, -⟩ := Retry.mk.inj hr
      refine ⟨.trans ?_ (schedule_mono w hk), fun hu => ?_⟩
      · rw [schedule_succ]
        exact ⟨[.delayed (backoffAfter w (k + 1))], by rw [List.append_assoc]; rfl⟩
      · rw [underWay, hrun, Bool.true_or] at hu
        cases hu
  | rest => exact ⟨List.prefix_refl _, fun _ => ⟨rfl, rfl⟩⟩

end Stages

section Undisturbed

structure Undisturbed (s t : State) : Prop where
  terms : terms t = terms s
  retry : retry t = retry s
  resolver : s.events .resolver = none → t.events .resolver = none
  synced : t.lastSyncType = .net → s.lastSyncType = .net

variable {build : Build} {c : Terms} {s t u : State}

theorem Undisturbed.refl (s : State) : Undisturbed s s := ⟨rfl, rfl, id, id⟩

theorem Undisturbed.trans (h : Undisturbed s t) (k : Undisturbed t u) : Undisturbed s u :=
  ⟨k.terms.trans h.terms, k.retry.trans h.retry, k.resolver ∘ h.resolver, h.synced ∘ k.synced⟩

theorem Undisturbed.standing (h : Undisturbed s t) (hs : Standing c s) : Standing c t :=
  ⟨h.terms.trans hs.terms, h.resolver hs.resolver, fun hn => hs.unsynced (h.synced hn)⟩

theorem eventDel_undisturbed (s : State) {id : EventId} (h : id ≠ .tlsdate) :
    Undisturbed s (eventDel s id) := by
  refine ⟨eventDel_terms id, ?_, fun hr => ?_, fun hn => hn⟩
  · rw [retry, eventDel_events, if_neg h.symm]
    rfl
  · rw [eventDel_events]
    split_ifs with hid
    · rw [← hid, hr]
      rfl
    · exact hr

theorem triggerEvent_undisturbed (s : State) {id : EventId} (sec : Int) (h : id ≠ .tlsdate)
    (h' : id ≠ .resolver) : Undisturbed s (triggerEvent s id sec) := by
  obtain ⟨events, he, -⟩ := triggerEvent_frame s id sec
  have hkept : ∀ j, j ≠ id → (triggerEvent s id sec).events j = s.events j := fun j hj => by
    rw [triggerEvent_events s sec h', if_neg hj]
  refine ⟨triggerEvent_terms id sec, ?_, fun hr => ?_, ?_⟩
  · have htimer := hkept .tlsdate h.symm
    rw [he] at htimer ⊢
    rw [retry, htimer]
    rfl
  · rw [hkept .resolver h'.symm, hr]
  · rw [triggerEvent_lastSyncType]
    exact fun hn => hn

theorem forgetJump_undisturbed (r : Readings) (s : State) : Undisturbed s (forgetJump r s) := by
  rcases forgetJump_frame r s with h | h <;> rw [h]
  · exact .refl s
  · exact ⟨rfl, rfl, fun hr => hr, fun hn => by cases hn⟩

theorem actionTimeSet_undisturbed (r : Readings) (read : NotifyRead) (s : State) :
    Undisturbed s (actionTimeSet r read s).state := by
  obtain h | h | ⟨-, h⟩ := (actionTimeSet_cases r read s).1
  all_goals rw [h]
  · exact .refl s
  · exact ⟨rfl, rfl, fun hr => hr, fun hn => by cases hn⟩
  · exact ⟨rfl, rfl, fun hr => hr, fun hn => hn⟩

theorem actionSyncAndSave_undisturbed (readable : Bool) (write shutdown : WriteResult) (s : State) :
    Undisturbed s (actionSyncAndSave readable write shutdown s).state := by
  obtain h | h := (actionSyncAndSave_cases readable write shutdown s).1
  all_goals
    rw [h]
    exact ⟨rfl, rfl, fun hr => hr, fun hn => hn⟩

theorem foldl_count_unlaunched {ms : List Mark} (h : ∀ pid, Mark.launched pid ∉ ms) (m : Int) :
    ms.foldl count m = m := by
  induction ms with
  | nil => rfl
  | cons x xs ih =>
      rw [List.foldl_cons]
      have hx : count m x = m := by
        cases x with
        | launched pid => exact absurd (List.mem_cons_self ..) (h pid)
        | killed | reaped | replied => rfl
      rw [hx]
      exact ih fun pid hm => h pid (List.mem_cons_of_mem _ hm)

theorem launches_due {ctx : Platform} {e : Event} {s' : State} {out : List Output}
    (h : Moved build s ctx e s' out) (hdue : cause e ≠ .due) : launches out = 0 := by
  have hnone : ∀ pid, Mark.launched pid ∉ marks out e := fun pid hm =>
    hdue ((moved_moves h).2.launched hm)
  have hcount := marks_launches h 0
  rw [foldl_count_unlaunched hnone] at hcount
  omega

/-- Without a wake, a reply or a resolver only E_TLSDATE and SIGCHLD matter. -/
theorem moved_undisturbed {d : Daemon} {e : Event} {s' : State} {out : List Output}
    (h : Moved build d.state d.platform e s' out) (hw : kicksOff build d.state e = false)
    (hr : replies e = false) (hres : d.state.events .resolver = none) (hdue : cause e ≠ .due)
    (hchild : cause e ≠ .child) :
    Undisturbed d.state s' ∧ launches out = 0 ∧ delays (calls build d e) = [] := by
  have hquiet : Undisturbed d.state s' ∧ delays (calls build d e) = [] := by
    cases h with
    | continuity => cases hw
    | routeUp cue r =>
        rcases cue with (_ | _) | (_ | _)
        · exact ⟨.refl _, rfl⟩
        · cases hw
        · exact ⟨eventDel_undisturbed _ (by decide), rfl⟩
        · cases hw
    | invalidate r =>
        simp only [kicksOff, Bool.not_eq_false'] at hw
        rw [actionInvalidateTime, calls, if_pos hw, if_pos hw]
        exact ⟨.refl _, rfl⟩
    | runTlsdate => exact absurd rfl hdue
    | tlsdateStatus read =>
        have hdel := eventDel_undisturbed d.state (show EventId.tlsdateStatus ≠ .tlsdate by decide)
        cases read with
        | word => cases hr
        | again => exact ⟨hdel.trans (triggerEvent_undisturbed _ _ (by decide) (by decide)), rfl⟩
        | truncated => exact ⟨hdel.trans (triggerEvent_undisturbed _ _ (by decide) (by decide)), rfl⟩
    | tlsdateTimeout => exact ⟨eventDel_undisturbed _ (by decide), rfl⟩
    | sigchld => exact absurd rfl hchild
    | sigterm now =>
        cases now with
        | none => exact ⟨⟨rfl, rfl, id, id⟩, rfl⟩
        | some sec =>
            refine ⟨?_, rfl⟩
            have hset : Undisturbed d.state { d.state with exitting := true, lastTime := sec } :=
              ⟨rfl, rfl, id, id⟩
            exact hset.trans (triggerEvent_undisturbed _ _ (by decide) (by decide))
    | save readable write shutdown =>
        exact ⟨(eventDel_undisturbed d.state (by decide)).trans
          (actionSyncAndSave_undisturbed _ _ _ _), rfl⟩
    | timeSet read r => exact ⟨actionTimeSet_undisturbed r read _, rfl⟩
    | service call r =>
        have hforget := forgetJump_undisturbed r d.state
        cases call with
        | canSetTime => exact ⟨hforget, rfl⟩
        | lastSyncInfo | unknown => exact ⟨.refl _, rfl⟩
        | setTime requested =>
            cases requested with
            | none => exact ⟨.refl _, rfl⟩
            | some t =>
                simp only [kicksOff] at hw
                simp only [serviceDispatch, handleSetTime, calls, hw]
                cases hsane : isSaneTime build t with
                | false => exact ⟨.refl _, rfl⟩
                | true =>
                    rw [hsane, Bool.true_and] at hw
                    rw [hw]
                    exact ⟨hforget, rfl⟩
    | resolveProxy send h =>
        rw [scheduled, hres] at h
        cases h
    | bus msg r h => exact absurd hres h
  exact ⟨hquiet.1, launches_due h hdue, hquiet.2⟩

end Undisturbed

section Moves

variable {build : Build} {c : Terms} {w n : Nat} {s : State}

theorem toUInt_natCast (hint : w < 2 ^ 31) : toUInt w = w := by
  have hcast := toUInt_cast w
  omega

theorem armed_undisturbed (s : State) :
    Undisturbed { s with tries := s.tries + 1, running := true } (armed s) :=
  (triggerEvent_undisturbed _ _ (by decide) (by decide)).trans
    (triggerEvent_undisturbed _ _ (by decide) (by decide))

theorem fire_standing (hst : Standing c s) : Standing c (eventDel s .tlsdate) := by
  refine ⟨(eventDel_terms _).trans hst.terms, ?_, hst.unsynced⟩
  rw [eventDel_events, if_neg (by decide)]
  exact hst.resolver

theorem fire_timer {p : Pending} (htimer : s.events .tlsdate = some p) :
    (eventDel s .tlsdate).events .tlsdate = some .idle := by
  rw [eventDel_events, if_pos rfl, htimer]
  rfl

theorem launch_retry (pid : Nat) {k b : Nat} {sec : Int} (hst : Standing c s)
    (hk : (k : Int) < c.maxTries) (hr : retry s = ⟨k, b, false, 0, some (.timer sec)⟩) :
    Standing c (actionRunTlsdate (some pid) (eventDel s .tlsdate)).1 ∧
      retry (actionRunTlsdate (some pid) (eventDel s .tlsdate)).1 =
        ⟨k + 1, b, true, pid, some .idle⟩ ∧
      launches (actionRunTlsdate (some pid) (eventDel s .tlsdate)).2 = 1 := by
  obtain ⟨ht, hb, hrun, -, htimer⟩ := Retry.mk.inj hr
  have hfired := fire_standing hst
  have hlimit : s.tries < s.opts.maxTries := by
    rw [ht, show s.opts.maxTries = c.maxTries from congrArg Terms.maxTries hst.terms]
    exact hk
  have hbegin : actionRunTlsdate (some pid) (eventDel s .tlsdate) =
      beginAttempt (some pid) { eventDel s .tlsdate with resolving := false } := by
    rw [actionRunTlsdate, if_neg hfired.unsynced]
    simp only [eventDel_running, hrun, eventDel_tries, eventDel_opts, hlimit, Bool.false_eq_true,
      if_false, if_true]
  have harmed := armed_undisturbed { eventDel s .tlsdate with resolving := false }
  have hstanding : Standing c (armed { eventDel s .tlsdate with resolving := false }) :=
    harmed.standing ⟨hfired.terms, hfired.resolver, hfired.unsynced⟩
  rw [hbegin, beginAttempt_some]
  refine ⟨⟨hstanding.terms, hstanding.resolver, hstanding.unsynced⟩, ?_, rfl⟩
  have hretry := harmed.retry
  rw [Retry.mk.injEq] at hretry ⊢
  obtain ⟨ht', hb', hrun', -, htimer'⟩ := hretry
  exact ⟨ht'.trans (congrArg (· + 1) ht), hb'.trans hb, hrun', rfl,
    htimer'.trans (fire_timer htimer)⟩

theorem giveUp_retry (fork : Option Nat) {b : Nat} {sec : Int} (hst : Standing c s)
    (hw : c.waitBetweenTries = w) (hint : w < 2 ^ 31)
    (hr : retry s = ⟨c.maxTries, b, false, 0, some (.timer sec)⟩) :
    Standing c (actionRunTlsdate fork (eventDel s .tlsdate)).1 ∧
      retry (actionRunTlsdate fork (eventDel s .tlsdate)).1 = resting w ∧
      launches (actionRunTlsdate fork (eventDel s .tlsdate)).2 = 0 := by
  obtain ⟨ht, -, hrun, hpid, htimer⟩ := Retry.mk.inj hr
  have hfired := fire_standing hst
  have hlimit : ¬ s.tries < s.opts.maxTries := by
    rw [ht, show s.opts.maxTries = c.maxTries from congrArg Terms.maxTries hst.terms]
    exact Int.lt_irrefl _
  have hwait : toUInt s.opts.waitBetweenTries = w := by
    rw [show s.opts.waitBetweenTries = c.waitBetweenTries from
      congrArg Terms.waitBetweenTries hst.terms, hw, toUInt_natCast hint]
  have hgive : actionRunTlsdate fork (eventDel s .tlsdate) =
      ({ eventDel s .tlsdate with resolving := false, tries := 0, backoff := w }, []) := by
    rw [actionRunTlsdate, if_neg hfired.unsynced]
    simp only [eventDel_running, hrun, eventDel_tries, eventDel_opts, hlimit, Bool.false_eq_true,
      if_false, hwait]
  rw [hgive]
  refine ⟨⟨hfired.terms, hfired.resolver, hfired.unsynced⟩, ?_, rfl⟩
  rw [resting, Retry.mk.injEq]
  exact ⟨rfl, rfl, hrun, hpid, fire_timer htimer⟩

theorem triggerTlsdate_retry {p : Pending} (sec : Int) (hst : Standing c s)
    (htimer : s.events .tlsdate = some p) :
    Standing c (triggerEvent s .tlsdate sec) ∧
      retry (triggerEvent s .tlsdate sec) =
        { retry s with timer := some (eventAdd .tlsdate sec) } := by
  have hne : EventId.tlsdate ≠ .resolver := by decide
  refine ⟨⟨(triggerEvent_terms _ _).trans hst.terms, ?_, ?_⟩, ?_⟩
  · rw [triggerEvent_events s sec hne, if_neg (by decide)]
    exact hst.resolver
  · rw [triggerEvent_lastSyncType]
    exact hst.unsynced
  · have hset : (triggerEvent s .tlsdate sec).events .tlsdate = some (eventAdd .tlsdate sec) := by
      rw [triggerEvent_events s sec hne, if_pos rfl, htimer]
      rfl
    obtain ⟨events, he, -⟩ := triggerEvent_frame s .tlsdate sec
    rw [he] at hset ⊢
    rw [retry, hset]
    rfl

theorem reap_retry {p : Pending} {status : Int} (hst : Standing c s) (hs : status ≠ 0)
    (htimer : s.events .tlsdate = some p) :
    Standing c (reapTlsdate status s) ∧ retry (reapTlsdate status s) =
      ⟨s.tries, nextBackoff s.backoff, false, 0,
        some (eventAdd .tlsdate (toInt (nextBackoff s.backoff)))⟩ := by
  have hdel := eventDel_undisturbed s (show EventId.tlsdateTimeout ≠ .tlsdate by decide)
  have hreaped : Standing c { eventDel s .tlsdateTimeout with
      running := false, tlsdatePid := 0, backoff := nextBackoff s.backoff } :=
    ⟨(hdel.standing hst).terms, (hdel.standing hst).resolver, (hdel.standing hst).unsynced⟩
  have hkept : (eventDel s .tlsdateTimeout).events .tlsdate = some p :=
    (congrArg Retry.timer hdel.retry).trans htimer
  have hreap : reapTlsdate status s = triggerEvent { eventDel s .tlsdateTimeout with
      running := false, tlsdatePid := 0, backoff := nextBackoff s.backoff } .tlsdate
      (toInt (nextBackoff s.backoff)) := by
    rw [reapTlsdate, if_neg hs]
    exact if_pos hreaped.resolver
  obtain ⟨hstanding, hretry⟩ := triggerTlsdate_retry (toInt (nextBackoff s.backoff)) hreaped hkept
  rw [hreap]
  exact ⟨hstanding, hretry⟩

theorem kickoff_retry (r : Readings) (hst : Standing c s) (hr : retry s = resting w) :
    kickoffCalls r s = [(.tlsdate, kickoffJitter r s)] ∧
      Standing c (actionKickoffTimeSync r s) ∧ retry (actionKickoffTimeSync r s) =
        { resting w with timer := some (eventAdd .tlsdate (kickoffJitter r s)) } := by
  have hforget := forgetJump_undisturbed r s
  have hstanding := hforget.standing hst
  have hretry : retry (forgetJump r s) = resting w := hforget.retry.trans hr
  obtain ⟨ht, -, -, -, htimer⟩ := Retry.mk.inj hretry
  have hidle : timerPending (forgetJump r s) .tlsdate = false := by rw [timerPending, htimer]
  have hnot : ¬ (forgetJump r s).tries > 0 := by omega
  obtain ⟨hnext, hasked⟩ := triggerTlsdate_retry (kickoffJitter r s) hstanding htimer
  rw [actionKickoffTimeSync, scheduleAttempt, if_neg hstanding.unsynced, if_neg hnot, hidle,
    if_neg Bool.false_ne_true, if_pos hstanding.resolver]
  refine ⟨?_, hnext, hasked.trans (by rw [hretry])⟩
  rw [kickoffCalls, scheduleCalls, if_pos hstanding.resolver, if_neg]
  rw [hidle]
  exact fun h => h.elim hstanding.unsynced fun h => h.elim hnot Bool.false_ne_true

end Moves

section Runs

variable {build : Build} {c : Terms} {w n : Nat} {s : State} {ms : List Milestone}

theorem due_of_cause {e : Event} (h : cause e = .due) : ∃ fork, e = .runTlsdate fork := by
  cases e with
  | runTlsdate fork => exact ⟨fork, rfl⟩
  | bus msg r => cases msg <;> cases h
  | _ => cases h

theorem child_of_cause {e : Event} (h : cause e = .child) : ∃ waits, e = .sigchld waits := by
  cases e with
  | sigchld waits => exact ⟨waits, rfl⟩
  | bus msg r => cases msg <;> cases h
  | _ => cases h

theorem fire_stage {pid : Nat} (hn : c.maxTries = n) (hw : c.waitBetweenTries = w)
    (hint : w < 2 ^ 31) (hst : Standing c s) (h : Stage w n c.setterPid (retry s) ms)
    (hs : scheduled s .tlsdate = true) (hp : pid ≠ 0) (hsetter : pid ≠ s.setterPid) :
    Standing c (actionRunTlsdate (some pid) (eventDel s .tlsdate)).1 ∧
      Stage w n c.setterPid (retry (actionRunTlsdate (some pid) (eventDel s .tlsdate)).1)
        (ms ++ List.replicate (launches (actionRunTlsdate (some pid) (eventDel s .tlsdate)).2)
          .launched) := by
  generalize hr : retry s = r at h
  cases h with
  | due k sec hk =>
      obtain hlt | rfl := Nat.lt_or_eq_of_le hk
      · obtain ⟨hstanding, hretry, hlaunch⟩ := launch_retry pid hst (by rw [hn]; omega) hr
        rw [hretry, hlaunch]
        refine ⟨hstanding, .busy k pid hlt hp ?_⟩
        rw [show c.setterPid = s.setterPid from congrArg Terms.setterPid hst.terms.symm]
        exact hsetter
      · obtain ⟨hstanding, hretry, hlaunch⟩ := giveUp_retry (some pid) hst hw hint (hn ▸ hr)
        rw [hretry, hlaunch, List.replicate_zero, List.append_nil]
        exact ⟨hstanding, .rest⟩
  | busy | rest =>
      rw [scheduled, show s.events .tlsdate = some .idle from congrArg Retry.timer hr] at hs
      cases hs

theorem reaped_due {t : State} {k : Nat} (hint : w < 2 ^ 31) (ht : s.tries = k + 1)
    (hb : s.backoff = backoffAfter w k)
    (hr : retry t = ⟨s.tries, nextBackoff s.backoff, false, 0,
      some (eventAdd .tlsdate (toInt (nextBackoff s.backoff)))⟩) :
    retry t = ⟨(k + 1 : Nat), backoffAfter w (k + 1), false, 0,
      some (.timer (backoffAfter w (k + 1)))⟩ := by
  have hbackoff := backoffAfter_lt hint (k + 1)
  rw [hr, ht, hb, nextBackoff_after, toInt_of_range (by omega) (by omega), eventAdd,
    if_pos (by omega)]
  rfl

theorem reap_stage {status : Int} (hint : w < 2 ^ 31) (hst : Standing c s)
    (h : Stage w n c.setterPid (retry s) ms) (hp : s.tlsdatePid ≠ 0) (hs : status ≠ 0) :
    Standing c (reapTlsdate status s) ∧
      Stage w n c.setterPid (retry (reapTlsdate status s)) (ms ++ delays (reapCalls status s)) ∧
      (reapTlsdate status s).tlsdatePid = 0 := by
  generalize hr : retry s = r at h
  cases h with
  | due | rest => exact absurd (congrArg Retry.pid hr) hp
  | busy k pid hk =>
      obtain ⟨ht, hb, -, -, htimer⟩ := Retry.mk.inj hr
      obtain ⟨hstanding, hretry⟩ := reap_retry hst hs htimer
      have hbackoff := backoffAfter_lt hint (k + 1)
      have hdelays : delays (reapCalls status s) = [.delayed (backoffAfter w (k + 1))] := by
        rw [reapCalls, if_neg hs, if_pos hst.resolver, hb, nextBackoff_after,
          toInt_of_range (by omega) (by omega)]
        rfl
      have hdue : Stage w n c.setterPid _ _ :=
        .due (k + 1) (backoffAfter w (k + 1)) hk (Int.natCast_nonneg _)
      rw [hdelays, reaped_due hint ht hb hretry, List.append_assoc]
      rw [schedule_succ] at hdue
      exact ⟨hstanding, hdue, congrArg Retry.pid hretry⟩

theorem handleWait_stage {wait : Wait} (hint : w < 2 ^ 31) (hst : Standing c s)
    (h : Stage w n c.setterPid (retry s) ms) (hv : validWait wait = true)
    (hf : ∀ pid, wait = .died pid 0 → pid ≠ s.tlsdatePid) :
    Standing c (handleWait s wait).state ∧
      Stage w n c.setterPid (retry (handleWait s wait).state) (ms ++ delays (waitCalls s wait)) ∧
      ((handleWait s wait).state.tlsdatePid = s.tlsdatePid ∨
        (handleWait s wait).state.tlsdatePid = 0) := by
  cases wait with
  | stopped pid permitted =>
      rw [handleWait, handleChildStop, waitCalls, delays, List.filterMap_nil, List.append_nil]
      split_ifs <;> exact ⟨hst, h, Or.inl rfl⟩
  | died pid status =>
      by_cases hother : pid = s.setterPid ∨ pid ≠ s.tlsdatePid
      · rw [handleWait, handleChildDeath, waitCalls, if_pos hother, delays, List.filterMap_nil,
          List.append_nil]
        split_ifs with hs hp
        · exact ⟨hst, h, Or.inl rfl⟩
        · exact ⟨hst, h, Or.inl rfl⟩
        · exact absurd hother (not_or.mpr ⟨hs, hp⟩)
      · obtain ⟨hs, hp⟩ := not_or.mp hother
        obtain rfl := not_not.mp hp
        have hpid : s.tlsdatePid ≠ 0 := by simpa only [validWait, bne_iff_ne] using hv
        have hstatus : status ≠ 0 := fun hz => hf _ (by rw [hz]) rfl
        obtain ⟨hstanding, hstage, hreaped⟩ := reap_stage hint hst h hpid hstatus
        rw [handleWait, handleChildDeath, if_neg hs, if_neg hp, waitCalls, if_neg hother]
        exact ⟨hstanding, hstage, Or.inr hreaped⟩

theorem delays_append (cs cs' : List Call) : delays (cs ++ cs') = delays cs ++ delays cs' :=
  List.filterMap_append ..

theorem actionSigchld_stage {waits : List Wait} (hint : w < 2 ^ 31) (hst : Standing c s)
    (h : Stage w n c.setterPid (retry s) ms) (hv : validWaits waits = true)
    (hf : ∀ pid, Wait.died pid 0 ∈ waits → pid ≠ s.tlsdatePid) :
    Standing c (actionSigchld waits s).state ∧
      Stage w n c.setterPid (retry (actionSigchld waits s).state)
        (ms ++ delays (sigchldCalls waits s)) := by
  induction waits generalizing s ms with
  | nil =>
      rw [sigchldCalls, delays, List.filterMap_nil, List.append_nil]
      exact ⟨hst, h⟩
  | cons wait waits ih =>
      obtain ⟨hvalid, hlast, hrest⟩ := validWaits_cons.mp hv
      obtain ⟨hst', h', hpid⟩ := handleWait_stage hint hst h hvalid
        (fun pid he => hf pid (he ▸ List.mem_cons_self ..))
      rw [sigchldCalls, delays_append, ← List.append_assoc]
      obtain ⟨hrefused, he⟩ | ⟨-, he, -⟩ := actionSigchld_cons wait waits s
      · rw [he, hlast hrefused, sigchldCalls, show delays [] = [] from rfl, List.append_nil]
        exact ⟨hst', h'⟩
      · rw [he]
        refine ih hst' h' hrest fun pid hm => ?_
        obtain hpid | hpid := hpid
        · rw [hpid]
          exact hf pid (List.mem_cons_of_mem _ hm)
        · have hdied := validWaits_mem hrest _ hm
          rw [hpid]
          simpa only [validWait, bne_iff_ne] using hdied

theorem paced_some {d d' : Daemon} {e : Event} {o : List Milestone}
    (h : paced build d e = some (d', o)) :
    ∃ out, EventLoop.step build d e = some (d', out) ∧
      o = List.replicate (launches out) .launched ++ delays (calls build d e) := by
  obtain ⟨⟨d₁, out⟩, hs, he⟩ := Option.map_eq_some_iff.mp h
  obtain ⟨rfl, rfl⟩ := Prod.mk.inj he
  exact ⟨out, hs, by rw [milestones, (step_asked hs).2]⟩

theorem step_stage {d d' : Daemon} {e : Event} {o : List Milestone} (hn : c.maxTries = n)
    (hw : c.waitBetweenTries = w) (hint : w < 2 ^ 31) (hst : Standing c d.state)
    (h : Stage w n c.setterPid (retry d.state) ms) (hf : Failing build d e)
    (hs : paced build d e = some (d', o)) :
    Standing c d'.state ∧ Stage w n c.setterPid (retry d'.state) (ms ++ o) := by
  obtain ⟨out, hstep, rfl⟩ := paced_some hs
  have hm := (step_moved hstep).2
  by_cases hdue : cause e = .due
  · obtain ⟨fork, rfl⟩ := due_of_cause hdue
    have hbegin : delays (beginCalls d.state) = [] := by
      rw [beginCalls]
      split_ifs <;> rfl
    rw [calls, hbegin, List.append_nil]
    generalize hd : d'.state = s' at hm
    cases hm with
    | runTlsdate _ hsch hv =>
        cases fork with
        | none => exact absurd hf.fails id
        | some pid =>
            simp only [validFork, Bool.and_eq_true, bne_iff_ne] at hv
            exact fire_stage hn hw hint hst h hsch hv.1 hv.2
  · by_cases hchild : cause e = .child
    · obtain ⟨waits, rfl⟩ := child_of_cause hchild
      rw [launches_due hm hdue, List.replicate_zero, List.nil_append]
      generalize hd : d'.state = s' at hm
      cases hm with
      | sigchld _ hv => exact actionSigchld_stage hint hst h hv hf.fails
    · obtain ⟨hsame, hlaunch, hdelay⟩ :=
        moved_undisturbed hm hf.unwoken hf.silent hst.resolver hdue hchild
      rw [hlaunch, hdelay, List.replicate_zero, List.append_nil, List.append_nil, hsame.retry]
      exact ⟨hsame.standing hst, h⟩

theorem run_stage {d₁ d : Daemon} {es : List Event} {out : List Milestone} (hn : c.maxTries = n)
    (hw : c.waitBetweenTries = w) (hint : w < 2 ^ 31) (hst : Standing c d₁.state)
    (h : Stage w n c.setterPid (retry d₁.state) [])
    (hr : Machine.Run (paced build) (Failing build) d₁ es d out) :
    Standing c d.state ∧ Stage w n c.setterPid (retry d.state) out :=
  hr.history (fun d out => Standing c d.state ∧ Stage w n c.setterPid (retry d.state) out)
    ⟨hst, h⟩ fun _ _ _ _ _ hi hf hs => step_stage hn hw hint hi.1 hi.2 hf hs

theorem fire_step (build : Build) {d : Daemon} {sec : Int} (hex : d.exited = false)
    (htimer : d.state.events .tlsdate = some (.timer sec)) :
    ∃ d' o, paced build d (.runTlsdate (some (d.state.setterPid + 1))) = some (d', o) ∧
      d'.exited = false ∧
      d'.state = (actionRunTlsdate (some (d.state.setterPid + 1)) (eventDel d.state .tlsdate)).1 := by
  have hfork : validFork d.state (some (d.state.setterPid + 1)) = true := by
    simp [validFork]
  have hs : scheduled d.state .tlsdate = true := by rw [scheduled, htimer]
  rw [paced, EventLoop.step, hex, if_neg Bool.false_ne_true, callback, if_pos hfork, fire, if_pos hs]
  exact ⟨_, _, rfl, rfl, rfl⟩

theorem death_step (build : Build) {d : Daemon} (hex : d.exited = false) (hp : d.state.tlsdatePid ≠ 0)
    (hs : d.state.tlsdatePid ≠ d.state.setterPid) :
    ∃ d' o, paced build d (.sigchld [.died d.state.tlsdatePid 1]) = some (d', o) ∧
      d'.exited = false ∧ d'.state = reapTlsdate 1 d.state := by
  have hwaits : validWaits [.died d.state.tlsdatePid 1] = true := by
    simpa [validWaits, validWait] using hp
  have hreap : actionSigchld [.died d.state.tlsdatePid 1] d.state =
      proceed (reapTlsdate 1 d.state) [] := by
    rw [actionSigchld, actionSigchld, handleWait, handleChildDeath, if_neg hs,
      if_neg (not_not.mpr rfl)]
    rfl
  rw [paced, EventLoop.step, hex, if_neg Bool.false_ne_true, callback, if_pos hwaits, hreap]
  exact ⟨_, _, rfl, rfl, rfl⟩

theorem fire_failing {d : Daemon} {pid : Nat} : Failing build d (.runTlsdate (some pid)) :=
  ⟨rfl, rfl, trivial⟩

theorem death_failing {d : Daemon} {pid : Nat} : Failing build d (.sigchld [.died pid 1]) := by
  refine ⟨rfl, rfl, fun pid' h => ?_⟩
  rw [List.mem_singleton] at h
  cases h

theorem due_completes {d : Daemon} {k m : Nat} {sec : Int} (hn : c.maxTries = n)
    (hw : c.waitBetweenTries = w) (hint : w < 2 ^ 31) (hkm : k + m = n) (hex : d.exited = false)
    (hst : Standing c d.state)
    (hr : retry d.state = ⟨k, backoffAfter w k, false, 0, some (.timer sec)⟩) :
    ∃ es d' ms, Machine.Run (paced build) (Failing build) d es d' ms ∧
      underWay d'.state = false := by
  induction m generalizing d k sec with
  | zero =>
      obtain rfl : k = n := hkm
      obtain ⟨d₁, o₁, hfire, -, hd₁⟩ := fire_step build hex (congrArg Retry.timer hr)
      obtain ⟨-, hretry, -⟩ := giveUp_retry (some (d.state.setterPid + 1)) hst hw hint (hn ▸ hr)
      rw [← hd₁] at hretry
      obtain ⟨-, -, hrun, -, htimer⟩ := Retry.mk.inj hretry
      refine ⟨_, d₁, o₁, .one fire_failing hfire, ?_⟩
      rw [underWay, timerPending, hrun, htimer]
      rfl
  | succ m ih =>
      obtain ⟨d₁, o₁, hfire, hex₁, hd₁⟩ := fire_step build hex (congrArg Retry.timer hr)
      obtain ⟨hst₁, hretry₁, -⟩ := launch_retry (d.state.setterPid + 1) hst (by rw [hn]; omega) hr
      rw [← hd₁] at hst₁ hretry₁
      obtain ⟨ht, hb, -, hpid, htimer⟩ := Retry.mk.inj hretry₁
      have hsetter : d₁.state.setterPid = d.state.setterPid :=
        (congrArg Terms.setterPid hst₁.terms).trans (congrArg Terms.setterPid hst.terms).symm
      obtain ⟨d₂, o₂, hdeath, hex₂, hd₂⟩ := death_step build hex₁ (by omega) (by omega)
      obtain ⟨hst₂, hretry₂⟩ := reap_retry hst₁ (show (1 : Int) ≠ 0 by decide) htimer
      rw [← hd₂] at hst₂ hretry₂
      have hnext := reaped_due hint ht hb hretry₂
      obtain ⟨es, d', ms, hrest, hdone⟩ := ih (by omega) hex₂ hst₂ hnext
      have htry : Machine.Run (paced build) (Failing build) d _ d₂ _ :=
        (Machine.Run.one fire_failing hfire).trans (.one death_failing hdeath)
      exact ⟨_, d', _, htry.trans hrest, hdone⟩

theorem stage_completes {d : Daemon} (hn : c.maxTries = n) (hw : c.waitBetweenTries = w)
    (hint : w < 2 ^ 31) (hst : Standing c d.state)
    (h : Stage w n c.setterPid (retry d.state) ms) (hex : d.exited = false) :
    ∃ es d' ms', Machine.Run (paced build) (Failing build) d es d' ms' ∧
      underWay d'.state = false := by
  generalize hr : retry d.state = r at h
  cases h with
  | due k sec hk =>
      exact due_completes hn hw hint (Nat.add_sub_cancel' hk) hex hst hr
  | busy k pid hk hp hs =>
      obtain ⟨ht, hb, -, hpid, htimer⟩ := Retry.mk.inj hr
      have hsetter : d.state.tlsdatePid ≠ d.state.setterPid := by
        rw [hpid, show d.state.setterPid = c.setterPid from congrArg Terms.setterPid hst.terms]
        exact hs
      obtain ⟨d₁, o₁, hdeath, hex₁, hd₁⟩ := death_step build hex (hpid ▸ hp) hsetter
      obtain ⟨hst₁, hretry₁⟩ := reap_retry hst (show (1 : Int) ≠ 0 by decide) htimer
      rw [← hd₁] at hst₁ hretry₁
      have hnext := reaped_due hint ht hb hretry₁
      obtain ⟨es, d', ms', hrest, hdone⟩ :=
        due_completes hn hw hint (Nat.add_sub_cancel' hk) hex₁ hst₁ hnext
      have htry : Machine.Run (paced build) (Failing build) d _ d₁ _ := .one death_failing hdeath
      exact ⟨_, d', _, htry.trans hrest, hdone⟩
  | rest =>
      obtain ⟨-, -, hrun, -, htimer⟩ := Retry.mk.inj hr
      refine ⟨[], d, [], .nil, ?_⟩
      rw [underWay, timerPending, hrun, htimer]
      rfl

theorem wake_retry {d₀ d₁ : Daemon} {e : Event} {out : List Output} (hst : Standing c d₀.state)
    (hr : retry d₀.state = resting w) (hwake : kicksOff build d₀.state e = true)
    (hs : EventLoop.step build d₀ e = some (d₁, out)) :
    Standing c d₁.state ∧ ∃ jitter, (Armed (calls build d₀ e) ↔ 0 ≤ jitter) ∧
      retry d₁.state = { resting w with timer := some (eventAdd .tlsdate jitter) } := by
  have hkick : ∀ r t, Undisturbed d₀.state t →
      Standing c (actionKickoffTimeSync r t) ∧ ∃ jitter, (Armed (kickoffCalls r t) ↔ 0 ≤ jitter) ∧
        retry (actionKickoffTimeSync r t) =
          { resting w with timer := some (eventAdd .tlsdate jitter) } := fun r t ht => by
    obtain ⟨hcalls, hstanding, hretry⟩ :=
      kickoff_retry r (ht.standing hst) (ht.retry.trans hr)
    refine ⟨hstanding, _, ?_, hretry⟩
    rw [hcalls, armed_cons, and_iff_left armed_nil]
    exact forall_prop_of_true rfl
  have hm := (step_moved hs).2
  generalize d₁.state = s' at hm
  cases hm with
  | continuity r => exact hkick r _ (.refl _)
  | routeUp cue r =>
      rcases cue with (_ | _) | (_ | _)
      · cases hwake
      · exact hkick r _ (.refl _)
      · cases hwake
      · exact hkick r _ (.refl _)
  | invalidate r =>
      simp only [kicksOff, Bool.not_eq_true'] at hwake
      rw [actionInvalidateTime, calls, hwake, if_neg Bool.false_ne_true, if_neg Bool.false_ne_true]
      exact hkick r _ ⟨rfl, rfl, id, fun hn => by cases hn⟩
  | service call r =>
      cases call with
      | canSetTime | lastSyncInfo | unknown => cases hwake
      | setTime requested =>
          cases requested with
          | none => cases hwake
          | some t =>
              simp only [kicksOff] at hwake
              obtain ⟨hsane, hcan⟩ := Bool.and_eq_true_iff.mp hwake
              simp only [serviceDispatch, handleSetTime, calls, hsane, hcan, Bool.not_true,
                Bool.false_eq_true, if_false, Bool.and_self, if_true]
              have hset : Undisturbed d₀.state (triggerEvent { (canSetTime r d₀.state).2 with
                  lastTime := t, lastSyncType := .platform } .save (-1)) := by
                refine ((forgetJump_undisturbed r d₀.state).trans ?_).trans
                  (triggerEvent_undisturbed _ (-1) (by decide) (by decide))
                exact ⟨rfl, rfl, id, fun hn => by cases hn⟩
              obtain ⟨hstanding, jitter, harmed, hretry⟩ := hkick r _ hset
              refine ⟨hstanding, jitter, ?_, hretry⟩
              rw [armed_cons, harmed]
              exact and_iff_right fun ht => absurd ht (by decide)
  | bus msg r h => exact absurd hst.resolver h
  | _ => cases hwake

theorem wake_looping {d₀ d₁ : Daemon} {e : Event} {out : List Output}
    (hres : d₀.state.events .resolver = none) (hwake : kicksOff build d₀.state e = true)
    (hs : EventLoop.step build d₀ e = some (d₁, out)) : d₁.exited = false := by
  rw [EventLoop.step] at hs
  split_ifs at hs
  cases e with
  | continuity r =>
      cases hs
      rfl
  | routeUp | invalidate | service =>
      simp only [callback] at hs
      split_ifs at hs
      · cases hs
        rfl
      · cases hs
  | bus msg r =>
      simp only [callback, platformCallback, if_pos hres] at hs
      cases hs
  | _ => cases hwake

theorem not_scheduled {d : Daemon} (hn : 1 ≤ n) (hr : retry d.state = resting w) :
    ¬ Scheduled build w n d := by
  intro h
  obtain ⟨-, -, hrun, -, htimer⟩ := Retry.mk.inj hr
  have hidle : underWay d.state = false := by
    rw [underWay, timerPending, hrun, htimer]
    rfl
  obtain ⟨n, rfl⟩ := Nat.exists_eq_add_of_le' hn
  have hnil := ((h.keeps [] d [] .nil).2 hidle).1
  rw [schedule_succ] at hnil
  exact List.cons_ne_nil _ _ (List.append_eq_nil_iff.mp hnil.symm).2

/-- After a wake at rest the retries keep to their schedule exactly if the
kickoff can arm its timer. -/
theorem retries_scheduled {d₀ d₁ : Daemon} {e : Event} {out : List Output} (hn : 1 ≤ n)
    (hmax : d₀.state.opts.maxTries = n) (hw : 1 ≤ w) (hint : w < 2 ^ 31)
    (hwait : d₀.state.opts.waitBetweenTries = w) (hres : d₀.state.events .resolver = none)
    (hnet : d₀.state.lastSyncType ≠ .net) (hrest : retry d₀.state = resting w)
    (hwake : kicksOff build d₀.state e = true)
    (hs : EventLoop.step build d₀ e = some (d₁, out)) :
    (∀ k, 2 * maxSaneBackoff ≤ backoffAfter w k → 2 * maxSaneBackoff ≤ w) ∧
      (Scheduled build w n d₁ ↔ Armable d₀ e) := by
  refine ⟨fun k => backoffAfter_sane, ?_⟩
  have hst : Standing (terms d₀.state) d₀.state := ⟨rfl, hres, hnet⟩
  have hback : Backing d₀.state.opts.waitBetweenTries d₀.state.backoff := by
    refine Or.inl ?_
    rw [hwait, toUInt_natCast hint]
    exact congrArg Retry.backoff hrest
  have hintwait : IntWait d₀.state.opts.waitBetweenTries := by
    rw [hwait, IntWait]
    omega
  obtain ⟨hst₁, jitter, hcalls, hretry⟩ := wake_retry hst hrest hwake hs
  rw [← calls_armed hintwait hback, hcalls]
  have hlooping := wake_looping hres hwake hs
  by_cases hj : 0 ≤ jitter
  · refine iff_of_true ?_ hj
    have hfirst : Stage w n (terms d₀.state).setterPid (retry d₁.state) [] := by
      rw [hretry, eventAdd, if_pos hj]
      exact .due 0 jitter (Nat.zero_le n) hj
    refine ⟨hlooping, fun es d ms hr => ?_, fun es d ms hr hex => ?_⟩
    · exact (run_stage hmax hwait hint hst₁ hfirst hr).2.kept
    · obtain ⟨hstanding, hstage⟩ := run_stage hmax hwait hint hst₁ hfirst hr
      exact stage_completes hmax hwait hint hstanding hstage hex
  · refine iff_of_false (not_scheduled hn ?_) hj
    rw [hretry, eventAdd, if_neg hj]
    rfl

end Runs

def unstarted : Daemon where
  state := savedStart fallbackBuild .little (setConfDefaults fallbackBuild) 100 1400000000 none
  platform := ⟨[], 0⟩
  course := .loops

theorem retries_scheduled_start : ∃ d₁,
    EventLoop.step fallbackBuild unstarted (.continuity (steadyReadings 1400000000 60)) =
      some (d₁, []) ∧ Scheduled fallbackBuild 10 10 d₁ := by
  have hs : ∃ d₁, EventLoop.step fallbackBuild unstarted
      (.continuity (steadyReadings 1400000000 60)) = some (d₁, []) := ⟨_, rfl⟩
  obtain ⟨d₁, hs⟩ := hs
  refine ⟨d₁, hs, (retries_scheduled (by decide) (by decide +kernel) (by decide) (by decide)
    (by decide +kernel) (by decide +kernel) (by decide +kernel) (by decide +kernel) rfl hs).2.mpr ?_⟩
  intro hd
  rw [desynced_zero (by decide +kernel)] at hd
  cases hd

def exhausted : List Event := synchronized ++ [.timeSet (.status setterTimeSet) uptime70, expired,
  .runTlsdate (some 201), .sigchld [.died 201 1], .runTlsdate (some 202)]

/-- The clocks have moved apart, and the random bytes are those of INT_MIN. -/
def leaping : Readings := ⟨some 1400014500, some 90, 1400014500, BitVec.intMin 32⟩

def leapt : Option ((Int × Int × Option Pending) × SyncType × Retry × Retry) :=
  onceStart.bind fun d => (Machine.exec (EventLoop.step fallbackBuild) d exhausted).bind fun p =>
    (EventLoop.step fallbackBuild p.1 (.continuity leaping)).map fun q =>
      ((p.1.state.opts.maxTries, p.1.state.opts.waitBetweenTries, p.1.state.events .resolver),
        p.1.state.lastSyncType, retry p.1.state, retry q.1.state)

theorem wake_unarmed : ∃ d d₀ d₁ outs out, onceStart = some d ∧
    Machine.Run (EventLoop.step fallbackBuild) Machine.Free d exhausted d₀ outs ∧
    d₀.state.opts.maxTries = 1 ∧ d₀.state.opts.waitBetweenTries = 10 ∧
    d₀.state.events .resolver = none ∧ d₀.state.lastSyncType = .rtc ∧
    retry d₀.state = resting 10 ∧
    EventLoop.step fallbackBuild d₀ (.continuity leaping) = some (d₁, out) ∧
    ¬ Scheduled fallbackBuild 10 1 d₁ := by
  have hleapt : leapt = some ((1, 10, none), .rtc, resting 10, resting 10) := by decide +kernel
  obtain ⟨d, hd, h⟩ := Option.bind_eq_some_iff.mp hleapt
  obtain ⟨⟨d₀, outs⟩, hx, h⟩ := Option.bind_eq_some_iff.mp h
  obtain ⟨⟨d₁, out⟩, hs, h⟩ := Option.map_eq_some_iff.mp h
  simp only [Prod.mk.injEq] at h
  obtain ⟨⟨hmax, hwait, hres⟩, hnet, hrest, hstill⟩ := h
  exact ⟨d, d₀, d₁, outs, out, hd, .of_exec hx, hmax, hwait, hres, hnet, hrest, hs,
    not_scheduled le_rfl hstill⟩

end Tlsdate.RetrySchedule
