import Tlsdate.EventLoop

namespace Tlsdate.AttemptTurns

open CInt HostBytes TimeSource Options TimestampFile DaemonState Kickoff Monitor Attempts Saving
  DBusService ProxyResolver EventLoop

/-- What the attempts are made under; no callback changes any of it. -/
structure Terms where
  maxTries : Int
  waitBetweenTries : Int
  subprocessWait : Int
  setterPid : Nat
  watchdog : Bool

/-- The part of the state that belongs to the attempts: `asked` says that
E_TLSDATE is scheduled, and `watched` that E_TLSDATE_TIMEOUT is pending. -/
structure Attempt where
  tries : Int
  backoff : Nat
  running : Bool
  pid : Nat
  asked : Bool
  watched : Bool

def terms (s : State) : Terms where
  maxTries := s.opts.maxTries
  waitBetweenTries := s.opts.waitBetweenTries
  subprocessWait := s.opts.subprocessWaitBetweenTries
  setterPid := s.setterPid
  watchdog := (s.events .tlsdateTimeout).isSome

def attempt (s : State) : Attempt where
  tries := s.tries
  backoff := s.backoff
  running := s.running
  pid := s.tlsdatePid
  asked := scheduled s .tlsdate
  watched := timerPending s .tlsdateTimeout

/-- What an attempt is moved by: a kickoff, an answer of the resolver, E_TLSDATE,
the monitor pipe, E_TLSDATE_TIMEOUT, SIGCHLD or anything else. -/
inductive Cause
  | wake
  | answer
  | due
  | status
  | timeout
  | child
  | other
  deriving DecidableEq

def cause : Event → Cause
  | .continuity _ | .routeUp _ _ | .invalidate _ | .service _ _ | .bus .wake _ => .wake
  | .resolveProxy _ | .bus _ _ => .answer
  | .runTlsdate _ => .due
  | .tlsdateStatus _ => .status
  | .tlsdateTimeout => .timeout
  | .sigchld _ => .child
  | .sigterm _ | .save _ _ _ | .timeSet _ _ => .other

/-- What happens to the children: one is launched, sent SIGKILL or reaped, or a
whole word of a reply is read. -/
inductive Mark
  | launched (pid : Nat)
  | killed (pid : Nat)
  | reaped (pid : Nat)
  | replied
  deriving DecidableEq

def waitMarks : Wait → List Mark
  | .died pid _ => [.reaped pid]
  | .stopped pid permitted => if permitted then [.killed pid] else []

def outputMark : Output → Option Mark
  | .launch pid _ => some (.launched pid)
  | .kill pid => some (.killed pid)
  | _ => none

def marks (out : List Output) : Event → List Mark
  | .sigchld waits => waits.flatMap waitMarks
  | .tlsdateStatus (.word _) => [.replied]
  | _ => out.filterMap outputMark

inductive Turn (c : Terms) : Cause → Attempt → List Mark → Attempt → Prop
  | rest (k a) : Turn c k a [] a
  | spend (a) (ht : 0 < a.tries) : Turn c .wake a [] { a with tries := a.tries - 1 }
  | ask (a asked) (ht : a.tries ≤ 0) : Turn c .wake a [] { a with asked := asked }
  | answer (a) : Turn c .answer a [] { a with asked := true }
  | unneeded (a) (ha : a.asked = true) : Turn c .due a [] { a with asked := false }
  | rerun (a) (ha : a.asked = true) (hr : a.running = true) (ht : 0 < a.tries) : Turn c .due a []
      { a with tries := a.tries - 1, backoff := toUInt c.waitBetweenTries, asked := false }
  | exhausted (a) (ha : a.asked = true) (hr : a.running = false) (ht : c.maxTries ≤ a.tries) :
      Turn c .due a [] { a with tries := 0, backoff := toUInt c.waitBetweenTries, asked := false }
  | unforked (a) (ha : a.asked = true) (hr : a.running = false) (ht : a.tries < c.maxTries) :
      Turn c .due a [] { a with tries := 0, asked := false, watched := false }
  | launch (a pid) (ha : a.asked = true) (hr : a.running = false) (ht : a.tries < c.maxTries)
      (hp : pid ≠ 0) (hs : pid ≠ c.setterPid) : Turn c .due a [.launched pid]
        { a with
          tries := a.tries + 1
          running := true
          pid := pid
          asked := false
          watched := c.watchdog && decide (0 ≤ c.subprocessWait) }
  | reply (a) : Turn c .status a [.replied]
      { a with tries := 0, backoff := toUInt c.waitBetweenTries }
  | truncated (a) : Turn c .status a [] { a with watched := c.watchdog }
  | timeOut (a) : Turn c .timeout a (if a.pid ≠ 0 then [.killed a.pid] else [])
      { a with watched := false }
  | reap (a) (hp : a.pid ≠ 0) (hs : a.pid ≠ c.setterPid) : Turn c .child a [.reaped a.pid]
      { a with running := false, pid := 0, watched := false }
  | fail (a asked) (hp : a.pid ≠ 0) (hs : a.pid ≠ c.setterPid) : Turn c .child a [.reaped a.pid]
      { a with
        backoff := nextBackoff a.backoff
        running := false
        pid := 0
        asked := asked
        watched := false }
  | stray (a pid) (hp : pid = c.setterPid ∨ pid ≠ a.pid) : Turn c .child a [.reaped pid] a
  | stop (a pid) : Turn c .child a [.killed pid] a

inductive Turns (c : Terms) (k : Cause) : Attempt → List Mark → Attempt → Prop
  | nil (a) : Turns c k a [] a
  | cons {a b d ms ns} : Turn c k a ms b → Turns c k b ns d → Turns c k a (ms ++ ns) d

variable {build : Build} {c : Terms} {k : Cause} {s : State}

theorem Turn.turns {a b : Attempt} {ms : List Mark} (h : Turn c k a ms b) : Turns c k a ms b := by
  simpa using Turns.cons h (.nil b)

theorem Turns.append {a b d : Attempt} {ms ns : List Mark} (h : Turns c k a ms b)
    (h' : Turns c k b ns d) : Turns c k a (ms ++ ns) d := by
  induction h with
  | nil => exact h'
  | cons ht _ ih => rw [List.append_assoc]; exact .cons ht (ih h')

theorem Turns.launched {a b : Attempt} {ms : List Mark} {pid : Nat} (h : Turns c k a ms b)
    (hm : Mark.launched pid ∈ ms) : k = .due := by
  induction h with
  | nil => cases hm
  | cons ht _ ih =>
      rcases List.mem_append.mp hm with hm | hm
      · cases ht with
        | launch => rfl
        | timeOut => split at hm <;> simp at hm
        | _ => simp at hm
      · exact ih hm

/-- What every turn keeps whose marks are admissible, with a record folded from
the marks, every callback keeps. -/
theorem Turns.keep_marked {μ : Type} {note : μ → Mark → μ} {I : Attempt → μ → Prop} {Q : Mark → Prop}
    (hturn : ∀ a m ms b, (∀ x ∈ ms, Q x) → I a m → Turn c k a ms b → I b (ms.foldl note m))
    {a b : Attempt} {m : μ} {ms : List Mark} (hq : ∀ x ∈ ms, Q x) (hi : I a m)
    (h : Turns c k a ms b) : I b (ms.foldl note m) := by
  induction h generalizing m with
  | nil => exact hi
  | cons ht _ ih =>
      rw [List.forall_mem_append] at hq
      rw [List.foldl_append]
      exact ih hq.2 (hturn _ _ _ _ hq.1 hi ht)

theorem Turns.keep {μ : Type} {note : μ → Mark → μ} {I : Attempt → μ → Prop}
    (hturn : ∀ a m ms b, I a m → Turn c k a ms b → I b (ms.foldl note m)) {a b : Attempt} {m : μ}
    {ms : List Mark} (hi : I a m) (h : Turns c k a ms b) : I b (ms.foldl note m) :=
  h.keep_marked (Q := fun _ => True) (fun a m ms b _ => hturn a m ms b) (fun _ _ => trivial) hi

theorem Turns.preserve {I : Attempt → Prop} (hturn : ∀ a ms b, I a → Turn c k a ms b → I b)
    {a b : Attempt} {ms : List Mark} (hi : I a) (h : Turns c k a ms b) : I b :=
  @Turns.keep c k Unit (fun m _ => m) (fun a _ => I a) (fun a _ ms b => hturn a ms b) a b () ms hi h

def census (alive : List Nat) : Mark → List Nat
  | .launched pid => pid :: alive
  | .reaped pid => alive.filter (· ≠ pid)
  | .killed _ | .replied => alive

structure Single (c : Terms) (a : Attempt) (alive : List Nat) : Prop where
  child : a.running = true ↔ a.pid ≠ 0
  own : a.running = true → a.pid ≠ c.setterPid
  alive : alive = if a.running then [a.pid] else []

theorem Single.reaped {a b : Attempt} {alive : List Nat} (hi : Single c a alive) (hp : a.pid ≠ 0)
    (hr : b.running = false) (hp' : b.pid = 0) : Single c b (census alive (.reaped a.pid)) := by
  refine ⟨by simp [hr, hp'], by simp [hr], ?_⟩
  simp [census, hi.alive, hi.child.mpr hp, hr]

theorem Single.stray {a : Attempt} {alive : List Nat} {pid : Nat} (hi : Single c a alive)
    (hp : pid = c.setterPid ∨ pid ≠ a.pid) : Single c a (census alive (.reaped pid)) := by
  refine ⟨hi.child, hi.own, ?_⟩
  rw [census, hi.alive]
  split
  next hr =>
    have hne : a.pid ≠ pid := by
      rcases hp with rfl | hp
      · exact hi.own hr
      · exact hp.symm
    simp [hne]
  next => rfl

theorem Single.turn {a b : Attempt} {alive : List Nat} {ms : List Mark} (hi : Single c a alive)
    (ht : Turn c k a ms b) : Single c b (ms.foldl census alive) := by
  cases ht with
  | rest | spend | ask | answer | unneeded | rerun | exhausted | unforked | reply | truncated | stop =>
      exact ⟨hi.child, hi.own, hi.alive⟩
  | timeOut => split <;> exact ⟨hi.child, hi.own, hi.alive⟩
  | launch _ pid _ hr _ hp hs =>
      exact ⟨by simpa using hp, fun _ => hs, by simp [census, hi.alive, hr]⟩
  | reap _ hp | fail _ _ hp => exact hi.reaped hp rfl rfl
  | stray _ pid hp => exact hi.stray hp

def Moves (k : Cause) (s : State) (ms : List Mark) (s' : State) : Prop :=
  terms s' = terms s ∧ Turns (terms s) k (attempt s) ms (attempt s')

theorem Moves.turn {s' : State} {ms : List Mark} (hc : terms s' = terms s)
    (h : Turn (terms s) k (attempt s) ms (attempt s')) : Moves k s ms s' :=
  ⟨hc, h.turns⟩

def attemptTimer : EventId → Bool
  | .tlsdate | .resolver | .tlsdateTimeout => true
  | _ => false

def Alike (s s' : State) : Prop := terms s' = terms s ∧ attempt s' = attempt s

theorem Alike.refl (s : State) : Alike s s := ⟨rfl, rfl⟩

theorem Alike.trans {s t u : State} (h : Alike s t) (k : Alike t u) : Alike s u :=
  ⟨k.1.trans h.1, k.2.trans h.2⟩

theorem Alike.moves {s' : State} (k : Cause) (h : Alike s s') : Moves k s [] s' :=
  .turn h.1 (h.2 ▸ .rest k _)

theorem Moves.after {t u : State} {ms : List Mark} (h : Alike s t) (hm : Moves k t ms u) :
    Moves k s ms u :=
  ⟨hm.1.trans h.1, by rw [← h.1, ← h.2]; exact hm.2⟩

theorem Moves.trans {t u : State} {ms ns : List Mark} (h : Moves k s ms t)
    (h' : Moves k t ns u) : Moves k s (ms ++ ns) u :=
  ⟨h'.1.trans h.1, h.2.append (h.1 ▸ h'.2)⟩

theorem eventDel_terms (id : EventId) : terms (eventDel s id) = terms s := by
  by_cases h : EventId.tlsdateTimeout = id
  · simp [terms, h, eventDel]
  · simp [terms, h, eventDel]

theorem triggerEvent_terms (id : EventId) (sec : Int) : terms (triggerEvent s id sec) = terms s := by
  obtain ⟨events, he, hsome⟩ := triggerEvent_frame s id sec
  rw [he]
  simp only [terms, hsome]

theorem eventDel_alike {id : EventId} (h : id ≠ .tlsdate) (h' : id ≠ .tlsdateTimeout) :
    Alike s (eventDel s id) :=
  ⟨eventDel_terms id, by
    simp only [attempt, scheduled, timerPending, eventDel_events, Ne.symm h, Ne.symm h', if_false]
    rfl⟩

theorem triggerEvent_attempt {id : EventId} (sec : Int) : attempt (triggerEvent s id sec) =
    { attempt s with
      asked := scheduled (triggerEvent s id sec) .tlsdate
      watched := timerPending (triggerEvent s id sec) .tlsdateTimeout } := by
  obtain ⟨events, he, -⟩ := triggerEvent_frame s id sec
  rw [he]
  rfl

theorem triggerEvent_asked {id : EventId} (sec : Int) (h : id ≠ .tlsdateTimeout) :
    attempt (triggerEvent s id sec) =
      { attempt s with asked := scheduled (triggerEvent s id sec) .tlsdate } := by
  rw [triggerEvent_attempt]
  simp only [attempt, timerPending, triggerEvent_other s sec (Ne.symm h) (by decide)]

theorem ne_of_attemptTimer {id j : EventId} (h : attemptTimer id = false)
    (hj : attemptTimer j = true) : id ≠ j := by
  rintro rfl
  rw [h] at hj
  cases hj

theorem triggerEvent_alike {id : EventId} (sec : Int) (h : attemptTimer id = false) :
    Alike s (triggerEvent s id sec) := by
  have hne := fun j hj => ne_of_attemptTimer (j := j) h hj
  refine ⟨triggerEvent_terms id sec, ?_⟩
  rw [triggerEvent_asked sec (hne .tlsdateTimeout rfl)]
  simp only [attempt, scheduled, triggerEvent_events s sec (hne .resolver rfl),
    (hne .tlsdate rfl).symm, if_false]

theorem forgetJump_alike (r : Readings) (s : State) : Alike s (forgetJump r s) := by
  rcases forgetJump_frame r s with h | h <;> rw [h] <;> exact ⟨rfl, rfl⟩

theorem scheduleAttempt_moves (jitter : Int) (s : State) :
    Moves .wake s [] (scheduleAttempt jitter s) := by
  rw [scheduleAttempt]
  split
  next => exact (Alike.refl s).moves .wake
  next =>
    split
    next ht => exact .turn rfl (.spend (attempt s) ht)
    next ht =>
      split
      next => exact (Alike.refl s).moves .wake
      next =>
        split
        next =>
          refine .turn (triggerEvent_terms _ _) ?_
          rw [triggerEvent_asked _ (by decide)]
          exact .ask _ _ (not_lt.mp ht)
        next =>
          refine .turn ((triggerEvent_terms _ _).trans (triggerEvent_terms _ _)) ?_
          rw [triggerEvent_asked _ (by decide), triggerEvent_asked _ (by decide)]
          exact .ask (attempt s) _ (not_lt.mp ht)

theorem kickoff_moves (r : Readings) (s : State) : Moves .wake s [] (actionKickoffTimeSync r s) :=
  .after (forgetJump_alike r s) (scheduleAttempt_moves _ _)

theorem answer_moves (s : State) : Moves .answer s [] (triggerEvent s .tlsdate 1) := by
  cases h : s.events .tlsdate with
  | none =>
      have hsame : Alike s (triggerEvent s .tlsdate 1) := by
        simp only [triggerEvent, reduceCtorEq, false_and, if_false, h]
        exact ⟨rfl, rfl⟩
      exact hsame.moves .answer
  | some p =>
      refine .turn (triggerEvent_terms _ _) ?_
      rw [triggerEvent_asked 1 (by decide)]
      have hasked : scheduled (triggerEvent s .tlsdate 1) .tlsdate = true := by
        simp [scheduled, triggerEvent_events, h, eventAdd]
      rw [hasked]
      exact .answer _

theorem triggerEvent_watched (sec : Int) : attempt (triggerEvent s .tlsdateTimeout sec) =
    { attempt s with watched := (terms s).watchdog && decide (0 ≤ sec) } := by
  have hne : EventId.tlsdateTimeout ≠ .resolver := by decide
  have hasked : scheduled (triggerEvent s .tlsdateTimeout sec) .tlsdate = scheduled s .tlsdate := by
    simp only [scheduled, triggerEvent_events s sec hne, reduceCtorEq, if_false]
  have hwatched : timerPending (triggerEvent s .tlsdateTimeout sec) .tlsdateTimeout =
      ((terms s).watchdog && decide (0 ≤ sec)) := by
    simp only [timerPending, triggerEvent_events s sec hne, if_true, terms]
    cases s.events .tlsdateTimeout with
    | none => rfl
    | some p => by_cases h : 0 ≤ sec <;> simp [eventAdd, timerOnly, h]
  rw [triggerEvent_attempt, hasked, hwatched]
  rfl

/-- The state in which `action_run_tlsdate` forks. -/
def armed (s : State) : State :=
  triggerEvent (triggerEvent { s with tries := s.tries + 1, running := true } .tlsdateTimeout
    s.opts.subprocessWaitBetweenTries) .tlsdateStatus (-1)

theorem beginAttempt_none (s : State) : beginAttempt none s =
    (eventDel { armed s with running := false, tries := 0 } .tlsdateTimeout, []) := rfl

theorem beginAttempt_some (pid : Nat) (s : State) : beginAttempt (some pid) s =
    ({ armed s with tlsdatePid := pid }, [.launch pid (child (armed s))]) := rfl

theorem armed_terms (s : State) : terms (armed s) = terms s :=
  (triggerEvent_terms _ _).trans (triggerEvent_terms _ _)

theorem armed_attempt (s : State) : attempt (armed s) =
    { attempt s with
      tries := s.tries + 1
      running := true
      watched := (terms s).watchdog && decide (0 ≤ (terms s).subprocessWait) } := by
  rw [armed, (triggerEvent_alike (-1) rfl).2, triggerEvent_watched]
  rfl

theorem eventDel_timeout (s : State) :
    attempt (eventDel s .tlsdateTimeout) = { attempt s with watched := false } := by
  have hidle : timerPending (eventDel s .tlsdateTimeout) .tlsdateTimeout = false := by
    simp only [timerPending, eventDel_events, if_true]
    cases s.events .tlsdateTimeout <;> rfl
  simp only [attempt, hidle, scheduled, eventDel_events]
  rfl

theorem eventDel_asked (s : State) :
    attempt (eventDel s .tlsdate) = { attempt s with asked := false } := by
  have hidle : scheduled (eventDel s .tlsdate) .tlsdate = false := by
    simp only [scheduled, eventDel_events, if_true]
    cases s.events .tlsdate <;> rfl
  simp only [attempt, hidle, timerPending, eventDel_events]
  rfl

theorem beginAttempt_moves {fork : Option Nat} {t : State} (hc : terms t = terms s)
    (ha : attempt t = { attempt s with asked := false }) (hs : scheduled s .tlsdate = true)
    (hr : s.running = false) (ht : s.tries < s.opts.maxTries) (hf : validFork s fork = true) :
    Moves .due s ((beginAttempt fork t).2.filterMap outputMark) (beginAttempt fork t).1 := by
  have harmed := armed_attempt t
  have htries : t.tries = s.tries := congrArg Attempt.tries ha
  rw [ha, hc, htries] at harmed
  cases fork with
  | none =>
      rw [beginAttempt_none]
      refine .turn ((eventDel_terms _).trans ((armed_terms t).trans hc)) ?_
      have hfinal : attempt (eventDel { armed t with running := false, tries := 0 } .tlsdateTimeout) =
          { attempt s with tries := 0, asked := false, watched := false } := by
        have hback : attempt { armed t with running := false, tries := 0 } =
          { attempt (armed t) with running := false, tries := 0 } := rfl
        rw [eventDel_timeout, hback, harmed]
        simp only [attempt, hr]
      rw [hfinal]
      exact .unforked (attempt s) hs hr ht
  | some pid =>
      simp only [validFork, Bool.and_eq_true, bne_iff_ne] at hf
      rw [beginAttempt_some]
      refine .turn ((armed_terms t).trans hc) ?_
      have hpid : attempt { armed t with tlsdatePid := pid } = { attempt (armed t) with pid := pid } :=
        rfl
      rw [hpid, harmed]
      exact .launch (attempt s) pid hs hr ht hf.1 hf.2

theorem actionRunTlsdate_moves {fork : Option Nat} (hs : scheduled s .tlsdate = true)
    (hf : validFork s fork = true) :
    Moves .due s ((actionRunTlsdate fork (eventDel s .tlsdate)).2.filterMap outputMark)
      (actionRunTlsdate fork (eventDel s .tlsdate)).1 := by
  have hterms := eventDel_terms (s := s) .tlsdate
  have hasked := eventDel_asked s
  simp only [actionRunTlsdate]
  split
  next => exact .turn hterms (hasked ▸ .unneeded _ hs)
  next =>
    split
    next hr =>
      split
      next ht =>
        refine .turn hterms ?_
        have hspent : attempt { eventDel s .tlsdate with
            resolving := false, tries := s.tries - 1, backoff := toUInt s.opts.waitBetweenTries } =
            { attempt (eventDel s .tlsdate) with
              tries := s.tries - 1, backoff := toUInt s.opts.waitBetweenTries } := rfl
        rw [hasked] at hspent
        exact hspent ▸ .rerun (attempt s) hs hr ht
      next => exact .turn hterms (hasked ▸ .unneeded (attempt s) hs)
    next hr =>
      have hidle : s.running = false := by simpa using hr
      split
      next ht => exact beginAttempt_moves hterms hasked hs hidle ht hf
      next ht =>
        refine .turn hterms ?_
        have hspent : attempt { eventDel s .tlsdate with
            resolving := false, tries := 0, backoff := toUInt s.opts.waitBetweenTries } =
            { attempt (eventDel s .tlsdate) with
              tries := 0, backoff := toUInt s.opts.waitBetweenTries } := rfl
        rw [hasked] at hspent
        exact hspent ▸ .exhausted (attempt s) hs hidle (not_lt.mp ht)

theorem actionTlsdateStatus_moves (read : MonitorRead) :
    Moves .status s (marks [] (.tlsdateStatus read))
      (actionTlsdateStatus build read (eventDel s .tlsdateStatus)) := by
  have hdel : Alike s (eventDel s .tlsdateStatus) := eventDel_alike (by decide) (by decide)
  refine .after hdel ?_
  cases read with
  | again => exact (triggerEvent_alike (-1) rfl).moves .status
  | truncated =>
      refine .turn (triggerEvent_terms _ _) ?_
      simp only [actionTlsdateStatus, triggerEvent_watched, le_refl, decide_true, Bool.and_true]
      exact .truncated _
  | word serverTime =>
      have hsaved : ∀ t : State, Alike (eventDel s .tlsdateStatus) t →
          Moves .status (eventDel s .tlsdateStatus) [.replied]
            { t with tries := 0, backoff := toUInt t.opts.waitBetweenTries } := by
        intro t ht
        refine .turn ht.1 ?_
        have hreply : attempt { t with tries := 0, backoff := toUInt t.opts.waitBetweenTries } =
            { attempt t with tries := 0, backoff := toUInt (terms t).waitBetweenTries } := rfl
        rw [hreply, ht.1, ht.2]
        exact .reply _
      simp only [actionTlsdateStatus]
      split
      next =>
        refine hsaved _ (Alike.trans ?_ (triggerEvent_alike (-1) rfl))
        exact ⟨rfl, rfl⟩
      next => exact hsaved _ (.refl _)

theorem reapTlsdate_moves {status : Int} (hp : s.tlsdatePid ≠ 0) (hs : s.tlsdatePid ≠ s.setterPid) :
    Moves .child s [.reaped s.tlsdatePid] (reapTlsdate status s) := by
  have hdel : attempt { eventDel s .tlsdateTimeout with running := false, tlsdatePid := 0 } =
      { attempt (eventDel s .tlsdateTimeout) with running := false, pid := 0 } := rfl
  rw [eventDel_timeout] at hdel
  have hterms := eventDel_terms (s := s) .tlsdateTimeout
  have hfail : attempt { eventDel s .tlsdateTimeout with
      running := false, tlsdatePid := 0, backoff := nextBackoff s.backoff } =
      { attempt (eventDel s .tlsdateTimeout) with
        running := false, pid := 0, backoff := nextBackoff s.backoff } := rfl
  rw [eventDel_timeout] at hfail
  have hturn : ∀ (t : State) asked, attempt t = { attempt s with
        backoff := nextBackoff s.backoff, running := false, pid := 0, watched := false } →
      Turn (terms s) .child (attempt s) [.reaped s.tlsdatePid] { attempt t with asked := asked } := by
    intro t asked ht
    rw [ht]
    exact .fail (attempt s) asked hp hs
  obtain ⟨-, heq⟩ | ⟨-, t, rfl, ⟨-, heq⟩ | ⟨-, heq⟩⟩ := reapTlsdate_cases status s
  all_goals rw [heq]
  · exact .turn hterms (hdel ▸ .reap (attempt s) hp hs)
  · refine .turn ((triggerEvent_terms _ _).trans hterms) ?_
    rw [triggerEvent_asked _ (by decide)]
    exact hturn _ _ hfail
  · refine .turn ((triggerEvent_terms _ _).trans ((triggerEvent_terms _ _).trans hterms)) ?_
    rw [triggerEvent_asked _ (by decide), triggerEvent_asked _ (by decide)]
    exact hturn _ _ hfail

theorem handleWait_moves {w : Wait} (hw : validWait w = true) :
    Moves .child s (waitMarks w) (handleWait s w).state := by
  cases w with
  | stopped pid permitted =>
      simp only [handleWait, handleChildStop, waitMarks]
      split
      next => exact .turn rfl (.stop (attempt s) pid)
      next => exact .turn rfl (.rest .child (attempt s))
  | died pid status =>
      have hpid : pid ≠ 0 := by simpa only [validWait, bne_iff_ne] using hw
      simp only [handleWait, handleChildDeath, waitMarks]
      split
      next hs => exact .turn rfl (.stray (attempt s) pid (Or.inl hs))
      next hs =>
        split
        next hp => exact .turn rfl (.stray (attempt s) pid (Or.inr hp))
        next hp =>
          obtain rfl := not_not.mp hp
          exact reapTlsdate_moves hpid hs

theorem actionSigchld_moves {waits : List Wait} (hw : validWaits waits = true) :
    Moves .child s (waits.flatMap waitMarks) (actionSigchld waits s).state := by
  induction waits generalizing s with
  | nil => exact ⟨rfl, .nil _⟩
  | cons w ws ih =>
      obtain ⟨hvalid, hlast, hrest⟩ := validWaits_cons.mp hw
      have hfirst : Moves .child s (waitMarks w) (handleWait s w).state := handleWait_moves hvalid
      obtain ⟨hrefused, heq⟩ | ⟨-, heq, -⟩ := actionSigchld_cons w ws s
      · rw [heq, hlast hrefused]
        simpa using hfirst
      · rw [heq]
        exact hfirst.trans (ih hrest)

theorem handleSetTime_moves (r : Readings) (requested : Option Int) :
    Moves .wake s [] (handleSetTime build r requested s).1 := by
  simp only [handleSetTime]
  split
  next => exact (Alike.refl s).moves .wake
  next t =>
    split
    next => exact (Alike.refl s).moves .wake
    next =>
      have hcan : Alike s (canSetTime r s).2 := forgetJump_alike r s
      split
      next => exact hcan.moves .wake
      next =>
        refine .after ?_ (kickoff_moves r _)
        refine hcan.trans (.trans (t := { (canSetTime r s).2 with
          lastTime := t, lastSyncType := .platform }) ⟨rfl, rfl⟩ ?_)
        exact triggerEvent_alike (-1) rfl

theorem actionResolveProxy_moves (send : Option Nat) (ctx : Platform) :
    Moves .answer s [] (actionResolveProxy send (eventDel s .resolver) ctx).1 := by
  have hdel : Alike s (eventDel s .resolver) := eventDel_alike (by decide) (by decide)
  obtain h | ⟨-, -, h | h | ⟨serial, url, -, h⟩⟩ := actionResolveProxy_cases send (eventDel s .resolver) ctx
  all_goals rw [h]
  · exact hdel.moves .answer
  · exact .after (t := { eventDel s .resolver with dynamicProxy := "" }) hdel (answer_moves _)
  · exact Alike.moves .answer hdel
  · exact Alike.moves .answer hdel

theorem dbusFilter_moves (r : Readings) (msg : BusMessage) (ctx : Platform) :
    Moves (cause (.bus msg r)) s [] (dbusFilter r msg s ctx).1 := by
  cases msg with
  | wake => exact kickoff_moves r s
  | disconnected | methodReturn | other => exact (Alike.refl s).moves .answer
  | serviceUnknown => exact .after (t := { s with resolving := false }) ⟨rfl, rfl⟩ (answer_moves _)
  | resolved url proxy =>
      obtain h | ⟨-, h⟩ := handleProxyChange_cases url proxy s
      all_goals rw [dbusFilter, h]
      · exact (Alike.refl s).moves .answer
      · exact .after (t := { s with resolving := false, dynamicProxy := proxy }) ⟨rfl, rfl⟩
          (answer_moves _)

theorem moved_moves {ctx : Platform} {e : Event} {s' : State} {out : List Output}
    (h : Moved build s ctx e s' out) : Moves (cause e) s (marks out e) s' := by
  cases h with
  | continuity r => exact kickoff_moves r s
  | routeUp cue r =>
      have hdel : Alike s (eventDel s .routeup) := eventDel_alike (by decide) (by decide)
      rcases cue with (_ | _) | (_ | _)
      · exact (Alike.refl s).moves .wake
      · exact kickoff_moves r s
      · exact hdel.moves .wake
      · exact kickoff_moves r s
  | invalidate r =>
      simp only [actionInvalidateTime]
      split
      next => exact (Alike.refl s).moves .wake
      next => exact .after (t := invalidateTime r s) ⟨rfl, rfl⟩ (kickoff_moves r _)
  | runTlsdate fork hs hf => exact actionRunTlsdate_moves hs hf
  | tlsdateStatus read => exact actionTlsdateStatus_moves read
  | tlsdateTimeout =>
      refine .turn (eventDel_terms _) ?_
      rw [eventDel_timeout]
      have hout : marks (actionTlsdateTimeout (eventDel s .tlsdateTimeout)) .tlsdateTimeout =
          if (attempt s).pid ≠ 0 then [.killed (attempt s).pid] else [] := by
        by_cases hp : s.tlsdatePid = 0
        · simp [marks, actionTlsdateTimeout, attempt, eventDel, hp]
        · simp [marks, actionTlsdateTimeout, attempt, eventDel, outputMark, hp]
      rw [hout]
      exact .timeOut (attempt s)
  | sigchld waits hw => exact actionSigchld_moves hw
  | sigterm now =>
      cases now with
      | none => exact Alike.moves .other ⟨rfl, rfl⟩
      | some sec =>
          refine Alike.moves .other (.trans (t := { s with exitting := true, lastTime := sec })
            ⟨rfl, rfl⟩ ?_)
          exact triggerEvent_alike (-1) rfl
  | save readable write shutdown =>
      have hdel : Alike s (eventDel s .save) := eventDel_alike (by decide) (by decide)
      obtain ⟨hstate, houtputs⟩ := actionSyncAndSave_cases readable write shutdown (eventDel s .save)
      have hout : marks (actionSyncAndSave readable write shutdown (eventDel s .save)).outputs
          (.save readable write shutdown) = [] := by
        refine List.filterMap_eq_nil_iff.mpr fun o ho => ?_
        obtain ⟨word, rfl⟩ := houtputs o ho
        rfl
      rw [hout]
      obtain h | h := hstate
      all_goals rw [h]
      · exact hdel.moves .other
      · exact Alike.moves .other hdel
  | timeSet read r =>
      obtain ⟨hstate, houtputs⟩ := actionTimeSet_cases r read s
      have hout : marks (actionTimeSet r read s).outputs (.timeSet read r) = [] := by
        refine List.filterMap_eq_nil_iff.mpr fun o ho => ?_
        obtain ⟨sync, rfl⟩ := houtputs o ho
        rfl
      rw [hout]
      obtain h | h | ⟨-, h⟩ := hstate
      all_goals
        rw [h]
        exact Alike.moves .other ⟨rfl, rfl⟩
  | service call r =>
      have hout : marks (serviceDispatch build r call s).2 (.service call r) = [] := by
        cases call with
        | setTime requested =>
            simp only [marks, serviceDispatch, handleSetTime]
            repeat' split
            all_goals rfl
        | canSetTime | lastSyncInfo | unknown => rfl
      rw [hout]
      cases call with
      | setTime requested => exact handleSetTime_moves r requested
      | canSetTime => exact Alike.moves .wake (forgetJump_alike r s)
      | lastSyncInfo | unknown => exact (Alike.refl s).moves .wake
  | resolveProxy send =>
      have hout : marks (actionResolveProxy send (eventDel s .resolver) ctx).2.2
          (.resolveProxy send) = [] := by
        obtain h | ⟨-, -, h | h | ⟨serial, url, -, h⟩⟩ :=
          actionResolveProxy_cases send (eventDel s .resolver) ctx
        all_goals
          rw [h]
          rfl
      rw [hout]
      exact actionResolveProxy_moves send ctx
  | bus msg r => exact dbusFilter_moves r msg ctx

def recorded {μ : Type} (note : μ → Mark → μ) (m : μ) (_ : Daemon) (e : Event) (_ : Daemon)
    (out : List Output) : μ := (marks out e).foldl note m

theorem step_keep {μ : Type} {note : μ → Mark → μ} {I : Attempt → μ → Prop} {d d' : Daemon × μ}
    {e : Event} {out : List Output} (hc : terms d.1.state = c)
    (hs : Machine.observed (EventLoop.step build) (recorded note) d e = some (d', out))
    (hi : I (attempt d.1.state) d.2)
    (hturn : ∀ a m ms b, I a m → Turn c (cause e) a ms b → I b (ms.foldl note m)) :
    terms d'.1.state = c ∧ I (attempt d'.1.state) d'.2 := by
  obtain ⟨hstep, hm⟩ := Machine.observed_some hs
  obtain ⟨hterms, hturns⟩ := moved_moves (step_moved hstep).2
  rw [hc] at hterms hturns
  refine ⟨hterms, ?_⟩
  rw [hm]
  exact hturns.keep hturn hi

theorem startup_attempt {order : ByteOrder} {opts : Opts} {platform : Bool} {setterPid : Nat}
    {now : Int} {file : File} {n : BitVec 32} {r : Readings} {d : Daemon}
    (h : startup build order opts platform setterPid now file n r = some d) :
    ∃ s, d.state = actionKickoffTimeSync r s ∧
      terms s = ⟨opts.maxTries, opts.waitBetweenTries, opts.subprocessWaitBetweenTries, setterPid,
        true⟩ ∧
      attempt s = ⟨0, toUInt opts.waitBetweenTries, false, 0, false, false⟩ := by
  simp only [startup] at h
  split at h
  next => cases h
  next =>
    obtain ⟨⟨s, ctx⟩, hs, rfl⟩ := Option.map_eq_some_iff.mp h
    refine ⟨setupWakes n s, rfl, ?_⟩
    have hwakes : Alike s (setupWakes n s) := ⟨rfl, rfl⟩
    rw [hwakes.1, hwakes.2]
    have hsaved : terms (savedStart build order { withDefaultSource opts with curSource := [] }
          setterPid now file) = ⟨opts.maxTries, opts.waitBetweenTries,
            opts.subprocessWaitBetweenTries, setterPid, true⟩ ∧
        attempt (savedStart build order { withDefaultSource opts with curSource := [] }
          setterPid now file) = ⟨0, toUInt opts.waitBetweenTries, false, 0, false, false⟩ := by
      have hopts : ∃ sources, withDefaultSource opts = { opts with sources := sources } := by
        rw [withDefaultSource]
        split
        next => exact ⟨_, rfl⟩
        next => exact ⟨opts.sources, rfl⟩
      obtain ⟨sources, ho⟩ := hopts
      rw [ho]
      constructor
      · exact triggerEvent_terms _ _
      · exact (triggerEvent_alike (-1) rfl).2
    split at hs
    next =>
      simp only [platformInitCros] at hs
      split at hs
      next => cases hs
      next =>
        simp only [Option.some.injEq, Prod.mk.injEq] at hs
        obtain ⟨rfl, -⟩ := hs
        exact hsaved
    next =>
      simp only [Option.some.injEq, Prod.mk.injEq] at hs
      obtain ⟨rfl, -⟩ := hs
      exact hsaved

/-- What every turn keeps, and holds before the first, holds in every state of
every run of the daemon. -/
theorem run_keep {μ : Type} {note : μ → Mark → μ} {I : Attempt → μ → Prop} {m₀ : μ}
    {order : ByteOrder} {opts : Opts} {platform : Bool} {setterPid : Nat} {now : Int} {file : File}
    {n : BitVec 32} {r : Readings} {d₀ d : Daemon} {es : List Event} {m : μ} {out : List Output}
    (h : startup build order opts platform setterPid now file n r = some d₀)
    (hc : c = ⟨opts.maxTries, opts.waitBetweenTries, opts.subprocessWaitBetweenTries, setterPid, true⟩)
    (h₀ : I ⟨0, toUInt opts.waitBetweenTries, false, 0, false, false⟩ m₀)
    (hturn : ∀ k a m ms b, I a m → Turn c k a ms b → I b (ms.foldl note m))
    (hr : Machine.Run (Machine.observed (EventLoop.step build) (recorded note)) Machine.Free
      (d₀, m₀) es (d, m) out) : terms d.state = c ∧ I (attempt d.state) m := by
  obtain ⟨s, hs, hterms, hattempt⟩ := startup_attempt h
  have hkick := kickoff_moves r s
  rw [← hs, Moves, hterms, hattempt, ← hc] at hkick
  have hfirst : I (attempt d₀.state) m₀ := hkick.2.keep (hturn .wake) h₀
  refine hr.invariant (fun p => terms p.1.state = c ∧ I (attempt p.1.state) p.2) ⟨hkick.1, hfirst⟩ ?_
  intro p e p' o hi _ hstep
  exact step_keep hi.1 hstep hi.2 (hturn (cause e))

end Tlsdate.AttemptTurns
