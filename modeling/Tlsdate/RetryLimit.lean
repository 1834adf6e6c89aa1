import Tlsdate.AttemptTurns
import Tlsdate.WakeProgress

namespace Tlsdate.RetryLimit

open HostBytes TimeSource Options DaemonState Kickoff Attempts DBusService ProxyResolver EventLoop
  AttemptTurns WakeProgress

def launched : Output → Bool
  | .launch _ _ => true
  | _ => false

def launches (out : List Output) : Nat := out.countP launched

structure Idle (s : State) : Prop where
  tries : s.tries = 0
  running : s.running = false
  pid : s.tlsdatePid = 0
  asked : scheduled s .tlsdate = false

/-- No wake: neither a kickoff nor a proxy change, with which the resolver asks
for an attempt that was not due. -/
def Unwoken (build : Build) (d : Daemon) (e : Event) : Prop :=
  kicksOff build d.state e = false ∧ ∀ d' out, EventLoop.step build d e = some (d', out) →
    cause e = .answer → scheduled d'.state .tlsdate = true → scheduled d.state .tlsdate = true

def replies : Event → Bool
  | .tlsdateStatus (.word _) => true
  | _ => false

/-- With no wake an attempt is either running or due. -/
structure Limited (c : Terms) (a : Attempt) : Prop where
  child : a.running = true ↔ a.pid ≠ 0
  nonneg : 0 ≤ a.tries
  limited : a.tries ≤ c.maxTries
  apart : a.running = true → a.asked = false

/-- Every launch is a try, as long as an attempt is running or due. -/
structure Counted (c : Terms) (a : Attempt) (n : Int) : Prop extends Limited c a where
  bound : n ≤ c.maxTries
  tried : a.running = true ∨ a.asked = true → n ≤ a.tries

def count (n : Int) : Mark → Int
  | .launched _ => n + 1
  | _ => n

variable {build : Build} {c : Terms} {k : Cause}

theorem Limited.turn {a b : Attempt} {ms : List Mark} (hmax : 1 ≤ c.maxTries) (hi : Limited c a)
    (hw : k ≠ .wake) (hk : k ≠ .answer) (ht : Turn c k a ms b) : Limited c b := by
  have hnonneg := hi.nonneg
  have hlimited := hi.limited
  cases ht with
  | rest | stray | stop | truncated | timeOut => exact ⟨hi.child, hnonneg, hlimited, hi.apart⟩
  | spend | ask => exact absurd rfl hw
  | answer => exact absurd rfl hk
  | unneeded => exact ⟨hi.child, hnonneg, hlimited, fun _ => rfl⟩
  | rerun => exact ⟨hi.child, by simp only; omega, by simp only; omega, fun _ => rfl⟩
  | exhausted | unforked => exact ⟨hi.child, le_rfl, by simp only; omega, fun _ => rfl⟩
  | reply => exact ⟨hi.child, le_rfl, by simp only; omega, hi.apart⟩
  | launch _ pid _ hr _ hp =>
      exact ⟨by simpa using hp, by simp only; omega, by simp only; omega, fun _ => rfl⟩
  | reap | fail => exact ⟨by simp, hnonneg, hlimited, by simp⟩

theorem Counted.turn {a b : Attempt} {n : Int} {ms : List Mark} (hmax : 1 ≤ c.maxTries)
    (hi : Counted c a n) (hw : k ≠ .wake) (hk : k ≠ .answer) (hs : Mark.replied ∉ ms)
    (ht : Turn c k a ms b) : Counted c b (ms.foldl count n) := by
  have hlim := hi.toLimited.turn hmax hw hk ht
  have hbound := hi.bound
  cases ht with
  | rest | stray | stop | truncated => exact ⟨hlim, hbound, hi.tried⟩
  | spend | ask => exact absurd rfl hw
  | answer => exact absurd rfl hk
  | reply => exact absurd (List.mem_singleton.mpr rfl) hs
  | unneeded _ ha => exact ⟨hlim, hbound, fun _ => hi.tried (Or.inr ha)⟩
  | rerun _ ha hr => simp [hi.apart hr] at ha
  | exhausted _ _ hr | unforked _ _ hr => exact ⟨hlim, hbound, fun h => by simp [hr] at h⟩
  | launch _ pid ha _ ht =>
      have hn : n ≤ a.tries := hi.tried (Or.inr ha)
      exact ⟨hlim, show n + 1 ≤ _ by omega, fun _ => show n + 1 ≤ a.tries + 1 by omega⟩
  | timeOut => split <;> exact ⟨hlim, hbound, hi.tried⟩
  | reap _ hp | fail _ _ hp => exact ⟨hlim, hbound, fun _ => hi.tried (Or.inl (hi.child.mpr hp))⟩

theorem answered {a b : Attempt} {ms : List Mark} (h : Turns c .answer a ms b) :
    ms = [] ∧ (b = a ∨ b = { a with asked := true }) := by
  induction h with
  | nil => exact ⟨rfl, Or.inl rfl⟩
  | cons ht _ ih =>
      obtain ⟨hms, hb⟩ := ih
      cases ht with
      | rest => exact ⟨hms, hb⟩
      | answer =>
          refine ⟨hms, Or.inr ?_⟩
          rcases hb with rfl | rfl <;> rfl

theorem answer_still {a b : Attempt} {ms : List Mark} (h : Turns c .answer a ms b)
    (ha : b.asked = true → a.asked = true) : ms = [] ∧ b = a := by
  obtain ⟨hms, rfl | rfl⟩ := answered h
  · exact ⟨hms, rfl⟩
  · have hasked : a.asked = true := ha rfl
    exact ⟨hms, by rw [← hasked]⟩

theorem unwoken_still {s : State} {ctx : Platform} {e : Event} {s' : State} {out : List Output}
    (h : Moved build s ctx e s' out) (hk : kicksOff build s e = false) (hc : cause e = .wake) :
    marks out e = [] ∧ Alike s s' := by
  cases h with
  | continuity => cases hk
  | routeUp cue r =>
      rcases cue with (_ | _) | (_ | _)
      · exact ⟨rfl, .refl s⟩
      · cases hk
      · exact ⟨rfl, eventDel_alike (by decide) (by decide)⟩
      · cases hk
  | invalidate r =>
      simp only [kicksOff, Bool.not_eq_false'] at hk
      rw [actionInvalidateTime, if_pos hk]
      exact ⟨rfl, .refl s⟩
  | service call r =>
      cases call with
      | canSetTime => exact ⟨rfl, forgetJump_alike r s⟩
      | lastSyncInfo | unknown => exact ⟨rfl, .refl s⟩
      | setTime requested =>
          cases requested with
          | none => exact ⟨rfl, .refl s⟩
          | some t =>
              simp only [serviceDispatch, handleSetTime]
              split
              next => exact ⟨rfl, .refl s⟩
              next hsane =>
                split
                next => exact ⟨rfl, forgetJump_alike r s⟩
                next hcan =>
                  rw [Bool.not_eq_true, Bool.not_eq_false'] at hsane hcan
                  simp [kicksOff, hsane, hcan] at hk
  | bus msg r =>
      cases msg with
      | wake => cases hk
      | _ => cases hc
  | _ => cases hc

theorem foldl_outputMark (out : List Output) (n : Int) :
    (out.filterMap outputMark).foldl count n = n + launches out := by
  induction out generalizing n with
  | nil => simp [launches]
  | cons o out ih =>
      rw [List.filterMap_cons]
      cases o with
      | launch pid argv =>
          simp only [outputMark, List.foldl_cons, ih, count, launches, List.countP_cons, launched]
          push_cast
          omega
      | _ => simp [outputMark, ih, count, launches, launched]

theorem actionSigchld_launches (waits : List Wait) (s : State) :
    launches (actionSigchld waits s).outputs = 0 := by
  refine actionSigchld_rule (R := fun _ _ out => launches out = 0) (fun _ => rfl) ?_ ?_ waits s
  · intro s w
    cases w with
    | died pid status =>
        simp only [handleWait, handleChildDeath]
        repeat' split
        all_goals rfl
    | stopped pid permitted =>
        simp only [handleWait, handleChildStop]
        split <;> rfl
  · intro s t u o o' ho ho'
    rw [launches, List.countP_append]
    exact congrArg₂ (· + ·) ho ho'

theorem foldl_waitMarks (waits : List Wait) (n : Int) :
    (waits.flatMap waitMarks).foldl count n = n := by
  induction waits with
  | nil => rfl
  | cons w ws ih =>
      rw [List.flatMap_cons, List.foldl_append]
      rcases w with ⟨pid, status⟩ | ⟨pid, _ | _⟩ <;> exact ih

theorem marks_launches {s : State} {ctx : Platform} {e : Event} {s' : State} {out : List Output}
    (h : Moved build s ctx e s' out) (n : Int) :
    (marks out e).foldl count n = n + launches out := by
  cases h with
  | sigchld waits => simp [marks, foldl_waitMarks, actionSigchld_launches]
  | tlsdateStatus read => cases read <;> simp [marks, count, launches]
  | _ => exact foldl_outputMark _ n

theorem replied_not_mem {e : Event} (out : List Output) (h : replies e = false) :
    Mark.replied ∉ marks out e := by
  have hout : Mark.replied ∉ out.filterMap outputMark := by
    simp only [List.mem_filterMap, not_exists, not_and]
    rintro (_ | _ | _ | _ | _ | _ | _ | _) - ho <;> cases ho
  cases e with
  | tlsdateStatus read =>
      cases read with
      | word t => cases h
      | _ => exact hout
  | sigchld waits =>
      simp only [marks, List.mem_flatMap, not_exists, not_and]
      rintro (⟨pid, status⟩ | ⟨pid, _ | _⟩) - hm <;> simp [waitMarks] at hm
  | _ => exact hout

theorem step_still {d d' : Daemon} {e : Event} {out : List Output} (hu : Unwoken build d e)
    (hs : EventLoop.step build d e = some (d', out)) (he : cause e = .wake ∨ cause e = .answer) :
    terms d'.state = terms d.state ∧ attempt d'.state = attempt d.state ∧ launches out = 0 := by
  have hm := (step_moved hs).2
  have hmoves := moved_moves hm
  have hstill : marks out e = [] ∧ attempt d'.state = attempt d.state := by
    rcases he with he | he
    · obtain ⟨hms, halike⟩ := unwoken_still hm hu.1 he
      exact ⟨hms, halike.2⟩
    · exact answer_still (he ▸ hmoves.2) (hu.2 d' out hs he)
  have hcount := marks_launches hm 0
  rw [hstill.1, List.foldl_nil] at hcount
  exact ⟨hmoves.1, hstill.2, by omega⟩

theorem step_limited {d d' : Daemon} {e : Event} {out : List Output} (hmax : 1 ≤ c.maxTries)
    (hc : terms d.state = c) (hi : Limited c (attempt d.state)) (hu : Unwoken build d e)
    (hs : EventLoop.step build d e = some (d', out)) :
    terms d'.state = c ∧ Limited c (attempt d'.state) := by
  by_cases he : cause e = .wake ∨ cause e = .answer
  · obtain ⟨hterms, hstill, -⟩ := step_still hu hs he
    exact ⟨hterms.trans hc, hstill ▸ hi⟩
  · rw [not_or] at he
    obtain ⟨hterms, hturns⟩ := moved_moves (step_moved hs).2
    rw [hc] at hterms hturns
    exact ⟨hterms, hturns.preserve (fun a ms b hi ht => hi.turn hmax he.1 he.2 ht) hi⟩

theorem step_counted {d d' : Daemon} {e : Event} {out : List Output} {n : Int} (hmax : 1 ≤ c.maxTries)
    (hc : terms d.state = c) (hi : Counted c (attempt d.state) n) (hu : Unwoken build d e)
    (hr : replies e = false) (hs : EventLoop.step build d e = some (d', out)) :
    terms d'.state = c ∧ Counted c (attempt d'.state) (n + launches out) := by
  by_cases he : cause e = .wake ∨ cause e = .answer
  · obtain ⟨hterms, hstill, hnone⟩ := step_still hu hs he
    exact ⟨hterms.trans hc, by simpa [hstill, hnone] using hi⟩
  · rw [not_or] at he
    have hm := (step_moved hs).2
    obtain ⟨hterms, hturns⟩ := moved_moves hm
    rw [hc] at hterms hturns
    refine ⟨hterms, marks_launches hm n ▸ ?_⟩
    exact hturns.keep_marked (Q := (· ≠ .replied)) (fun a m ms b hq hi ht =>
      hi.turn hmax he.1 he.2 (fun hm => hq _ hm rfl) ht)
      (fun x hx hq => replied_not_mem out hr (hq ▸ hx)) hi

theorem woken {a b : Attempt} {ms : List Mark} (h : Turns c .wake a ms b) (ht : a.tries = 0)
    (hr : a.running = false) (hp : a.pid = 0) : b.tries = 0 ∧ b.running = false ∧ b.pid = 0 := by
  induction h with
  | nil => exact ⟨ht, hr, hp⟩
  | cons turn _ ih =>
      cases turn with
      | rest | ask => exact ih ht hr hp
      | spend _ hpos => omega

theorem kicksOff_wake {s : State} {e : Event} (h : kicksOff build s e = true) : cause e = .wake := by
  cases e with
  | bus msg r => cases msg <;> first | rfl | cases h
  | _ => first | rfl | cases h

/-- After the one wake of an idle daemon, every stretch of the run in which no
reply is read launches as many children as there are tries, at most. -/
theorem retries_limited {d₀ d₁ d₂ d₃ : Daemon} {e : Event} {es fs : List Event}
    {o out out' : List Output} (hmax : 1 ≤ d₀.state.opts.maxTries) (hidle : Idle d₀.state)
    (hwake : kicksOff build d₀.state e = true) (hs : EventLoop.step build d₀ e = some (d₁, o))
    (hr : Machine.Run (EventLoop.step build) (Unwoken build) d₁ es d₂ out)
    (hr' : Machine.Run (EventLoop.step build) (fun d e => Unwoken build d e ∧ replies e = false)
      d₂ fs d₃ out') : (launches out' : Int) ≤ d₀.state.opts.maxTries := by
  have hfirst : terms d₁.state = terms d₀.state ∧ Limited (terms d₀.state) (attempt d₁.state) := by
    obtain ⟨hterms, hturns⟩ := moved_moves (step_moved hs).2
    rw [kicksOff_wake hwake] at hturns
    obtain ⟨ht, hrun, hp⟩ := woken hturns hidle.tries hidle.running hidle.pid
    refine ⟨hterms, by simp [hrun, hp], by omega, ?_, by simp [hrun]⟩
    exact ht ▸ (show 0 ≤ d₀.state.opts.maxTries by omega)
  have hmiddle : terms d₂.state = terms d₀.state ∧ Limited (terms d₀.state) (attempt d₂.state) :=
    hr.invariant (fun d => terms d.state = terms d₀.state ∧ Limited (terms d₀.state) (attempt d.state))
      hfirst fun d e d' o hi hu hs => step_limited hmax hi.1 hi.2 hu hs
  have hlast : terms d₃.state = terms d₀.state ∧
      Counted (terms d₀.state) (attempt d₃.state) (launches out') := by
    refine hr'.history (fun d out => terms d.state = terms d₀.state ∧
      Counted (terms d₀.state) (attempt d.state) (launches out)) ⟨hmiddle.1, hmiddle.2, ?_, ?_⟩ ?_
    · exact (show 0 ≤ d₀.state.opts.maxTries by omega)
    · exact fun _ => hmiddle.2.nonneg
    · intro d e d' o out hi hu hs
      have hnext := step_counted hmax hi.1 hi.2 hu.1 hu.2 hs
      simpa only [launches, List.countP_append, Nat.cast_add] using hnext
  exact hlast.2.bound

abbrev onceStart : Option Daemon := plainStart { setConfDefaults fallbackBuild with maxTries := 1 }

def synchronized : List Event :=
  [.runTlsdate (some 200), .tlsdateStatus (.word newTime), .sigchld [.died 200 0]]

def expired : Event := .invalidate uptime70

def accepts (build : Build) : Event → Bool
  | .tlsdateStatus (.word t) => isSaneTime build t.toNat
  | _ => false

theorem unwoken_of_cause {d : Daemon} {e : Event} (hw : cause e ≠ .wake) (ha : cause e ≠ .answer) :
    Unwoken build d e := by
  refine ⟨?_, fun _ _ _ he => absurd he ha⟩
  by_contra hk
  rw [Bool.not_eq_false] at hk
  exact hw (kicksOff_wake hk)

/-- From a start with a single try, which has synchronized and is idle, one wake
and the events `es` launch `n` children. -/
def Relaunches (C : Daemon → Event → Prop) (start : Option Daemon) (es : List Event) (n : Nat) :
    Prop :=
  ∃ d d₀ d₁ d₂ out outs, start = some d ∧
    Machine.Run (EventLoop.step fallbackBuild) Machine.Free d synchronized d₀ outs ∧
    Idle d₀.state ∧ d₀.state.opts.maxTries = 1 ∧ kicksOff fallbackBuild d₀.state expired = true ∧
    EventLoop.step fallbackBuild d₀ expired = some (d₁, []) ∧
    Machine.Run (EventLoop.step fallbackBuild) C d₁ es d₂ out ∧ launches out = n

instance (s : State) : Decidable (Idle s) :=
  decidable_of_iff (s.tries = 0 ∧ s.running = false ∧ s.tlsdatePid = 0 ∧
      scheduled s .tlsdate = false)
    ⟨fun h => ⟨h.1, h.2.1, h.2.2.1, h.2.2.2⟩, fun h => ⟨h.tries, h.running, h.pid, h.asked⟩⟩

def relaunched (start : Option Daemon) (es : List Event) : Option (Bool × List Output × Nat) :=
  start.bind fun d =>
    (Machine.exec (EventLoop.step fallbackBuild) d synchronized).bind fun p =>
      (EventLoop.step fallbackBuild p.1 expired).bind fun q =>
        (Machine.exec (EventLoop.step fallbackBuild) q.1 es).map fun u =>
          (decide (Idle p.1.state) && decide (p.1.state.opts.maxTries = 1) &&
            kicksOff fallbackBuild p.1.state expired, q.2, launches u.2)

theorem relaunches_of {C : Daemon → Event → Prop} {start : Option Daemon} {es : List Event} {n : Nat}
    (h : relaunched start es = some (true, [], n)) (hC : ∀ e ∈ es, ∀ d, C d e) :
    Relaunches C start es n := by
  obtain ⟨d, hd, h⟩ := Option.bind_eq_some_iff.mp h
  obtain ⟨⟨d₀, outs⟩, hx₀, h⟩ := Option.bind_eq_some_iff.mp h
  obtain ⟨⟨d₁, o⟩, hs, h⟩ := Option.bind_eq_some_iff.mp h
  obtain ⟨⟨d₂, out⟩, hx, h⟩ := Option.map_eq_some_iff.mp h
  simp only [Prod.mk.injEq, Bool.and_eq_true, decide_eq_true_iff] at h
  obtain ⟨⟨⟨hidle, hmax⟩, hwake⟩, rfl, hn⟩ := h
  exact ⟨d, d₀, d₁, d₂, out, outs, hd, .of_exec hx₀, hidle, hmax, hwake, hs,
    (Machine.Run.of_exec hx).restrict hC, hn⟩

def failing : List Event := [.runTlsdate (some 201), .sigchld [.died 201 1], .runTlsdate (some 202)]

theorem retries_limited_once : ∃ d d₀ d₁ d₂ out' outs, onceStart = some d ∧
    Machine.Run (EventLoop.step fallbackBuild) Machine.Free d synchronized d₀ outs ∧
    EventLoop.step fallbackBuild d₀ expired = some (d₁, []) ∧
    Machine.Run (EventLoop.step fallbackBuild)
      (fun d e => Unwoken fallbackBuild d e ∧ replies e = false) d₁ failing d₂ out' ∧
    (launches out' : Int) ≤ d₀.state.opts.maxTries := by
  have hrun : Relaunches (fun d e => Unwoken fallbackBuild d e ∧ replies e = false) onceStart
      failing 1 := by
    apply relaunches_of (by decide +kernel)
    intro e he d
    simp only [failing, List.mem_cons, List.not_mem_nil, or_false] at he
    rcases he with rfl | rfl | rfl
    all_goals exact ⟨unwoken_of_cause (by decide) (by decide), rfl⟩
  obtain ⟨d, d₀, d₁, d₂, out', outs, hd, hr₀, hidle, hmax, hwake, hs, hr', -⟩ := hrun
  exact ⟨d, d₀, d₁, d₂, out', outs, hd, hr₀, hs, hr',
    retries_limited (by rw [hmax]) hidle hwake hs .nil hr'⟩

/-- Neither a kickoff nor the acceptance of a time. -/
def Quiet (build : Build) (d : Daemon) (e : Event) : Prop :=
  kicksOff build d.state e = false ∧ accepts build e = false

def insane : List Event := [.runTlsdate (some 201), .tlsdateStatus (.word 0), .sigchld [.died 201 1],
  .runTlsdate (some 202)]

abbrev resolverStart : Option Daemon :=
  startup fallbackBuild .little
    { setConfDefaults fallbackBuild with maxTries := 1, sources := [⟨defaultHost, defaultPort, none, 0⟩] }
    true 100 1400000000 none 0 (steadyReadings 1400000000 60)

def unresolved : List Event := [.runTlsdate (some 201), .bus .serviceUnknown uptime70,
  .runTlsdate none, .sigchld [.died 201 1], .runTlsdate (some 202)]

/-- A child that writes an insane time gives the tries back, and its failure is
then retried; an answer of the resolver during an attempt gives one back. -/
theorem retries_unlimited : Relaunches (Quiet fallbackBuild) onceStart insane 2 ∧
    Relaunches (Quiet fallbackBuild) resolverStart unresolved 2 := by
  constructor
  · apply relaunches_of (by decide +kernel)
    intro e he d
    simp only [insane, List.mem_cons, List.not_mem_nil, or_false] at he
    rcases he with rfl | rfl | rfl | rfl
    all_goals exact ⟨rfl, by decide⟩
  · apply relaunches_of (by decide +kernel)
    intro e he d
    simp only [unresolved, List.mem_cons, List.not_mem_nil, or_false] at he
    rcases he with rfl | rfl | rfl | rfl | rfl
    all_goals exact ⟨rfl, by decide⟩

end Tlsdate.RetryLimit
