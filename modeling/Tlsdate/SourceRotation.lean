import Tlsdate.EventLoop
import Mathlib.Logic.Function.Iterate

namespace Tlsdate.SourceRotation

open TimeSource Options DaemonState Kickoff Monitor Attempts Saving DBusService ProxyResolver EventLoop

def endpoint (src : Source) : String × String := (src.host, src.port)

def givenEndpoint (opts : Opts) (argv : Option (List String)) : Option (String × String) :=
  match (argv.getD []).drop opts.baseArgv.length with
  | "-H" :: host :: "-p" :: port :: _ => some (host, port)
  | _ => none

def launches : List Output → List (Option (List String)) :=
  List.filterMap fun o => match o with | .launch _ argv => some argv | _ => none

/-- No acknowledgement of a network time is handled. -/
def Unacknowledged (d : Daemon) (e : Event) : Prop :=
  d.state.lastSyncType = .net → ∀ r, e ≠ .timeSet (.status setterTimeSet) r

theorem launches_append (out out' : List Output) :
    launches (out ++ out') = launches out ++ launches out' :=
  List.filterMap_append

section OneCopy

def rotate (opts : Opts) : Opts := { opts with curSource := nextSource opts }

theorem buildArgv_rotate (dynamicProxy : String) (opts : Opts) :
    (buildArgv dynamicProxy opts).2 = rotate opts := by
  simp only [buildArgv, rotate]
  split
  · rfl
  · split <;> rfl

theorem nextSource_drop {opts : Opts} {k : Nat} (hk : k < opts.sources.length)
    (h : opts.curSource = opts.sources.drop k) :
    nextSource opts = opts.sources.drop ((k + 1) % opts.sources.length) := by
  have hlen : opts.curSource.length = opts.sources.length - k := by rw [h, List.length_drop]
  rw [nextSource]
  split
  next hnil =>
    rw [hnil, List.length_nil] at hlen
    omega
  next hone =>
    rw [hone, List.length_singleton] at hlen
    have : k + 1 = opts.sources.length := by omega
    rw [this, Nat.mod_self, List.drop_zero]
  next src rest hrest hcons =>
    have hne : rest ≠ [] := hrest
    have hpos := List.length_pos_iff.mpr hne
    rw [hcons, List.length_cons] at hlen
    rw [Nat.mod_eq_of_lt (by omega), ← List.drop_drop, ← h, hcons]
    rfl

/-- On one copy of the options the rotation goes round the sources: the
`k`-th call after a start over stops at the source `k` modulo their number. -/
theorem rotate_iterate {opts : Opts} (hs : opts.sources ≠ []) (h : opts.curSource = []) (k : Nat) :
    (rotate^[k + 1] opts).curSource = opts.sources.drop (k % opts.sources.length) ∧
      (rotate^[k + 1] opts).sources = opts.sources := by
  have hpos := List.length_pos_iff.mpr hs
  induction k with
  | zero => simp [rotate, nextSource, h]
  | succ k ih =>
      rw [Function.iterate_succ_apply']
      refine ⟨?_, ih.2⟩
      have hlt : k % opts.sources.length < (rotate^[k + 1] opts).sources.length := by
        rw [ih.2]
        exact Nat.mod_lt _ hpos
      have hnext := nextSource_drop hlt (ih.1.trans (by rw [ih.2]))
      rw [ih.2, Nat.mod_add_mod] at hnext
      exact hnext

end OneCopy

section Frame

variable {build : Build} {s : State} {r : Readings}

@[simp] theorem forgetJump_opts : (forgetJump r s).opts = s.opts := by
  rcases forgetJump_frame r s with h | h <;> rw [h]

@[simp] theorem scheduleAttempt_opts (jitter : Int) : (scheduleAttempt jitter s).opts = s.opts := by
  simp only [scheduleAttempt]
  repeat' split
  all_goals simp

@[simp] theorem actionKickoffTimeSync_opts : (actionKickoffTimeSync r s).opts = s.opts := by
  simp [actionKickoffTimeSync]

theorem beginAttempt_opts (fork : Option Nat) :
    (beginAttempt fork s).1.opts = s.opts ∧ ∀ argv ∈ launches (beginAttempt fork s).2,
      ∃ dynamicProxy, argv = (buildArgv dynamicProxy s.opts).1 := by
  cases fork with
  | none => exact ⟨by simp [beginAttempt, tlsdate], fun argv ha => by cases ha⟩
  | some pid =>
      refine ⟨by simp [beginAttempt, tlsdate], fun argv ha => ⟨s.dynamicProxy, ?_⟩⟩
      simpa [beginAttempt, tlsdate, launches, child] using ha

theorem actionRunTlsdate_opts (fork : Option Nat) :
    (actionRunTlsdate fork s).1.opts = s.opts ∧
      ∀ argv ∈ launches (actionRunTlsdate fork s).2, ∃ dynamicProxy,
        argv = (buildArgv dynamicProxy s.opts).1 := by
  simp only [actionRunTlsdate]
  repeat' split
  all_goals first
    | exact beginAttempt_opts fork
    | exact ⟨rfl, fun argv ha => by cases ha⟩

theorem handleWait_opts (w : Wait) :
    (handleWait s w).state.opts = s.opts ∧ launches (handleWait s w).outputs = [] := by
  cases w with
  | stopped pid permitted => cases permitted <;> exact ⟨rfl, rfl⟩
  | died pid status =>
      simp only [handleWait, handleChildDeath, reapTlsdate]
      repeat' split
      all_goals exact ⟨by simp [proceed], rfl⟩

theorem actionSigchld_opts (waits : List Wait) :
    (actionSigchld waits s).state.opts = s.opts ∧ launches (actionSigchld waits s).outputs = [] := by
  refine actionSigchld_rule (R := fun s t out => t.opts = s.opts ∧ launches out = [])
    (fun _ => ⟨rfl, rfl⟩) (fun _ w => handleWait_opts w) ?_ waits s
  rintro s t u o o' ⟨ho, hl⟩ ⟨ho', hl'⟩
  exact ⟨ho'.trans ho, by rw [launches_append, hl, hl', List.nil_append]⟩

theorem actionSyncAndSave_opts (readable : Bool) (write shutdown : WriteResult) :
    (actionSyncAndSave readable write shutdown s).state.opts = s.opts ∧
      launches (actionSyncAndSave readable write shutdown s).outputs = [] := by
  obtain ⟨hstate, houtputs⟩ := actionSyncAndSave_cases readable write shutdown s
  constructor
  · obtain h | h := hstate <;> rw [h]
  · refine List.filterMap_eq_nil_iff.mpr fun o ho => ?_
    obtain ⟨word, rfl⟩ := houtputs o ho
    rfl

theorem actionTimeSet_opts (read : NotifyRead) (h : s.opts.curSource = []) :
    (actionTimeSet r read s).state.opts = s.opts ∧ launches (actionTimeSet r read s).outputs = [] := by
  have hreset : { s.opts with curSource := [] } = s.opts := by rw [← h]
  obtain ⟨hstate, houtputs⟩ := actionTimeSet_cases r read s
  constructor
  · obtain h | h | ⟨-, h⟩ := hstate
    all_goals rw [h]
    · rfl
    · exact hreset
  · refine List.filterMap_eq_nil_iff.mpr fun o ho => ?_
    obtain ⟨sync, rfl⟩ := houtputs o ho
    rfl

theorem serviceDispatch_opts (call : ServiceCall) :
    (serviceDispatch build r call s).1.opts = s.opts ∧
      launches (serviceDispatch build r call s).2 = [] := by
  cases call with
  | lastSyncInfo | unknown => exact ⟨rfl, rfl⟩
  | canSetTime => exact ⟨by simp [serviceDispatch, handleCanSetTime, canSetTime], rfl⟩
  | setTime requested =>
      cases requested with
      | none => exact ⟨rfl, rfl⟩
      | some t =>
          simp only [serviceDispatch, handleSetTime]
          repeat' split
          all_goals exact ⟨by simp [canSetTime], rfl⟩

theorem actionResolveProxy_opts (send : Option Nat) (ctx : Platform) :
    (actionResolveProxy send s ctx).1.opts = s.opts ∧
      launches (actionResolveProxy send s ctx).2.2 = [] := by
  obtain h | ⟨-, -, h | h | ⟨serial, url, -, h⟩⟩ := actionResolveProxy_cases send s ctx
  all_goals
    rw [h]
    exact ⟨by simp, rfl⟩

theorem dbusFilter_opts (msg : BusMessage) (ctx : Platform) :
    (dbusFilter r msg s ctx).1.opts = s.opts := by
  cases msg with
  | resolved url proxy =>
      obtain h | ⟨-, h⟩ := handleProxyChange_cases url proxy s
      all_goals
        rw [dbusFilter, h]
      · simp
  | _ => simp [dbusFilter]

/-- No callback of the parent moves `cur_source` on, and the children that it
launches all work on copies of the same options. -/
theorem moved_opts {ctx : Platform} {e : Event} {s' : State} {out : List Output}
    (h : s.opts.curSource = []) (hm : Moved build s ctx e s' out) :
    s'.opts = s.opts ∧ ∀ argv ∈ launches out, ∃ dynamicProxy,
      argv = (buildArgv dynamicProxy s.opts).1 := by
  have quiet : ∀ {o : List Output}, launches o = [] → ∀ argv ∈ launches o, ∃ dynamicProxy,
      argv = (buildArgv dynamicProxy s.opts).1 := fun ho argv ha => by rw [ho] at ha; cases ha
  cases hm with
  | continuity r => exact ⟨actionKickoffTimeSync_opts, quiet rfl⟩
  | routeUp cue r =>
      refine ⟨?_, quiet rfl⟩
      rcases cue with (_ | _) | (_ | _) <;> simp [actionRouteUp]
  | invalidate r =>
      refine ⟨?_, quiet rfl⟩
      simp only [actionInvalidateTime]
      split <;> simp [invalidateTime]
  | runTlsdate fork => exact actionRunTlsdate_opts fork
  | tlsdateStatus read =>
      refine ⟨?_, quiet rfl⟩
      cases read with
      | again | truncated => simp [actionTlsdateStatus]
      | word serverTime =>
          simp only [actionTlsdateStatus]
          split <;> simp
  | tlsdateTimeout =>
      refine ⟨rfl, quiet ?_⟩
      simp only [actionTlsdateTimeout]
      split <;> rfl
  | sigchld waits => exact ⟨(actionSigchld_opts waits).1, quiet (actionSigchld_opts waits).2⟩
  | sigterm now => cases now <;> exact ⟨by simp [actionSigterm, proceed], quiet rfl⟩
  | save readable write shutdown =>
      obtain ⟨ho, hl⟩ := @actionSyncAndSave_opts (eventDel s .save) readable write shutdown
      exact ⟨ho, quiet hl⟩
  | timeSet read r => exact ⟨(actionTimeSet_opts read h).1, quiet (actionTimeSet_opts read h).2⟩
  | service call r => exact ⟨(serviceDispatch_opts call).1, quiet (serviceDispatch_opts call).2⟩
  | resolveProxy send =>
      obtain ⟨ho, hl⟩ := @actionResolveProxy_opts (eventDel s .resolver) send ctx
      exact ⟨ho, quiet hl⟩
  | bus msg r => exact ⟨dbusFilter_opts msg ctx, quiet rfl⟩

end Frame

theorem givenEndpoint_buildArgv {opts : Opts} (dynamicProxy : String) {src : Source}
    {rest : List Source} (hs : opts.sources = src :: rest) (h : opts.curSource = []) :
    givenEndpoint opts (buildArgv dynamicProxy opts).1 =
      if opts.baseArgv.length > 1024 then none else some (endpoint src) := by
  simp only [buildArgv, nextSource, h, hs]
  split
  next => simp [givenEndpoint]
  next => simp [givenEndpoint, endpoint]

/-- Every launch of a run is at the first source. -/
theorem launches_first {build : Build} {d₀ d : Daemon} {es : List Event} {out : List Output}
    {src : Source} {rest : List Source} (hs : d₀.state.opts.sources = src :: rest)
    (h : d₀.state.opts.curSource = []) (hrun : Machine.Run (step build) Machine.Free d₀ es d out) :
    ∀ argv ∈ launches out, givenEndpoint d₀.state.opts argv =
      if d₀.state.opts.baseArgv.length > 1024 then none else some (endpoint src) := by
  have hinv := hrun.history (fun d out => d.state.opts = d₀.state.opts ∧
    ∀ argv ∈ launches out, ∃ dynamicProxy, argv = (buildArgv dynamicProxy d₀.state.opts).1)
    ⟨rfl, fun argv ha => by cases ha⟩ ?_
  · intro argv ha
    obtain ⟨dynamicProxy, rfl⟩ := hinv.2 argv ha
    exact givenEndpoint_buildArgv dynamicProxy hs h
  · rintro d e d' o out ⟨ho, hl⟩ - hstep
    obtain ⟨ho', hl'⟩ := moved_opts (ho ▸ h) (step_moved hstep).2
    refine ⟨ho'.trans ho, fun argv ha => ?_⟩
    rw [launches_append, List.mem_append] at ha
    rcases ha with ha | ha
    · exact hl argv ha
    · rw [← ho]
      exact hl' argv ha

/-- The `k`-th launch goes to the source whose turn it is exactly when that
source has the host and the port of the first one. -/
theorem round_robin_iff {build : Build} {d₀ d : Daemon} {es : List Event} {out : List Output}
    {src : Source} {rest : List Source} (hs : d₀.state.opts.sources = src :: rest)
    (h : d₀.state.opts.curSource = [])
    (hrun : Machine.Run (step build) Unacknowledged d₀ es d out)
    (k : Nat) (hk : k < (launches out).length) :
    givenEndpoint d₀.state.opts (launches out)[k] =
        (((src :: rest)[k % (src :: rest).length]?).map endpoint) ↔
      d₀.state.opts.baseArgv.length ≤ 1024 ∧
        ((src :: rest)[k % (src :: rest).length]?).map endpoint = some (endpoint src) := by
  rw [launches_first hs h hrun.free _ (List.getElem_mem hk)]
  have hlt : k % (src :: rest).length < (src :: rest).length := Nat.mod_lt _ (by simp)
  rw [List.getElem?_eq_getElem hlt, Option.map_some]
  split
  next hbig =>
    constructor
    · intro he
      cases he
    · rintro ⟨hsmall, -⟩
      omega
  next hsmall =>
    constructor
    · exact fun he => ⟨by omega, he.symm⟩
    · exact fun he => he.2.symm

def twoSources : Opts :=
  { setConfDefaults fallbackBuild with
    sources := [⟨"host1", "443", none, 0⟩, ⟨"host2", "443", none, 1⟩] }

def retried : List Event := [.runTlsdate (some 200), .sigchld [.died 200 1], .runTlsdate (some 201)]

theorem retried_run : ∃ d₀ d out, plainStart twoSources = some d₀ ∧
    d₀.state.opts.sources = twoSources.sources ∧ d₀.state.opts.curSource = [] ∧
    d₀.state.opts.baseArgv.length = 3 ∧
    Machine.Run (step fallbackBuild) Unacknowledged d₀ retried d out ∧ (launches out).length = 2 := by
  have hrun : ∃ d₀ d out, plainStart twoSources = some d₀ ∧
      d₀.state.opts.sources = twoSources.sources ∧ d₀.state.opts.curSource = [] ∧
      d₀.state.opts.baseArgv.length = 3 ∧
      Machine.exec (step fallbackBuild) d₀ retried = some (d, out) ∧ (launches out).length = 2 :=
    ⟨_, _, _, rfl, rfl, rfl, rfl, rfl, rfl⟩
  obtain ⟨d₀, d, out, h₀, hs, hc, hb, hx, hl⟩ := hrun
  refine ⟨d₀, d, out, h₀, hs, hc, hb, (Machine.Run.of_exec hx).restrict ?_, hl⟩
  intro e he s hn r
  simp only [retried, List.mem_cons, List.not_mem_nil, or_false] at he
  rcases he with rfl | rfl | rfl <;> simp

/-- The second launch goes to the first source again, not to the second. -/
theorem round_robin_stuck : ¬ ∀ d₀ es d out, plainStart twoSources = some d₀ →
    Machine.Run (step fallbackBuild) Unacknowledged d₀ es d out → ∀ k (hk : k < (launches out).length),
      givenEndpoint d₀.state.opts (launches out)[k] =
        (twoSources.sources[k % twoSources.sources.length]?).map endpoint := by
  intro h
  obtain ⟨d₀, d, out, h₀, hs, hc, hb, hrun, hl⟩ := retried_run
  have hfirst := launches_first hs hc hrun.free _ (List.getElem_mem (show 1 < _ by omega))
  have hsnd := h d₀ _ d out h₀ hrun 1 (by omega)
  rw [hfirst, hb] at hsnd
  exact absurd hsnd (by decide)

theorem round_robin_iff_retried : ∃ d₀ d out, plainStart twoSources = some d₀ ∧
    Machine.Run (step fallbackBuild) Unacknowledged d₀ retried d out ∧
    ∀ k (hk : k < (launches out).length), givenEndpoint d₀.state.opts (launches out)[k] =
        ((twoSources.sources[k % twoSources.sources.length]?).map endpoint) ↔
      d₀.state.opts.baseArgv.length ≤ 1024 ∧
        (twoSources.sources[k % twoSources.sources.length]?).map endpoint = some ("host1", "443") := by
  obtain ⟨d₀, d, out, h₀, hs, hc, -, hrun, -⟩ := retried_run
  exact ⟨d₀, d, out, h₀, hrun, fun k hk => round_robin_iff hs hc hrun k hk⟩

end Tlsdate.SourceRotation
