import Tlsdate.TimeLedger
import Tlsdate.TimeSetter

namespace Tlsdate.TwoProcess

open TimeSource Options DaemonState Kickoff Attempts Saving EventLoop TimeLedger TimeSetter

/-- Where a time comes from: the network by way of `action_tlsdate_status`, the
reading of the clock at SIGTERM, or elsewhere. Of the clock that is read it
tells whether the last time set there derives from the network, and whether any
network time has been set. -/
inductive Origin
  | network (t : Int)
  | clock (sec : Int) (synced once : Bool)
  | other
  deriving DecidableEq

def Origin.isNetwork : Origin → Bool
  | .network _ => true
  | _ => false

def Origin.derived : Origin → Bool
  | .network _ => true
  | .clock _ synced _ => synced
  | .other => false

def synced (clock : List Origin) : Bool := clock.head?.any Origin.derived

def once (clock : List Origin) : Bool := clock.any Origin.isNetwork

structure Message where
  value : Int
  origin : Origin

structure Notice where
  word : Int
  clock : List Origin

/-- The daemon and its setter with the pipes between them, oldest word first.
The fields `origin`, that of `last_time`, and `clock`, those of the times the
setter has applied, the latest first, record history and enable nothing. -/
structure System where
  daemon : Daemon
  setter : Coprocess
  pipe : List Message
  notices : List Notice
  origin : Origin
  clock : List Origin

inductive Move
  | daemon (e : Event)
  | setter (read : TimeRead) (sys : SysCalls)

/-- A clock delta that the daemon stores on a status word, and a time that the
setter writes to the timestamp file. -/
inductive Mark
  | stored (notice : Notice)
  | saved (sec : Int) (origin : Origin)

/-- The origin that an entry gives `last_time`, unless it leaves it. -/
def newOrigin (clock : List Origin) (l : Ledger) : Entry → Option Origin
  | .accept t => some (.network t)
  | .sigterm (some sec) => some (.clock sec (synced clock) (once clock))
  | .invalidate _ | .badTime _ => some .other
  | .jump r => if jumped r l then some .other else none
  | .setTime _ r => if granted r l then some .other else none
  | _ => none

def unread (notices : List Notice) : Event → Option (List Notice)
  | .timeSet (.status word) _ =>
      match notices with
      | [] => none
      | n :: rest => if n.word = word then some rest else none
  | _ => some notices

def storedMarks (s : State) (notices : List Notice) : Event → List Mark
  | .timeSet (.status word) _ =>
      if word = setterTimeSet ∧ s.lastSyncType = .net then (notices.head?.map Mark.stored).toList else []
  | _ => []

def taken (pipe : List Message) : TimeRead → Option (Origin × List Message)
  | .whole m =>
      match pipe with
      | [] => none
      | msg :: rest => if msg.value = m then some (msg.origin, rest) else none
  | _ => some (.other, pipe)

def applied : List Effect → Bool :=
  fun es => es.any fun e => match e with | .settimeofday _ ok => ok | _ => false

def savedMarks (origin : Origin) : List Effect → List Mark :=
  List.filterMap fun e => match e with | .fileWrite sec _ => some (.saved sec origin) | _ => none

def clockAfter (clock : List Origin) (origin : Origin) (es : List Effect) : List Origin :=
  if applied es then origin :: clock else clock

variable (build : Build) (opts : Opts)

def daemonStep (sys : System) (e : Event) : Option (System × List Mark) :=
  match unread sys.notices e, EventLoop.step build sys.daemon e with
  | some notices, some (d, out) =>
      let l := ledger sys.daemon.state
      some ({ sys with
          daemon := d
          notices := notices
          pipe := sys.pipe ++ (messages out).map fun v => ⟨v, sys.origin⟩
          origin := (newOrigin sys.clock l (entry build sys.daemon.state e)).getD sys.origin },
        storedMarks sys.daemon.state sys.notices e)
  | _, _ => none

def setterStep (sys : System) (read : TimeRead) (calls : SysCalls) : Option (System × List Mark) :=
  match sys.setter, taken sys.pipe read with
  | .waiting status saveFd, some (origin, rest) =>
      let body := loopBody build opts calls status saveFd read
      let clock := clockAfter sys.clock origin body.2
      some ({ sys with
          setter := body.1
          pipe := rest
          notices := sys.notices ++ (notified body.2).map fun w => ⟨w, clock⟩
          clock := clock }, savedMarks origin body.2)
  | _, _ => none

def step : Machine.Step System Move Mark := fun sys move =>
  match move with
  | .daemon e => daemonStep build sys e
  | .setter read calls => setterStep build opts sys read calls

def boot (d : Daemon) (garbage : Int) (opened sandboxed : Bool) : System :=
  let begun := start opts garbage opened sandboxed
  ⟨d, begun.1, [], (notified begun.2).map fun w => ⟨w, []⟩, .other, []⟩

section Iteration

variable {build opts} {calls : SysCalls} {status : Int} {saveFd : Bool} {read : TimeRead}

theorem applied_append (es fs : List Effect) : applied (es ++ fs) = (applied es || applied fs) :=
  List.any_append

theorem applyTime_effects (save : Bool) (sec : Int) :
    (applied (applyTime opts calls saveFd save sec).2 = true → opts.dryRun = false) ∧
      ((applyTime opts calls saveFd save sec).1 = .ok setterTimeSet →
        applied (applyTime opts calls saveFd save sec).2 = true ∨ opts.dryRun = true) ∧
      (∀ t ok, Effect.fileWrite t ok ∈ (applyTime opts calls saveFd save sec).2 →
        t = sec ∧ save = true ∧ saveFd = true) ∧
      notified (applyTime opts calls saveFd save sec).2 = [] ∧
      ∀ err, (applyTime opts calls saveFd save sec).1 = .error err → err ≠ setterTimeSet := by
  simp only [applyTime]
  repeat' split
  all_goals
    simp_all [applied, notified, setterTimeSet, setterSetErr, setterNoRtc, setterNoSave]

/-- What one iteration does: it applies a sane time only, answers
SETTER_TIME_SET to a time that it has applied or refused, and saves a positive
sane time only. -/
theorem loopBody_effects :
    (applied (loopBody build opts calls status saveFd read).2 = true →
      opts.dryRun = false ∧ ∃ m, read = .whole m ∧ isSaneTime build |m| = true) ∧
    (setterTimeSet ∈ notified (loopBody build opts calls status saveFd read).2 →
      applied (loopBody build opts calls status saveFd read).2 = true ∨ opts.dryRun = true ∨
        ∃ m, read = .whole m ∧ m ≠ 0 ∧ isSaneTime build |m| = false) ∧
    (∀ t ok, Effect.fileWrite t ok ∈ (loopBody build opts calls status saveFd read).2 →
      read = .whole t ∧ isSaneTime build t = true ∧ saveFd = true) ∧
    ∀ status' saveFd', (loopBody build opts calls status saveFd read).1 = .waiting status' saveFd' →
      saveFd' = saveFd := by
  have hbody := @loopBody_iteration build opts calls status saveFd read
  generalize loopBody build opts calls status saveFd read = body at hbody ⊢
  have hwrite : ∀ {m t : Int} {ok : Bool} {es : List Effect}, isSaneTime build |m| = true →
      (∀ t ok, Effect.fileWrite t ok ∈ es → t = |m| ∧ (!decide (m < 0)) = true ∧ saveFd = true) →
      Effect.fileWrite t ok ∈ es →
      TimeRead.whole m = .whole t ∧ isSaneTime build t = true ∧ saveFd = true := by
    intro m t ok es hs hfile h
    obtain ⟨rfl, hsave, hfd⟩ := hfile t ok h
    have hpos : |m| = m := abs_of_nonneg (by simpa using hsave)
    exact ⟨by rw [hpos], hs, hfd⟩
  cases hbody with
  | again => simp [applied, notified]
  | lost => simp [notifyAndDie, applied, notified, setterTimeSet, setterReadErr]
  | ended => simp [notifyAndDie, applied, notified, setterTimeSet, setterExit]
  | @refused m hm hs =>
      refine ⟨fun h => absurd h (by simp [applied]), fun _ => Or.inr (Or.inr ⟨m, rfl, hm, hs⟩), ?_, ?_⟩
      · intro t ok h
        simp at h
      · intro status' saveFd' h
        cases h
        rfl
  | @broken m err es hs happ =>
      have heff := @applyTime_effects opts calls saveFd (!decide (m < 0)) |m|
      rw [happ] at heff
      obtain ⟨hdry, -, hfile, hquiet, herr⟩ := heff
      refine ⟨fun h => ⟨hdry ?_, m, rfl, hs⟩, fun h => ?_, fun t ok h => ?_, fun _ _ h => ?_⟩
      · simpa [applied_append, applied, notifyAndDie] using h
      · simp only [notified_append, hquiet, List.nil_append] at h
        have herrst : err = setterTimeSet := by
          simpa [notifyAndDie, notified, eq_comm] using h
        exact absurd herrst (herr err rfl)
      · exact hwrite hs hfile (by simpa [notifyAndDie] using h)
      · cases h
  | @applied m st es hs happ =>
      have heff := @applyTime_effects opts calls saveFd (!decide (m < 0)) |m|
      rw [happ] at heff
      obtain ⟨hdry, htime, hfile, hquiet, -⟩ := heff
      refine ⟨fun h => ⟨hdry ?_, m, rfl, hs⟩, fun h => ?_, fun t ok h => ?_, fun _ _ h => ?_⟩
      · simpa [applied_append, applied] using h
      · simp only [notified_append, hquiet, List.nil_append] at h
        have hst : st = setterTimeSet := by simpa [notified, eq_comm] using h
        rcases htime (by rw [hst]) with ha | ha
        · exact Or.inl (by simp [applied_append, ha])
        · exact Or.inr (Or.inl ha)
      · exact hwrite hs hfile (by simpa using h)
      · cases h
        rfl

end Iteration

section Steps

variable {build opts} {clock : List Origin} {l l' : Ledger} {en : Entry} {out : List Int}

theorem step_messages (hs : TimeLedger.step l en = some (l', out)) :
    ∀ v ∈ out, v = encoded l ∨ v = 0 := by
  intro v hv
  rcases step_writes hs with rfl | ⟨readable, write, shutdown, -, rfl⟩
  · cases hv
  · have hcode : encoded { l with save := disarm l.save } = encoded l := rfl
    simp only [saved, hcode] at hv
    split at hv
    next => cases hv
    next =>
      split at hv
      next =>
        rcases List.mem_cons.mp hv with hv | hv
        · exact Or.inl hv
        · split at hv
          next => exact Or.inr (List.mem_singleton.mp hv)
          next => cases hv
      next => exact Or.inl (List.mem_singleton.mp hv)

theorem step_keeps (hs : TimeLedger.step l en = some (l', out)) (ho : newOrigin clock l en = none) :
    l'.lastSyncType = l.lastSyncType ∧ (l'.lastTime = l.lastTime ∨ l'.lastTime = 0) := by
  cases en with
  | idle =>
      cases hs
      exact ⟨rfl, Or.inl rfl⟩
  | jump r =>
      cases hs
      simp only [newOrigin] at ho
      split at ho
      next => cases ho
      next hj =>
        rw [settled_steady (Bool.eq_false_of_not_eq_true hj)]
        exact ⟨rfl, Or.inl rfl⟩
  | invalidate r | badTime r | accept t => cases ho
  | listen | hangUp =>
      simp only [TimeLedger.step] at hs
      split at hs <;> cases hs
      exact ⟨rfl, Or.inl rfl⟩
  | sigterm now =>
      cases now with
      | none =>
          cases hs
          exact ⟨rfl, Or.inl rfl⟩
      | some sec => cases ho
  | save readable write shutdown =>
      obtain ⟨t, ht, rfl⟩ := step_saved hs
      exact ⟨rfl, ht⟩
  | timeSet r =>
      cases hs
      split <;> exact ⟨rfl, Or.inl rfl⟩
  | setTime t r =>
      cases hs
      simp only [newOrigin] at ho
      split at ho
      next => cases ho
      next hg =>
        have hj : jumped r l = false := by
          by_contra hj
          exact hg (by simp [granted, settled, invalidated, hj])
        rw [if_neg hg, settled_steady hj]
        exact ⟨rfl, Or.inl rfl⟩

theorem step_renews {o : Origin} (hs : TimeLedger.step l en = some (l', out))
    (ho : newOrigin clock l en = some o) : out = [] ∧
    ((∃ t, en = .accept t ∧ o = .network t ∧ l'.lastSyncType = .net ∧ l'.lastTime = t) ∨
      (∃ sec, en = .sigterm (some sec) ∧ o = .clock sec (synced clock) (once clock) ∧
        l'.lastSyncType = l.lastSyncType ∧ l'.lastTime = sec) ∨
      (∃ r, (en = .invalidate r ∨ en = .badTime r ∨ en = .jump r ∧ jumped r l = true) ∧ o = .other ∧
        l'.lastSyncType = .rtc ∧ l'.lastTime = r.now) ∨
      ∃ t r, en = .setTime t r ∧ o = .other ∧ l'.lastSyncType = .platform ∧ l'.lastTime = t) := by
  cases en with
  | accept t =>
      simp only [TimeLedger.step] at hs
      split at hs <;> cases hs
      cases ho
      exact ⟨rfl, Or.inl ⟨t, rfl, rfl, rfl, rfl⟩⟩
  | sigterm now =>
      cases now with
      | none => cases ho
      | some sec =>
          cases hs
          cases ho
          exact ⟨rfl, Or.inr (Or.inl ⟨sec, rfl, rfl, rfl, rfl⟩)⟩
  | invalidate r =>
      cases hs
      cases ho
      refine ⟨rfl, Or.inr (Or.inr (Or.inl ⟨r, Or.inl rfl, rfl, ?_⟩))⟩
      simp only [settled]
      split <;> exact ⟨rfl, rfl⟩
  | badTime r =>
      cases hs
      cases ho
      exact ⟨rfl, Or.inr (Or.inr (Or.inl ⟨r, Or.inr (Or.inl rfl), rfl, rfl, rfl⟩))⟩
  | jump r =>
      cases hs
      simp only [newOrigin] at ho
      split at ho <;> cases ho
      next hj =>
        refine ⟨rfl, Or.inr (Or.inr (Or.inl ⟨r, Or.inr (Or.inr ⟨rfl, hj⟩), rfl, ?_⟩))⟩
        rw [settled, if_pos hj]
        exact ⟨rfl, rfl⟩
  | setTime t r =>
      cases hs
      simp only [newOrigin] at ho
      split at ho <;> cases ho
      next hg =>
        rw [if_pos hg]
        exact ⟨rfl, Or.inr (Or.inr (Or.inr ⟨t, r, rfl, rfl, rfl, rfl⟩))⟩
  | idle | listen | hangUp | save _ _ _ | timeSet r => cases ho

theorem unread_mem {notices rest : List Notice} {e : Event} (h : unread notices e = some rest) :
    ∀ n ∈ rest, n ∈ notices := by
  simp only [unread] at h
  repeat' split at h
  all_goals cases h
  · exact fun n hn => List.mem_cons_of_mem _ hn
  · exact fun n hn => hn

theorem mem_storedMarks {s : State} {notices rest : List Notice} {e : Event} {n : Notice}
    (hu : unread notices e = some rest) (h : Mark.stored n ∈ storedMarks s notices e) :
    n ∈ notices ∧ n.word = setterTimeSet ∧ s.lastSyncType = .net := by
  cases e with
  | timeSet read r =>
      cases read with
      | again | truncated => cases h
      | status word =>
          cases notices with
          | nil => cases hu
          | cons n' rest' =>
              simp only [unread] at hu
              split at hu <;> cases hu
              next hw =>
                simp only [storedMarks] at h
                split at h
                next hn =>
                  obtain rfl : n = n' := by simpa using h
                  exact ⟨by simp, hw.trans hn.1, hn.2⟩
                next => cases h
  | _ => cases h

theorem daemonStep_some {sys sys' : System} {e : Event} {marks : List Mark}
    (h : daemonStep build sys e = some (sys', marks)) : ∃ d out notices,
      unread sys.notices e = some notices ∧ EventLoop.step build sys.daemon e = some (d, out) ∧
      marks = storedMarks sys.daemon.state sys.notices e ∧
      sys' = { sys with
        daemon := d, notices := notices
        pipe := sys.pipe ++ (messages out).map fun v => ⟨v, sys.origin⟩
        origin := (newOrigin sys.clock (ledger sys.daemon.state)
          (entry build sys.daemon.state e)).getD sys.origin } := by
  rw [daemonStep] at h
  split at h
  next notices d out hu hs =>
    simp only [Option.some.injEq, Prod.mk.injEq] at h
    exact ⟨d, out, notices, hu, hs, h.2.symm, h.1.symm⟩
  next => cases h

theorem setterStep_some {sys sys' : System} {read : TimeRead} {calls : SysCalls} {marks : List Mark}
    (h : setterStep build opts sys read calls = some (sys', marks)) : ∃ status saveFd origin rest,
      sys.setter = .waiting status saveFd ∧ taken sys.pipe read = some (origin, rest) ∧
      let body := loopBody build opts calls status saveFd read
      marks = savedMarks origin body.2 ∧
      sys' = { sys with
        setter := body.1, pipe := rest
        notices := sys.notices ++ (notified body.2).map fun w =>
          ⟨w, clockAfter sys.clock origin body.2⟩
        clock := clockAfter sys.clock origin body.2 } := by
  rw [setterStep] at h
  split at h
  next status saveFd origin rest hw ht =>
    simp only [Option.some.injEq, Prod.mk.injEq] at h
    exact ⟨status, saveFd, origin, rest, hw, ht, h.2.symm, h.1.symm⟩
  next => cases h

theorem taken_mem {pipe rest : List Message} {read : TimeRead} {origin : Origin}
    (h : taken pipe read = some (origin, rest)) : (∀ msg ∈ rest, msg ∈ pipe) ∧
      ∀ m, read = .whole m → (⟨m, origin⟩ : Message) ∈ pipe := by
  cases read with
  | whole m =>
      cases pipe with
      | nil => cases h
      | cons msg rest' =>
          simp only [taken] at h
          split at h <;> cases h
          next hv =>
            refine ⟨fun x hx => List.mem_cons_of_mem _ hx, fun m' hm => ?_⟩
            cases hm
            rw [← hv]
            exact List.mem_cons_self
  | _ =>
      cases h
      exact ⟨fun x hx => hx, fun m hm => by cases hm⟩

end Steps

end Tlsdate.TwoProcess
