import Tlsdate.TimeLedger

namespace Tlsdate.SetTimeAtomic

open HostBytes TimeSource Options TimestampFile DaemonState Kickoff DBusService EventLoop TimeLedger

variable {build : Build} {r : Readings} {s : State} {d d' : Daemon} {out : List Output}

def platformTime (t : Int) (s : State) : State :=
  triggerEvent { s with lastTime := t, lastSyncType := .platform } .save (-1)

/-- `handle_set_time` with the clocks read apart, once by `can_set_time` and once
by the kickoff. -/
def setTimeApart (build : Build) (check kickoff : Readings) (requested : Option Int) (s : State) :
    State × List Output :=
  match requested with
  | none => (s, [.setTimeReply .badCall])
  | some t =>
      if !isSaneTime build t then (s, [.setTimeReply .invalid])
      else
        let allowed := canSetTime check s
        if !allowed.1 then (allowed.2, [.setTimeReply .notAllowed])
        else (actionKickoffTimeSync kickoff (platformTime t allowed.2), [.setTimeReply .ok])

theorem forgetJump_zero (h : s.clockDelta = 0) : forgetJump r s = s := by
  rw [forgetJump, desynced_zero h]
  rfl

theorem kickoff_zero (h : s.clockDelta = 0) : actionKickoffTimeSync r s = scheduleAttempt 0 s := by
  rw [actionKickoffTimeSync, forgetJump_zero h, kickoffJitter, desynced_zero h]
  rfl

theorem canSetTime_granted (h : (canSetTime r s).1 = true) : (canSetTime r s).2.clockDelta = 0 :=
  of_decide_eq_true h

theorem canSetTime_refused (h : (canSetTime r s).1 = false) : (canSetTime r s).2 = s := by
  obtain hsame | hforgot := forgetJump_frame r s
  · exact hsame
  · simp [canSetTime, hforgot] at h

theorem platformTime_clockDelta (t : Int) : (platformTime t s).clockDelta = s.clockDelta :=
  triggerEvent_clockDelta _ _ _

/-- It makes no difference that the model reads the clocks once for the whole call. -/
theorem handleSetTime_apart (check kickoff : Readings) (requested : Option Int) :
    handleSetTime build check requested s = setTimeApart build check kickoff requested s := by
  cases requested with
  | none => rfl
  | some t =>
      have hkickoff : (canSetTime check s).1 = true →
          actionKickoffTimeSync check (platformTime t (canSetTime check s).2) =
            actionKickoffTimeSync kickoff (platformTime t (canSetTime check s).2) := by
        intro hallowed
        have hzero : (platformTime t (canSetTime check s).2).clockDelta = 0 :=
          (platformTime_clockDelta t).trans (canSetTime_granted hallowed)
        rw [kickoff_zero hzero, kickoff_zero hzero]
      rw [handleSetTime, setTimeApart]
      cases hallowed : (canSetTime check s).1 with
      | false => simp only [hallowed, Bool.not_false, if_true]
      | true =>
          have h := hkickoff hallowed
          rw [platformTime] at h
          simp only [hallowed, h, platformTime]

theorem handleSetTime_cases (requested : Option Int) :
    (∃ reply ≠ SetTimeReply.ok,
      handleSetTime build r requested s = (s, [.setTimeReply reply])) ∨
    ∃ t, requested = some t ∧ isSaneTime build t = true ∧ (canSetTime r s).1 = true ∧
      handleSetTime build r requested s =
        (scheduleAttempt 0 (platformTime t (canSetTime r s).2), [.setTimeReply .ok]) := by
  cases requested with
  | none => exact Or.inl ⟨.badCall, by decide, rfl⟩
  | some t =>
      rw [handleSetTime_apart r r, setTimeApart]
      cases hsane : isSaneTime build t with
      | false => exact Or.inl ⟨.invalid, by decide, rfl⟩
      | true =>
          cases hallowed : (canSetTime r s).1 with
          | false => exact Or.inl ⟨.notAllowed, by decide, by simp [canSetTime_refused hallowed, hallowed]⟩
          | true =>
              have hzero : (platformTime t (canSetTime r s).2).clockDelta = 0 :=
                (platformTime_clockDelta t).trans (canSetTime_granted hallowed)
              exact Or.inr ⟨t, rfl, hsane, rfl, by simp [hallowed, kickoff_zero hzero]⟩

theorem ledger_platformTime (t : Int) : ledger (platformTime t s) =
    { ledger s with lastTime := t, lastSyncType := .platform, save := arm (ledger s).save } :=
  ledger_armSave

theorem canSetTime_again : (canSetTime r (canSetTime r s).2).1 = (canSetTime r s).1 := by
  cases hallowed : (canSetTime r s).1 with
  | false => rw [canSetTime_refused hallowed, hallowed]
  | true =>
      have hzero := canSetTime_granted hallowed
      rw [canSetTime, forgetJump_zero hzero, hzero]
      rfl

theorem handleSetTime_ok {t : Int} (hsane : isSaneTime build t = true) :
    (canSetTime r s).1 = true ↔
      (handleSetTime build r (some t) s).2 = [.setTimeReply .ok] := by
  rw [handleSetTime, hsane]
  cases hallowed : (canSetTime r s).1 with
  | false => simp [hallowed]
  | true => simp [hallowed]

theorem step_service {call : ServiceCall} (h : EventLoop.step build d (.service call r) = some (d', out)) :
    d' = { d with state := (serviceDispatch build r call d.state).1 } ∧
      out = (serviceDispatch build r call d.state).2 := by
  rw [EventLoop.step] at h
  split at h
  next => cases h
  next hexited =>
    simp only [callback] at h
    split at h
    next o ho =>
      split at ho
      next =>
        cases ho
        cases h
        have hloops : d.course = .loops := exited_false.mp (Bool.eq_false_of_not_eq_true hexited)
        exact ⟨by rw [hloops]; rfl, rfl⟩
      next => cases ho
    next => cases h

structure Atomic (build : Build) (d : Daemon) : Prop where
  setTime : ∀ requested r d' out,
    EventLoop.step build d (.service (.setTime requested) r) = some (d', out) →
    ∃ reply, out = [.setTimeReply reply] ∧ (reply ≠ .ok → d' = d) ∧ (reply = .ok →
      ∃ t, requested = some t ∧ isSaneTime build t = true ∧ scheduled d'.state .save = true ∧
        d'.state.lastTime = t ∧ d'.state.lastSyncType = .platform)
  canSetTime : ∀ t r d₁ out₁ d₂ out₂, isSaneTime build t = true →
    EventLoop.step build d (.service .canSetTime r) = some (d₁, out₁) →
    EventLoop.step build d₁ (.service (.setTime (some t)) r) = some (d₂, out₂) →
    (out₁ = [.canSetTimeReply true] ↔ out₂ = [.setTimeReply .ok])

/-- In every state of every run a SetTime call is atomic and CanSetTime foretells it. -/
theorem setTime_atomic {order : ByteOrder} {opts : Opts} {platform : Bool} {setterPid : Nat}
    {now : Int} {file : File} {n : BitVec 32} {r₀ : Readings} {d₀ : Daemon} {es : List Event}
    (h : startup build order opts platform setterPid now file n r₀ = some d₀)
    (hr : Machine.Run (EventLoop.step build) Machine.Free d₀ es d out) : Atomic build d := by
  refine ⟨fun requested r d' out hs => ?_, fun t r d₁ out₁ d₂ out₂ hsane h₁ h₂ => ?_⟩
  · obtain ⟨rfl, rfl⟩ := step_service hs
    rw [serviceDispatch]
    obtain ⟨reply, hreply, hset⟩ | ⟨t, hrequested, hsane, hallowed, hset⟩ :=
      @handleSetTime_cases build r d.state requested
    · rw [hset]
      exact ⟨reply, rfl, fun _ => rfl, fun hok => absurd hok hreply⟩
    · rw [hset]
      refine ⟨.ok, rfl, fun hne => absurd rfl hne, fun _ => ⟨t, hrequested, hsane, ?_⟩⟩
      have hsave : (ledger (canSetTime r d.state).2).save.isSome = true := by
        rw [canSetTime, ledger_forgetJump]
        exact (step_save (step_jump _)).trans (save_allocated h hr)
      have hledger := (ledger_scheduleAttempt 0).trans
        (ledger_platformTime (s := (canSetTime r d.state).2) t)
      refine ⟨?_, congrArg Ledger.lastTime hledger, congrArg Ledger.lastSyncType hledger⟩
      exact (congrArg (fun l => armed l.save) hledger).trans (armed_arm hsave)
  · obtain ⟨rfl, rfl⟩ := step_service h₁
    obtain ⟨-, rfl⟩ := step_service h₂
    refine Iff.trans ?_ (handleSetTime_ok hsane)
    rw [serviceDispatch, handleCanSetTime, canSetTime_again]
    simp

theorem setTime_atomic_default : ∃ d₀ d out, defaultStart = some d₀ ∧
    Machine.Run (EventLoop.step fallbackBuild) Machine.Free d₀
      [.service (.setTime (some 1500000000)) uptime70] d out ∧ Atomic fallbackBuild d := by
  have hrun : ∃ d₀ d out, defaultStart = some d₀ ∧ Machine.exec (EventLoop.step fallbackBuild) d₀
      [.service (.setTime (some 1500000000)) uptime70] = some (d, out) := ⟨_, _, _, rfl, rfl⟩
  obtain ⟨d₀, d, out, h₀, hx⟩ := hrun
  have hr := Machine.Run.of_exec hx
  exact ⟨d₀, d, out, h₀, hr, setTime_atomic h₀ hr⟩

end Tlsdate.SetTimeAtomic
