import Tlsdate.TimeLedger

namespace Tlsdate.SetTimeGuard

open HostBytes TimeSource Options TimestampFile DaemonState Kickoff Saving DBusService EventLoop
  TimeLedger

/-- The time since a network time has been accepted and not been invalidated;
`established` tells whether a difference of the two clocks is on record for it. -/
inductive Window
  | closed
  | opened (established : Bool)
  deriving DecidableEq

/-- A delta is on record from before the acceptance, or since the setter's
acknowledgement, if the two clocks could then be read and differed. -/
def Window.note (w : Window) (l : Ledger) : Entry → Window
  | .accept _ => .opened (l.clockDelta != 0)
  | .invalidate _ | .badTime _ => .closed
  | .jump r | .setTime _ r => if jumped r l then .closed else w
  | .timeSet r =>
      match w with
      | .closed => .closed
      | .opened _ => .opened ((checkContinuity r 0).2 != 0)
  | _ => w

def watch (build : Build) (w : Window) (d : Daemon) (e : Event) (_ : Daemon) (_ : List Output) :
    Window :=
  w.note (ledger d.state) (entry build d.state e)

theorem watched_iff {build : Build} {d₀ d : Daemon} {es : List Event} {out : List Output} :
    (∃ w, Machine.Run (Machine.observed (EventLoop.step build) (watch build)) Machine.Free
      (d₀, .closed) es (d, w) out) ↔
      Machine.Run (EventLoop.step build) Machine.Free d₀ es d out :=
  ⟨fun ⟨_, h⟩ => h.forget, fun h => h.observe (watch build) .closed⟩

/-- No sane time is offered in a window for which no delta is on record. -/
def Guarded (build : Build) (s : Daemon × Window) (e : Event) : Prop :=
  ∀ t r, entry build s.1.state e = .setTime t r → s.2 ≠ .opened false

def Refused (d d' : Daemon) (out : List Output) : Prop :=
  Output.setTimeReply .ok ∉ out ∧ d'.state.lastTime = d.state.lastTime ∧
    d'.state.lastSyncType = d.state.lastSyncType

/-- In a window the time is from the network, and SetTime is refused when a
delta is on record. -/
def Kept (l : Ledger) (w : Window) : Prop :=
  ∀ established, w = .opened established →
    l.lastSyncType = .net ∧ (l.clockDelta ≠ 0 ↔ established = true)

theorem kept_closed (l : Ledger) : Kept l .closed := fun _ h => by cases h

theorem Kept.step {l l' : Ledger} {w : Window} {e : Entry} {out : List Int} (h : Kept l w)
    (hg : ∀ t r, e = .setTime t r → w ≠ .opened false)
    (hs : TimeLedger.step l e = some (l', out)) : Kept l' (w.note l e) := by
  have same : ∀ l₂ : Ledger, l₂.lastSyncType = l.lastSyncType → l₂.clockDelta = l.clockDelta →
      Kept l₂ w := fun l₂ hn hd established hw => by
    rw [hn, hd]
    exact h established hw
  cases e with
  | idle =>
      cases hs
      exact h
  | jump r =>
      cases hs
      simp only [Window.note]
      split
      next => exact kept_closed _
      next hj => exact (settled_steady (Bool.eq_false_of_not_eq_true hj)).symm ▸ h
  | invalidate r | badTime r => exact kept_closed _
  | listen | hangUp =>
      simp only [TimeLedger.step] at hs
      split at hs <;> cases hs
      exact same _ rfl rfl
  | accept t =>
      simp only [TimeLedger.step] at hs
      split at hs <;> cases hs
      intro established hw
      cases hw
      exact ⟨rfl, by simp⟩
  | sigterm now => cases now <;> cases hs <;> exact same _ rfl rfl
  | save readable write shutdown =>
      obtain ⟨t, -, rfl⟩ := step_saved hs
      exact same _ rfl rfl
  | timeSet r =>
      cases hs
      cases w with
      | closed => exact kept_closed _
      | opened established =>
          have hn := (h established rfl).1
          rw [if_pos hn]
          intro established' hw
          cases hw
          exact ⟨hn, by simp⟩
  | setTime t r =>
      cases hs
      simp only [Window.note]
      cases hj : jumped r l with
      | true => exact kept_closed _
      | false =>
          rw [settled_steady hj]
          cases w with
          | closed => exact kept_closed _
          | opened established =>
              cases established with
              | false => exact absurd rfl (hg t r rfl)
              | true =>
                  have hd := (h true rfl).2.mpr rfl
                  have hgranted : granted r l = false := by simp [granted, settled_steady hj, hd]
                  rw [hgranted]
                  exact h

theorem handleSetTime_refused {build : Build} {r : Readings} {requested : Option Int} {s : State}
    (hj : desynced r s = false) :
    (Output.setTimeReply .ok ∉ (handleSetTime build r requested s).2 ∧
      (handleSetTime build r requested s).1.lastTime = s.lastTime ∧
      (handleSetTime build r requested s).1.lastSyncType = s.lastSyncType) ↔
      ∀ t, requested = some t → isSaneTime build t = true → s.clockDelta ≠ 0 := by
  have hforget : forgetJump r s = s := by
    simp only [forgetJump, hj, Bool.false_eq_true, if_false]
  cases requested with
  | none => simp [handleSetTime]
  | some t =>
      cases hs : isSaneTime build t with
      | false => simp [handleSetTime, hs]
      | true =>
          by_cases hd : s.clockDelta = 0
          · simp [handleSetTime, hs, canSetTime, hforget, hd]
          · simp [handleSetTime, hs, canSetTime, hforget, hd]

/-- In a guarded run a SetTime request in a window is refused exactly when it is
not sane or a delta is on record. -/
theorem set_time_refused_iff {build : Build} {d₀ d d' : Daemon} {es : List Event}
    {out out' : List Output} {established : Bool} {requested : Option Int} {r : Readings}
    (hr : Machine.Run (Machine.observed (EventLoop.step build) (watch build)) (Guarded build)
      (d₀, .closed) es (d, .opened established) out)
    (hs : EventLoop.step build d (.service (.setTime requested) r) = some (d', out'))
    (hj : desynced r d.state = false) :
    Refused d d' out' ↔
      ∀ t, requested = some t → isSaneTime build t = true → established = true := by
  have hinv : Kept (ledger d.state) (.opened established) := by
    refine hr.invariant (fun s => Kept (ledger s.1.state) s.2) (kept_closed _) ?_
    intro s e s' o hi hg hstep
    obtain ⟨hd, hw⟩ := Machine.observed_some hstep
    rw [hw]
    exact hi.step hg (step_ledger hd)
  obtain ⟨-, hdelta⟩ := hinv established rfl
  obtain ⟨-, hm⟩ := step_moved hs
  rw [← hdelta, Refused]
  generalize d'.state = s' at hm
  cases hm with
  | service call r => exact handleSetTime_refused hj

def acknowledged : List Event :=
  [.runTlsdate (some 200), .tlsdateStatus (.word newTime), .save false .written .again,
    .timeSet (.status setterTimeSet) uptime70]

theorem acknowledged_guarded (build : Build) :
    ∀ e ∈ acknowledged, ∀ s, Guarded build s e := by
  intro e he s t r hentry
  simp only [acknowledged, List.mem_cons, List.not_mem_nil, or_false] at he
  rcases he with rfl | rfl | rfl | rfl
  · simp only [entry] at hentry
    split at hentry <;> cases hentry
  · simp only [entry] at hentry
    split at hentry <;> cases hentry
  · cases hentry
  · simp [entry, setterTimeSet, setterBadTime] at hentry

theorem set_time_refused_acknowledged : ∃ d₀ d out d' out', defaultStart = some d₀ ∧
    Machine.Run (Machine.observed (EventLoop.step fallbackBuild) (watch fallbackBuild))
      (Guarded fallbackBuild) (d₀, .closed) acknowledged (d, .opened true) out ∧
    EventLoop.step fallbackBuild d (.service (.setTime (some 1500000000)) uptime70) =
      some (d', out') ∧
    (Refused d d' out' ↔
      ∀ t, some (1500000000 : Int) = some t → isSaneTime fallbackBuild t = true → true = true) := by
  have hrun : ∃ d₀ d out d' out', defaultStart = some d₀ ∧
      Machine.exec (Machine.observed (EventLoop.step fallbackBuild) (watch fallbackBuild))
        (d₀, .closed) acknowledged = some ((d, .opened true), out) ∧
      EventLoop.step fallbackBuild d (.service (.setTime (some 1500000000)) uptime70) =
        some (d', out') ∧ desynced uptime70 d.state = false :=
    ⟨_, _, _, _, _, rfl, rfl, rfl, rfl⟩
  obtain ⟨d₀, d, out, d', out', h₀, hx, hs, hj⟩ := hrun
  have hr := (Machine.Run.of_exec hx).restrict (acknowledged_guarded fallbackBuild)
  exact ⟨d₀, d, out, d', out', h₀, hr, hs, set_time_refused_iff hr hs hj⟩

/-- Before the acknowledgement there is no delta on record, and a D-Bus user
displaces the accepted time. -/
theorem set_time_displaces : ¬ ∀ d₀ d d' es out out' established requested, defaultStart = some d₀ →
    Machine.Run (Machine.observed (EventLoop.step fallbackBuild) (watch fallbackBuild))
      Machine.Free (d₀, .closed) es (d, .opened established) out →
    EventLoop.step fallbackBuild d (.service (.setTime requested) uptime70) = some (d', out') →
    desynced uptime70 d.state = false → Refused d d' out' := by
  intro h
  have hrun : ∃ d₀ d out d' out', defaultStart = some d₀ ∧
      Machine.exec (Machine.observed (EventLoop.step fallbackBuild) (watch fallbackBuild))
        (d₀, .closed) [.runTlsdate (some 200), .tlsdateStatus (.word newTime)] =
          some ((d, .opened false), out) ∧
      EventLoop.step fallbackBuild d (.service (.setTime (some 1500000000)) uptime70) =
        some (d', out') ∧ desynced uptime70 d.state = false ∧ Output.setTimeReply .ok ∈ out' :=
    ⟨_, _, _, _, _, rfl, rfl, rfl, rfl, by decide⟩
  obtain ⟨d₀, d, out, d', out', h₀, hx, hs, hj, hok⟩ := hrun
  exact (h d₀ d d' _ out out' _ _ h₀ (Machine.Run.of_exec hx) hs hj).1 hok

end Tlsdate.SetTimeGuard
