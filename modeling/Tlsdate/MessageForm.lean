import Tlsdate.TimeLedger

namespace Tlsdate.MessageForm

open HostBytes TimeSource Options TimestampFile DaemonState Kickoff Saving EventLoop TimeLedger

/-- A word for the setter's pipe: a request to shut down on the way down, or a
sane time with the sign of its source. -/
def WellFormed (build : Build) (s : State) (v : Int) : Prop :=
  (v = 0 ∧ s.exitting = true) ∨ (isSaneTime build |v| = true ∧ (0 < v ↔ s.lastSyncType = .net))

/-- A reading of the clock that E_SAVE may write. -/
def Writable (build : Build) (exitting : Bool) (t : Int) : Prop :=
  isSaneTime build t = true ∨ (t = 0 ∧ exitting = true)

/-- No reading of the clock that cannot be written replaces a time that is to be
written, nor is one to be written on SIGTERM. -/
def Dated (build : Build) (l : Ledger) : Entry → Prop
  | .jump r => jumped r l = true → armed l.save = true → Writable build l.exitting r.now
  | .invalidate r | .badTime r => armed l.save = true → Writable build l.exitting r.now
  | .sigterm (some sec) => Writable build true sec
  | _ => True

def Due (build : Build) (l : Ledger) : Prop :=
  armed l.save = true → Writable build l.exitting l.lastTime

variable {build : Build}

theorem granted_of_jumped {l : Ledger} {r : Readings} (h : jumped r l = true) :
    granted r l = true := by
  simp [granted, TimeLedger.settled, h, invalidated]

theorem Due.settled {l : Ledger} {r : Readings} (h : Due build l)
    (hr : jumped r l = true → armed l.save = true → Writable build l.exitting r.now) :
    Due build (settled r l) := by
  rw [TimeLedger.settled]
  split
  next hj => exact hr hj
  next => exact h

theorem Due.step {l l' : Ledger} {e : Entry} {out : List Int} (h : Due build l)
    (hc : Dated build l e) (ha : ∀ t, e = .accept t → isSaneTime build t = true)
    (ht : ∀ t r, e = .setTime t r → isSaneTime build t = true)
    (hs : TimeLedger.step l e = some (l', out)) : Due build l' := by
  cases e with
  | idle =>
      cases hs
      exact h
  | jump r =>
      cases hs
      exact h.settled hc
  | invalidate r =>
      cases hs
      have hi : Due build (invalidated r l) := hc
      exact hi.settled fun _ => hc
  | listen | hangUp =>
      simp only [TimeLedger.step] at hs
      split at hs <;> cases hs
      exact h
  | accept t =>
      simp only [TimeLedger.step] at hs
      split at hs <;> cases hs
      exact fun _ => Or.inl (ha t rfl)
  | sigterm now =>
      cases now with
      | none =>
          cases hs
          intro hsave
          exact (h hsave).imp id fun hz => ⟨hz.1, rfl⟩
      | some sec =>
          cases hs
          exact fun _ => hc
  | save readable write shutdown =>
      obtain ⟨t, -, rfl⟩ := step_saved hs
      intro hsave
      rw [armed_disarm] at hsave
      cases hsave
  | badTime r =>
      cases hs
      exact hc
  | timeSet r =>
      cases hs
      split <;> exact h
  | setTime t r =>
      cases hs
      split
      next => exact fun _ => Or.inl (ht t r rfl)
      next hg => exact h.settled fun hj => absurd (granted_of_jumped hj) hg

theorem saved_wellFormed {s : State} {readable : Bool} {write shutdown : WriteResult}
    (h : Writable build s.exitting s.lastTime) :
    ∀ v ∈ (saved readable write shutdown (ledger s)).2, WellFormed build s v := by
  have hcode : WellFormed build s (encoded { ledger s with save := disarm (ledger s).save }) := by
    simp only [WellFormed, encoded, ledger]
    rcases h with hs | ⟨hz, hx⟩
    · have hpos := isSaneTime_pos hs
      right
      by_cases hn : s.lastSyncType = .net
      · simp only [hn, ne_eq, not_true_eq_false, if_false, abs_of_pos hpos]
        exact ⟨hs, by simp [hpos]⟩
      · simp only [hn, ne_eq, not_false_eq_true, if_true, abs_neg, abs_of_pos hpos]
        exact ⟨hs, by simp only [iff_false]; omega⟩
    · left
      exact ⟨by simp [hz], hx⟩
  intro v hv
  simp only [saved] at hv
  split at hv
  next => cases hv
  next =>
    split at hv
    next hdown =>
      rcases List.mem_cons.mp hv with rfl | hv
      · exact hcode
      · split at hv
        next => exact Or.inl ⟨List.mem_singleton.mp hv, hdown.1⟩
        next => cases hv
    next =>
      obtain rfl := List.mem_singleton.mp hv
      exact hcode

/-- In a dated run everything that is written to the setter is well formed. -/
theorem messages_wellFormed {order : ByteOrder} {opts : Opts} {platform : Bool} {setterPid : Nat}
    {now : Int} {file : File} {n : BitVec 32} {r : Readings} {d₀ d d' : Daemon} {es : List Event}
    {e : Event} {out o : List Output}
    (h : startup build order opts platform setterPid now file n r = some d₀)
    (hr : Machine.Run (EventLoop.step build)
      (fun d e => Dated build (ledger d.state) (entry build d.state e)) d₀ es d out)
    (hs : EventLoop.step build d e = some (d', o)) :
    ∀ v ∈ messages o, WellFormed build d.state v := by
  have hdue : Due build (ledger d.state) := by
    refine hr.invariant (fun d => Due build (ledger d.state))
      (fun _ => Or.inl (startup_ledger h).2.1) ?_
    intro d e d' o hi hc hs
    exact hi.step hc (fun t => entry_accept) (fun t r => entry_setTime) (step_ledger hs)
  intro v hv
  rcases step_writes (step_ledger hs) with hnone | ⟨readable, write, shutdown, ha, hout⟩
  · rw [hnone] at hv
    cases hv
  · rw [hout] at hv
    exact saved_wellFormed (hdue ha) v hv

abbrev unsetStart : Option Daemon :=
  startup fallbackBuild .little (setConfDefaults fallbackBuild) false 100 0 none 0 (steadyReadings 0 3)

def shutDown : List Event := [.runTlsdate (some 200), .sigterm (some 1400000000)]

theorem messages_wellFormed_shutDown : ∃ d₀ d out d', defaultStart = some d₀ ∧
    Machine.Run (EventLoop.step fallbackBuild)
      (fun d e => Dated fallbackBuild (ledger d.state) (entry fallbackBuild d.state e)) d₀ shutDown d out ∧
    EventLoop.step fallbackBuild d (.save false .written .written) =
      some (d', [.message (-1400000000), .message 0]) ∧
    ∀ v ∈ messages [.message (-1400000000), .message 0], WellFormed fallbackBuild d.state v := by
  have hrun : ∃ d₀ d out d', defaultStart = some d₀ ∧
      Machine.exec (EventLoop.step fallbackBuild) d₀ shutDown = some (d, out) ∧
      EventLoop.step fallbackBuild d (.save false .written .written) =
        some (d', [.message (-1400000000), .message 0]) := ⟨_, _, _, _, rfl, rfl, rfl⟩
  obtain ⟨d₀, d, out, d', h₀, hx, hs⟩ := hrun
  have hr := (Machine.Run.of_exec hx).restrict
    (D := fun d e => Dated fallbackBuild (ledger d.state) (entry fallbackBuild d.state e)) ?_
  · exact ⟨d₀, d, out, d', h₀, hr, hs, messages_wellFormed h₀ hr hs⟩
  · intro e he s
    simp only [shutDown, List.mem_cons, List.not_mem_nil, or_false] at he
    rcases he with rfl | rfl
    · simp only [entry]
      split <;> trivial
    · exact Or.inl (by decide)

/-- On SIGTERM the reading of an unset clock goes to the setter as it is; and a
clock that reads 0 at an invalidation turns a time that was still to be written
into a request to shut down. -/
theorem messages_malformed :
    (∃ d₀ d out d', unsetStart = some d₀ ∧
      Machine.Run (EventLoop.step fallbackBuild) Machine.Free d₀ [.sigterm (some 5)] d out ∧
      EventLoop.step fallbackBuild d (.save false .written .again) = some (d', [.message (-5)]) ∧
      ¬ WellFormed fallbackBuild d.state (-5)) ∧
    ∃ d₀ d out d', unsetStart = some d₀ ∧
      Machine.Run (EventLoop.step fallbackBuild) Machine.Free d₀
        [.invalidate (steadyReadings 0 0)] d out ∧
      EventLoop.step fallbackBuild d (.save false .written .again) = some (d', [.message 0]) ∧
      ¬ WellFormed fallbackBuild d.state 0 := by
  constructor
  · have hrun : ∃ d₀ d out d', unsetStart = some d₀ ∧
        Machine.exec (EventLoop.step fallbackBuild) d₀ [.sigterm (some 5)] = some (d, out) ∧
        EventLoop.step fallbackBuild d (.save false .written .again) = some (d', [.message (-5)]) :=
      ⟨_, _, _, _, rfl, rfl, rfl⟩
    obtain ⟨d₀, d, out, d', h₀, hx, hs⟩ := hrun
    refine ⟨d₀, d, out, d', h₀, Machine.Run.of_exec hx, hs, ?_⟩
    rintro (⟨hz, -⟩ | ⟨hsane, -⟩)
    · cases hz
    · exact absurd hsane (by decide)
  · have hrun : ∃ d₀ d out d', unsetStart = some d₀ ∧
        Machine.exec (EventLoop.step fallbackBuild) d₀ [.invalidate (steadyReadings 0 0)] =
          some (d, out) ∧
        EventLoop.step fallbackBuild d (.save false .written .again) = some (d', [.message 0]) ∧
        d.state.exitting = false := ⟨_, _, _, _, rfl, rfl, rfl, rfl⟩
    obtain ⟨d₀, d, out, d', h₀, hx, hs, hexit⟩ := hrun
    refine ⟨d₀, d, out, d', h₀, Machine.Run.of_exec hx, hs, ?_⟩
    rintro (⟨-, he⟩ | ⟨hsane, -⟩)
    · rw [hexit] at he
      cases he
    · exact absurd hsane (by decide)

end Tlsdate.MessageForm
