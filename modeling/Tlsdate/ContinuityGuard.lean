import Tlsdate.TimeLedger

namespace Tlsdate.ContinuityGuard

open HostBytes TimeSource Options TimestampFile DaemonState Kickoff Saving DBusService EventLoop
  TimeLedger

def measured (r : Readings) : Option Int := r.real.bind fun real => r.monotonic.map (real - ·)

def anchor (m : Option Int) (d : Daemon) (e : Event) (_ : Daemon) (_ : List Output) : Option Int :=
  match e with
  | .timeSet (.status word) r =>
      if word = setterTimeSet ∧ d.state.lastSyncType = .net then measured r else m
  | _ => m

def Exceeded (r : Readings) (delta : Int) : Prop :=
  ∃ diff, measured r = some diff ∧ delta ≠ 0 ∧ continuityInterval < |diff - delta|

structure Checked (r : Readings) (s s' : State) : Prop where
  bound : ∀ diff, measured r = some diff →
    s'.clockDelta = 0 ∨ |diff - s'.clockDelta| ≤ continuityInterval
  reset : Exceeded r s.clockDelta → s'.clockDelta = 0 ∧ s'.lastSyncType = .rtc
  kept : s'.clockDelta = 0 ∨ s'.clockDelta = s.clockDelta

variable {r : Readings} {s : State}

theorem measured_some {diff : Int} (h : measured r = some diff) :
    ∃ real monotonic, r.real = some real ∧ r.monotonic = some monotonic ∧ diff = real - monotonic := by
  obtain ⟨real, hr, hm⟩ := Option.bind_eq_some_iff.mp h
  obtain ⟨monotonic, hmono, rfl⟩ := Option.map_eq_some_iff.mp hm
  exact ⟨real, monotonic, hr, hmono, rfl⟩

theorem measured_of_some {real monotonic : Int} (hr : r.real = some real)
    (hm : r.monotonic = some monotonic) : measured r = some (real - monotonic) := by
  simp [measured, hr, hm]

theorem desynced_iff : desynced r s = true ↔ Exceeded r s.clockDelta := by
  simp only [desynced, decide_eq_true_iff, Exceeded]
  rw [checkContinuity]
  split
  next real monotonic hr hm =>
    simp only [measured_of_some hr hm, Option.some.injEq, exists_eq_left', lt_abs]
    split
    next hd => exact ⟨fun _ => ⟨hd.1, by omega⟩, fun _ => by norm_num⟩
    next hd => exact ⟨fun h => absurd h (by norm_num), fun h => absurd ⟨h.1, by omega⟩ hd⟩
  next hnone =>
    constructor
    · intro h
      exact absurd h (by norm_num)
    · rintro ⟨diff, hd, -⟩
      obtain ⟨real, monotonic, hr, hm, -⟩ := measured_some hd
      exact absurd hm (hnone real monotonic hr)

theorem forgetJump_checked (r : Readings) (s : State) : Checked r s (forgetJump r s) := by
  rw [forgetJump]
  split
  next hd =>
    exact ⟨fun _ _ => Or.inl rfl, fun _ => ⟨rfl, rfl⟩, Or.inl rfl⟩
  next hd =>
    have hsteady : ¬ Exceeded r s.clockDelta := fun h => hd (desynced_iff.mpr h)
    refine ⟨fun diff hdiff => ?_, fun h => absurd h hsteady, Or.inr rfl⟩
    by_contra hfar
    obtain ⟨hz, hb⟩ := not_or.mp hfar
    exact hsteady ⟨diff, hdiff, hz, not_le.mp hb⟩

/-- A kickoff and a CanSetTime check make the same check, and what a kickoff
goes on to do leaves its result alone. -/
theorem kickoff_checked (r : Readings) (s : State) : Checked r s (actionKickoffTimeSync r s) := by
  have hchecked := forgetJump_checked r s
  have hdelta : (actionKickoffTimeSync r s).clockDelta = (forgetJump r s).clockDelta :=
    congrArg Ledger.clockDelta (ledger_scheduleAttempt _)
  have htype : (actionKickoffTimeSync r s).lastSyncType = (forgetJump r s).lastSyncType :=
    congrArg Ledger.lastSyncType (ledger_scheduleAttempt _)
  exact ⟨by rw [hdelta]; exact hchecked.bound, by rw [hdelta, htype]; exact hchecked.reset,
    by rw [hdelta]; exact hchecked.kept⟩

theorem settled_clockDelta (l : Ledger) :
    (settled r l).clockDelta = 0 ∨ (settled r l).clockDelta = l.clockDelta := by
  rw [settled]
  split
  next => exact Or.inl rfl
  next => exact Or.inr rfl

theorem step_clockDelta {l l' : Ledger} {e : Entry} {out : List Int}
    (h : TimeLedger.step l e = some (l', out)) (he : ∀ r, e = .timeSet r → l.lastSyncType ≠ .net) :
    l'.clockDelta = 0 ∨ l'.clockDelta = l.clockDelta := by
  cases e with
  | idle | badTime r =>
      cases h
      exact Or.inr rfl
  | jump r =>
      cases h
      exact settled_clockDelta l
  | invalidate r =>
      cases h
      exact settled_clockDelta (invalidated r l)
  | listen | hangUp | accept t =>
      simp only [TimeLedger.step] at h
      split at h <;> cases h
      exact Or.inr rfl
  | sigterm now => cases now <;> cases h <;> exact Or.inr rfl
  | save readable write shutdown =>
      obtain ⟨t, -, rfl⟩ := step_saved h
      exact Or.inr rfl
  | timeSet r =>
      cases h
      rw [if_neg (he r rfl)]
      exact Or.inr rfl
  | setTime t r =>
      cases h
      split <;> exact settled_clockDelta l

theorem checkContinuity_zero (r : Readings) :
    (checkContinuity r 0).2 = 0 ∨ measured r = some (checkContinuity r 0).2 := by
  rw [checkContinuity]
  split
  next real monotonic hr hm =>
    rw [measured_of_some hr hm]
    simp
  next => exact Or.inl rfl

theorem entry_timeSet {build : Build} {s : State} {e : Event} {r : Readings}
    (h : entry build s e = .timeSet r) : e = .timeSet (.status setterTimeSet) r := by
  simp only [entry] at h
  repeat' split at h
  all_goals cases h
  next hw => rw [hw]

/-- The delta is the measurement made when the last acknowledgement of a network
time was handled, or it has been given up since; and no check leaves one that
the clocks do not bear out. -/
theorem continuity_guarded {build : Build} {order : ByteOrder} {opts : Opts} {platform : Bool}
    {setterPid : Nat} {now : Int} {file : File} {n : BitVec 32} {r : Readings} {d₀ : Daemon}
    (h : startup build order opts platform setterPid now file n r = some d₀) :
    (∀ es d m out, Machine.Run (Machine.observed (EventLoop.step build) anchor) Machine.Free
        (d₀, none) es (d, m) out → d.state.clockDelta = 0 ∨ m = some d.state.clockDelta) ∧
      ∀ r s, Checked r s (actionKickoffTimeSync r s) ∧ Checked r s (canSetTime r s).2 := by
  refine ⟨fun es d m out hr => ?_, fun r s => ⟨kickoff_checked r s, forgetJump_checked r s⟩⟩
  have hstart : d₀.state.clockDelta = 0 := by
    obtain ⟨s, hs, he⟩ := startup_fresh h
    rw [he]
    exact (kickoff_checked _ s).kept.elim id (·.trans hs.clockDelta)
  refine hr.invariant (fun s => s.1.state.clockDelta = 0 ∨ s.2 = some s.1.state.clockDelta)
    (Or.inl hstart) ?_
  rintro ⟨d, m⟩ e ⟨d', m'⟩ o hi - hstep
  obtain ⟨hs, hm⟩ := Machine.observed_some hstep
  have hl := step_ledger hs
  simp only at hi hs hm ⊢
  by_cases hack : ∃ r, e = .timeSet (.status setterTimeSet) r ∧ d.state.lastSyncType = .net
  · obtain ⟨r, rfl, hnet⟩ := hack
    have hm' : m' = measured r := by simp [hm, anchor, hnet]
    have hdelta : d'.state.clockDelta = (checkContinuity r 0).2 := by
      have hne : setterTimeSet ≠ setterBadTime := by decide
      simp only [entry, if_neg hne, if_true, TimeLedger.step, Option.some.injEq, Prod.mk.injEq] at hl
      rw [if_pos (show (ledger d.state).lastSyncType = .net from hnet)] at hl
      exact congrArg Ledger.clockDelta hl.1.symm
    rw [hm', hdelta]
    exact checkContinuity_zero r
  · have hm' : m' = m := by
      rw [hm]
      simp only [anchor]
      split
      next word r =>
        rw [if_neg]
        rintro ⟨rfl, hnet⟩
        exact hack ⟨r, rfl, hnet⟩
      next => rfl
    have hkeep := step_clockDelta hl fun r he hnet => hack ⟨r, entry_timeSet he, hnet⟩
    rw [hm']
    rcases hkeep with hz | hsame
    · exact Or.inl hz
    · exact hi.imp (hsame.trans ·) (fun h => h.trans (congrArg some hsame.symm))

theorem continuity_guarded_default : ∃ d₀, defaultStart = some d₀ ∧
    (∀ es d m out, Machine.Run (Machine.observed (EventLoop.step fallbackBuild) anchor) Machine.Free
        (d₀, none) es (d, m) out → d.state.clockDelta = 0 ∨ m = some d.state.clockDelta) ∧
      ∀ r s, Checked r s (actionKickoffTimeSync r s) ∧ Checked r s (canSetTime r s).2 := by
  obtain ⟨d₀, hd⟩ := defaultStart_some
  exact ⟨d₀, hd, continuity_guarded hd⟩

end Tlsdate.ContinuityGuard
