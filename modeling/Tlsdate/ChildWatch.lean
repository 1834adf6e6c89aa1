import Tlsdate.AttemptTurns

namespace Tlsdate.ChildWatch

open HostBytes TimeSource Options TimestampFile DaemonState Kickoff Attempts EventLoop AttemptTurns

/-- The tlsdate children that have not been reaped, and the children that have
been sent SIGKILL since they were launched. -/
structure History where
  alive : List Nat
  killed : List Nat

def History.note (h : History) (m : Mark) : History where
  alive := census h.alive m
  killed :=
    match m with
    | .launched pid => h.killed.filter (· ≠ pid)
    | .killed pid => pid :: h.killed
    | .reaped _ | .replied => h.killed

structure Watched (s : State) (h : History) : Prop where
  child : s.running = true ↔ s.tlsdatePid ≠ 0
  alone : s.running = true ↔ h.alive = [s.tlsdatePid]
  single : s.running = true ↔ h.alive.length = 1
  tries : 0 ≤ s.tries ∧ s.tries ≤ s.opts.maxTries
  timed : s.running = true → timerPending s .tlsdateTimeout = true ∨ s.tlsdatePid ∈ h.killed

structure Timed (c : Terms) (a : Attempt) (h : History) : Prop where
  nonneg : 0 ≤ a.tries
  limited : a.tries ≤ c.maxTries
  timed : a.running = true → a.watched = true ∨ a.pid ∈ h.killed

variable {build : Build} {c : Terms} {k : Cause}

theorem foldl_note (h : History) (ms : List Mark) :
    (ms.foldl History.note h).alive = ms.foldl census h.alive :=
  (List.foldl_hom History.alive fun _ _ => rfl).symm

theorem Timed.turn {a b : Attempt} {h : History} {ms : List Mark} (hmax : 1 ≤ c.maxTries)
    (hwait : 0 ≤ c.subprocessWait) (hdog : c.watchdog = true) (hs : Single c a h.alive)
    (hi : Timed c a h) (ht : Turn c k a ms b) : Timed c b (ms.foldl History.note h) := by
  have hnonneg := hi.nonneg
  have hlimited := hi.limited
  cases ht with
  | rest | ask | answer | unneeded | stray => exact ⟨hnonneg, hlimited, hi.timed⟩
  | spend | rerun => exact ⟨by simp only; omega, by simp only; omega, hi.timed⟩
  | exhausted | reply => exact ⟨le_rfl, by simp only; omega, hi.timed⟩
  | unforked _ _ hr => exact ⟨le_rfl, by simp only; omega, by simp [hr]⟩
  | launch => exact ⟨by simp only; omega, by simp only; omega, fun _ => Or.inl (by simp [hdog, hwait])⟩
  | truncated => exact ⟨hnonneg, hlimited, fun _ => Or.inl hdog⟩
  | timeOut =>
      split
      next => exact ⟨hnonneg, hlimited, fun _ => Or.inr List.mem_cons_self⟩
      next hp => exact ⟨hnonneg, hlimited, fun hr => absurd (hs.child.mp hr) hp⟩
  | reap | fail => exact ⟨hnonneg, hlimited, by simp⟩
  | stop _ pid =>
      exact ⟨hnonneg, hlimited, fun hr => (hi.timed hr).imp id fun hk => List.mem_cons_of_mem pid hk⟩

theorem watched_of {s : State} {h : History} (hs : Single (terms s) (attempt s) h.alive)
    (ht : Timed (terms s) (attempt s) h) : Watched s h := by
  have halive : h.alive = if s.running then [s.tlsdatePid] else [] := hs.alive
  refine ⟨hs.child, ?_, ?_, ⟨ht.nonneg, ht.limited⟩, ht.timed⟩
  · rw [halive]
    cases s.running <;> simp
  · rw [halive]
    cases s.running <;> simp

/-- In every state of every run there is at most one child, which is watched;
and a timeout only signals that child. -/
theorem child_watched {order : ByteOrder} {opts : Opts} {platform : Bool} {setterPid : Nat}
    {now : Int} {file : File} {n : BitVec 32} {r : Readings} {d₀ : Daemon}
    (h : startup build order opts platform setterPid now file n r = some d₀)
    (hmax : 1 ≤ opts.maxTries) (hwait : 0 ≤ opts.subprocessWaitBetweenTries) :
    ∀ es d hist out, Machine.Run (Machine.observed (EventLoop.step build) (recorded History.note))
      Machine.Free (d₀, ⟨[], []⟩) es (d, hist) out → Watched d.state hist ∧
        ∀ d' o, EventLoop.step build d .tlsdateTimeout = some (d', o) →
          ∀ x ∈ o, x = .kill d.state.tlsdatePid ∧ d.state.running = true := by
  intro es d hist out hr
  obtain ⟨hterms, hsingle, htimed⟩ := run_keep
    (I := fun a h => Single _ a h.alive ∧ Timed _ a h) h rfl
    ⟨⟨by simp, by simp, rfl⟩, le_rfl, by simp only; omega, by simp⟩
    (fun k a m ms b hi ht => ⟨foldl_note m ms ▸ hi.1.turn ht, hi.2.turn hmax hwait rfl hi.1 ht⟩) hr
  rw [← hterms] at hsingle htimed
  refine ⟨watched_of hsingle htimed, fun d' o hstep x hx => ?_⟩
  have hout : x ∈ actionTlsdateTimeout (eventDel d.state .tlsdateTimeout) := by
    obtain ⟨-, hm⟩ := step_moved hstep
    generalize d'.state = t at hm
    cases hm
    exact hx
  rw [actionTlsdateTimeout] at hout
  split at hout
  next hp => exact ⟨List.mem_singleton.mp hout, hsingle.child.mpr hp⟩
  next => cases hout

theorem child_watched_default : ∃ d₀, defaultStart = some d₀ ∧
    ∀ es d hist out, Machine.Run (Machine.observed (EventLoop.step fallbackBuild)
      (recorded History.note)) Machine.Free (d₀, ⟨[], []⟩) es (d, hist) out → Watched d.state hist ∧
        ∀ d' o, EventLoop.step fallbackBuild d .tlsdateTimeout = some (d', o) →
          ∀ x ∈ o, x = .kill d.state.tlsdatePid ∧ d.state.running = true := by
  obtain ⟨d₀, hd⟩ := defaultStart_some
  exact ⟨d₀, hd, child_watched hd (by decide) (by decide)⟩

end Tlsdate.ChildWatch
