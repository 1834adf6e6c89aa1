import Tlsdate.AttemptTurns

namespace Tlsdate.Shutdown

open HostBytes TimeSource Options TimestampFile DaemonState Kickoff Attempts Saving ProxyResolver
  EventLoop AttemptTurns

/-- The processes that `cleanup_main` sends SIGKILL. It is called where the event loop was
broken, and not where the process is over. -/
def cleanupMain (s : State) : List Nat :=
  (if s.tlsdatePid ≠ 0 then [s.tlsdatePid] else []) ++ if s.setterPid ≠ 0 then [s.setterPid] else []

/-- The children that have not been reaped: those for tlsdate, and whether the setter is one. -/
structure Children where
  helpers : List Nat
  setter : Bool

def Children.note (setterPid : Nat) (c : Children) (m : Mark) : Children where
  helpers := census c.helpers m
  setter := c.setter && m != .reaped setterPid

variable {build : Build}

theorem foldl_note (setterPid : Nat) (c : Children) (ms : List Mark) :
    (ms.foldl (Children.note setterPid) c).helpers = ms.foldl census c.helpers :=
  (List.foldl_hom Children.helpers fun _ _ => rfl).symm

theorem helpers_eq {c : Terms} {a : Attempt} {helpers : List Nat} (h : Single c a helpers) :
    helpers = if a.pid ≠ 0 then [a.pid] else [] := by
  rw [h.alive]
  by_cases hp : a.pid = 0
  · have hidle : a.running = false := by
      by_contra hr
      exact h.child.mp (by simpa using hr) hp
    rw [if_neg (not_not.mpr hp), hidle, if_neg Bool.false_ne_true]
  · rw [if_pos hp, if_pos (h.child.mpr hp)]

theorem actionSigchld_breaks {waits : List Wait} {s : State} (hv : validWaits waits = true)
    (h : (actionSigchld waits s).course = .breaks) : ∃ status, Wait.died s.setterPid status ∈ waits := by
  induction waits generalizing s with
  | nil => cases h
  | cons w ws ih =>
      obtain ⟨hw, -, hws⟩ := validWaits_cons.mp hv
      rw [actionSigchld] at h
      dsimp only at h
      split_ifs at h with hover hrest
      · rw [hover] at h
        cases h
      · cases w with
        | stopped pid permitted => cases permitted <;> cases h
        | died pid status =>
            rw [handleWait, handleChildDeath] at h
            split_ifs at h with hs
            · exact ⟨status, hs ▸ List.mem_cons_self⟩
            · cases h
            · cases h
      · obtain ⟨status, hmem⟩ := ih hws h
        have hsetter : (handleWait s w).state.setterPid = s.setterPid :=
          congrArg Terms.setterPid (handleWait_moves hw).1
        exact ⟨status, List.mem_cons_of_mem _ (hsetter ▸ hmem)⟩

theorem step_breaks {d d' : Daemon} {e : Event} {out : List Output}
    (h : EventLoop.step build d e = some (d', out)) (hbreaks : d'.course = .breaks) :
    ∃ waits status, e = .sigchld waits ∧ Wait.died d.state.setterPid status ∈ waits := by
  rw [EventLoop.step] at h
  split_ifs at h
  split at h
  next o ho =>
    obtain ⟨rfl, rfl⟩ := Prod.mk.inj (Option.some.inj h)
    cases e with
    | sigchld waits =>
        rw [callback] at ho
        split_ifs at ho with hv
        obtain rfl := Option.some.inj ho
        obtain ⟨status, hmem⟩ := actionSigchld_breaks hv hbreaks
        exact ⟨waits, status, rfl, hmem⟩
    | sigterm now =>
        rw [callback] at ho
        split_ifs at ho
        cases ho
        cases now <;> cases hbreaks
    | save readable write shutdown =>
        obtain ⟨s, -, rfl⟩ := Option.map_eq_some_iff.mp ho
        rw [actionSyncAndSave] at hbreaks
        dsimp only at hbreaks
        split_ifs at hbreaks
        · cases hbreaks
        · cases shutdown <;> cases hbreaks
        · cases write <;> cases hbreaks
    | timeSet read r =>
        obtain rfl := Option.some.inj ho
        cases read with
        | again | truncated => cases hbreaks
        | status word =>
            dsimp only at hbreaks
            rw [actionTimeSet, handleTimeSetter] at hbreaks
            split_ifs at hbreaks <;> cases hbreaks
    | continuity r =>
        cases ho
        cases hbreaks
    | routeUp | invalidate | service =>
        rw [callback] at ho
        split_ifs at ho
        cases ho
        cases hbreaks
    | runTlsdate fork =>
        rw [callback] at ho
        split_ifs at ho
        obtain ⟨s, -, rfl⟩ := Option.map_eq_some_iff.mp ho
        cases hbreaks
    | tlsdateStatus | tlsdateTimeout =>
        obtain ⟨s, -, rfl⟩ := Option.map_eq_some_iff.mp ho
        cases hbreaks
    | resolveProxy | bus => cases ho
  next =>
    cases e with
    | resolveProxy send =>
        obtain ⟨s, -, he⟩ := Option.map_eq_some_iff.mp h
        cases he
        cases hbreaks
    | bus msg r =>
        rw [platformCallback] at h
        split_ifs at h
        cases h
        cases msg <;> cases hbreaks
    | _ => cases h

theorem setter_noted {setterPid : Nat} {waits : List Wait} {status : Int} (c : Children)
    (h : Wait.died setterPid status ∈ waits) :
    ((waits.flatMap waitMarks).foldl (Children.note setterPid) c).setter = false := by
  have hgone (ms : List Mark) (c : Children) (hc : c.setter = false) :
      (ms.foldl (Children.note setterPid) c).setter = false := by
    induction ms generalizing c with
    | nil => exact hc
    | cons m ms ih => exact ih _ (by simp [Children.note, hc])
  obtain ⟨before, after, rfl⟩ := List.append_of_mem h
  rw [List.flatMap_append, List.flatMap_cons, List.foldl_append, List.foldl_append]
  exact hgone _ _ (by simp [waitMarks, Children.note])

/-- Where the event loop was broken, `cleanup_main` sends SIGKILL to just the helpers that have
not been reaped, and to the setter, which has been reaped by then: its number may belong to
another process. -/
theorem cleanup_kills {order : ByteOrder} {opts : Opts} {platform : Bool} {setterPid : Nat}
    {now : Int} {file : File} {n : BitVec 32} {r : Readings} {d₀ d : Daemon} {es : List Event}
    {children : Children} {out : List Output}
    (h₀ : startup build order opts platform setterPid now file n r = some d₀) (hsetter : setterPid ≠ 0)
    (hrun : Machine.Run (Machine.observed (EventLoop.step build) (recorded (Children.note setterPid)))
      Machine.Free (d₀, ⟨[], true⟩) es (d, children) out) (hbreaks : d.course = .breaks) :
    cleanupMain d.state = children.helpers ++ [setterPid] ∧ children.setter = false := by
  have hkeep {es d children out} (hrun : Machine.Run (Machine.observed (EventLoop.step build)
      (recorded (Children.note setterPid))) Machine.Free (d₀, ⟨[], true⟩) es (d, children) out) :=
    run_keep (I := fun a c => Single _ a c.helpers) h₀ rfl ⟨by simp, by simp, rfl⟩
      (fun k a c ms b hi ht => foldl_note setterPid c ms ▸ hi.turn ht) hrun
  obtain ⟨hterms, hsingle⟩ := hkeep hrun
  have hpid : d.state.setterPid = setterPid := congrArg Terms.setterPid hterms
  have hown : children.helpers = if d.state.tlsdatePid ≠ 0 then [d.state.tlsdatePid] else [] :=
    helpers_eq hsingle
  refine ⟨by rw [cleanupMain, hpid, if_pos hsetter, hown], ?_⟩
  cases hrun with
  | nil =>
      simp only [startup] at h₀
      split at h₀
      · cases h₀
      obtain ⟨p, -, rfl⟩ := Option.map_eq_some_iff.mp h₀
      cases hbreaks
  | @snoc es p out e _ o hrun _ hs =>
      obtain ⟨hstep, hnote⟩ := Machine.observed_some hs
      obtain ⟨waits, status, rfl, hmem⟩ := step_breaks hstep hbreaks
      have hbefore : p.1.state.setterPid = setterPid := congrArg Terms.setterPid (hkeep hrun).1
      rw [show children = _ from hnote]
      exact setter_noted p.2 (hbefore ▸ hmem)

/-- The setter dies first, and is sent SIGKILL along with the child. -/
theorem cleanup_kills_reaped : ∃ (d₀ d : Daemon) (children : Children), defaultStart = some d₀ ∧
    children.helpers = [200] ∧ cleanupMain d.state = children.helpers ++ [100] ∧
      children.setter = false := by
  have hrun : ∃ (d₀ d : Daemon) (children : Children) (out : List Output), defaultStart = some d₀ ∧
      Machine.exec (Machine.observed (EventLoop.step fallbackBuild) (recorded (Children.note 100)))
        (d₀, ⟨[], true⟩) [.runTlsdate (some 200), .sigchld [.died 100 0]] = some ((d, children), out) ∧
      d.course = .breaks ∧ children.helpers = [200] :=
    ⟨_, _, _, _, rfl, rfl, rfl, rfl⟩
  obtain ⟨d₀, d, children, out, h₀, hx, hbreaks, hhelpers⟩ := hrun
  exact ⟨d₀, d, children, h₀, hhelpers, cleanup_kills h₀ (by decide) (.of_exec hx) hbreaks⟩

end Tlsdate.Shutdown
