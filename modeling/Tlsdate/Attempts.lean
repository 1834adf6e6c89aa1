import Tlsdate.Kickoff
import Tlsdate.Monitor

namespace Tlsdate.Attempts

open CInt TimeSource Options DaemonState Kickoff Monitor

def maxSaneBackoff : Nat := 10 * 60

/-- The attempt that `action_run_tlsdate` makes; one that fails to fork leaves
no tries behind. -/
def beginAttempt (fork : Option Nat) (s : State) : State × List Output :=
  let s := { s with tries := s.tries + 1, running := true }
  let s := triggerEvent s .tlsdateTimeout s.opts.subprocessWaitBetweenTries
  let s := triggerEvent s .tlsdateStatus (-1)
  let launched := tlsdate fork s
  if launched.1 ≠ 0 then
    (eventDel { launched.2.1 with running := false, tries := 0 } .tlsdateTimeout, launched.2.2)
  else launched.2

def actionRunTlsdate (fork : Option Nat) (s : State) : State × List Output :=
  if s.lastSyncType = .net then (s, [])
  else
    let s := { s with resolving := false }
    if s.running then
      -- a wake during the attempt: allow one more try, with the shortest backoff
      if s.tries > 0 then
        ({ s with tries := s.tries - 1, backoff := toUInt s.opts.waitBetweenTries }, [])
      else (s, [])
    else if s.tries < s.opts.maxTries then beginAttempt fork s
    else ({ s with tries := 0, backoff := toUInt s.opts.waitBetweenTries }, [])

def begins (s : State) : Bool :=
  s.lastSyncType != .net && !s.running && decide (s.tries < s.opts.maxTries)

theorem actionRunTlsdate_cases (fork : Option Nat) (s : State) :
    (begins s = true ∧ actionRunTlsdate fork s = beginAttempt fork { s with resolving := false }) ∨
      (begins s = false ∧ ∃ tries backoff resolving, actionRunTlsdate fork s =
        ({ s with tries := tries, backoff := backoff, resolving := resolving }, [])) := by
  by_cases hn : s.lastSyncType = .net
  · exact Or.inr ⟨by simp [begins, hn], s.tries, s.backoff, s.resolving,
      by simp only [actionRunTlsdate, if_pos hn]⟩
  · cases hr : s.running with
    | true =>
        refine Or.inr ⟨by simp [begins, hr], ?_⟩
        simp only [actionRunTlsdate, hn, hr, if_true, if_false]
        split
        · exact ⟨_, _, _, by rw [← hr]⟩
        · exact ⟨_, _, _, by rw [← hr]⟩
    | false =>
        by_cases ht : s.tries < s.opts.maxTries
        · refine Or.inl ⟨by simp [begins, hn, hr, ht], ?_⟩
          simp [actionRunTlsdate, hn, hr, ht]
        · refine Or.inr ⟨by simp [begins, ht], 0, toUInt s.opts.waitBetweenTries, false, ?_⟩
          simp [actionRunTlsdate, hn, hr, ht]

/-- What `read_tlsdate_response` finds in the monitor pipe: nothing yet, an end
or a truncated word, or the 32 bits of a server time. -/
inductive MonitorRead
  | again
  | truncated
  | word (serverTime : BitVec 32)
  deriving DecidableEq, Repr

def actionTlsdateStatus (build : Build) (read : MonitorRead) (s : State) : State :=
  match read with
  | .truncated => triggerEvent s .tlsdateTimeout 0
  | .again => triggerEvent s .tlsdateStatus (-1)
  | .word serverTime =>
      let t : Int := serverTime.toNat
      let s := if isSaneTime build t then
          triggerEvent { s with lastSyncType := .net, lastTime := t } .save (-1)
        else s
      -- restore the backoff and tries count on success, insane or not
      { s with tries := 0, backoff := toUInt s.opts.waitBetweenTries }

def actionTlsdateTimeout (s : State) : List Output :=
  if s.tlsdatePid ≠ 0 then [.kill s.tlsdatePid] else []

def nextBackoff (backoff : Nat) : Nat :=
  if backoff < maxSaneBackoff then backoff * 2 % 2 ^ 32 else backoff

/-- The delay of E_TLSDATE after a failed attempt, as `trigger_event` gets it. -/
def retryDelay (s : State) : Int :=
  if s.events .resolver = none then toInt (nextBackoff s.backoff)
  else toInt (resolverTimeout + nextBackoff s.backoff)

def reapTlsdate (status : Int) (s : State) : State :=
  let s := { eventDel s .tlsdateTimeout with running := false, tlsdatePid := 0 }
  if status = 0 then s
  else
    let s := { s with backoff := nextBackoff s.backoff }
    if s.events .resolver = none then triggerEvent s .tlsdate (toInt s.backoff)
    else triggerEvent (triggerEvent s .tlsdate (toInt (resolverTimeout + s.backoff)))
      .resolver (toInt s.backoff)

theorem reapTlsdate_cases (status : Int) (s : State) :
    status = 0 ∧ reapTlsdate status s =
        { eventDel s .tlsdateTimeout with running := false, tlsdatePid := 0 } ∨
      status ≠ 0 ∧ ∃ t : State, t = { eventDel s .tlsdateTimeout with
          running := false, tlsdatePid := 0, backoff := nextBackoff s.backoff } ∧
        (s.events .resolver = none ∧ reapTlsdate status s = triggerEvent t .tlsdate (retryDelay s) ∨
          s.events .resolver ≠ none ∧ reapTlsdate status s =
            triggerEvent (triggerEvent t .tlsdate (retryDelay s)) .resolver
              (toInt (nextBackoff s.backoff))) := by
  by_cases hz : status = 0
  · exact Or.inl ⟨hz, by rw [reapTlsdate, if_pos hz]⟩
  · refine Or.inr ⟨hz, _, rfl, ?_⟩
    have hres : (eventDel s .tlsdateTimeout).events .resolver = s.events .resolver := by simp
    by_cases hr : s.events .resolver = none
    · refine Or.inl ⟨hr, ?_⟩
      rw [reapTlsdate, if_neg hz, retryDelay, if_pos hr]
      exact if_pos (hres.trans hr)
    · refine Or.inr ⟨hr, ?_⟩
      rw [reapTlsdate, if_neg hz, retryDelay, if_neg hr]
      exact if_neg fun h => hr (hres.symm.trans h)

/-- `handle_child_death` for the process that `waitid` reports. The death of
the time setter breaks the event loop. -/
def handleChildDeath (pid : Nat) (status : Int) (s : State) : Outcome :=
  if pid = s.setterPid then ⟨s, [], .breaks⟩
  else if pid ≠ s.tlsdatePid then proceed s []
  else proceed (reapTlsdate status s) []

def handleChildStop (pid : Nat) (permitted : Bool) (s : State) : Outcome :=
  if permitted then proceed s [.kill pid] else ⟨s, [], .ends⟩

inductive Wait
  | died (pid : Nat) (status : Int)
  | stopped (pid : Nat) (permitted : Bool)
  deriving DecidableEq, Repr

def refused : Wait → Bool
  | .died _ _ => false
  | .stopped _ permitted => !permitted

def handleWait (s : State) : Wait → Outcome
  | .died pid status => handleChildDeath pid status s
  | .stopped pid permitted => handleChildStop pid permitted s

/-- `action_sigchld` works through the children that are ready, also when one
of them has already broken the event loop. -/
def actionSigchld : List Wait → State → Outcome
  | [], s => proceed s []
  | w :: ws, s =>
      let first := handleWait s w
      if first.course = .ends then first
      else
        let rest := actionSigchld ws first.state
        ⟨rest.state, first.outputs ++ rest.outputs,
          if rest.course = .loops then first.course else rest.course⟩

theorem handleWait_course (s : State) (w : Wait) :
    (handleWait s w).course = .ends ↔ refused w = true := by
  cases w with
  | died pid status =>
      rw [handleWait, handleChildDeath]
      split_ifs <;> simp [proceed, refused]
  | stopped pid permitted => cases permitted <;> simp [handleWait, handleChildStop, proceed, refused]

theorem actionSigchld_cons (w : Wait) (ws : List Wait) (s : State) :
    refused w = true ∧ actionSigchld (w :: ws) s = handleWait s w ∨
      refused w = false ∧
        (actionSigchld (w :: ws) s).state = (actionSigchld ws (handleWait s w).state).state ∧
        (actionSigchld (w :: ws) s).outputs =
          (handleWait s w).outputs ++ (actionSigchld ws (handleWait s w).state).outputs := by
  rw [actionSigchld]
  cases h : refused w with
  | true => exact Or.inl ⟨rfl, if_pos ((handleWait_course s w).mpr h)⟩
  | false =>
      have hon : ¬ (handleWait s w).course = .ends := by simp [handleWait_course, h]
      dsimp only
      rw [if_neg hon]
      exact Or.inr ⟨rfl, rfl, rfl⟩

theorem actionSigchld_rule {R : State → State → List Output → Prop} (hnone : ∀ s, R s s [])
    (hone : ∀ s w, R s (handleWait s w).state (handleWait s w).outputs)
    (hthen : ∀ {s t u o o'}, R s t o → R t u o' → R s u (o ++ o')) (waits : List Wait) (s : State) :
    R s (actionSigchld waits s).state (actionSigchld waits s).outputs := by
  induction waits generalizing s with
  | nil => exact hnone s
  | cons w ws ih =>
      obtain ⟨-, heq⟩ | ⟨-, hstate, hout⟩ := actionSigchld_cons w ws s
      · rw [heq]
        exact hone s w
      · rw [hstate, hout]
        exact hthen (hone s w) (ih _)

end Tlsdate.Attempts
