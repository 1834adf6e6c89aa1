import Tlsdate.Kickoff

namespace Tlsdate.Saving

open TimeSource Options DaemonState Kickoff

/-- The result of one non-blocking `write` of a `time_t` to the setter's pipe.
Any other error and a partial write end the process. -/
inductive WriteResult
  | written
  | again
  | brokenPipe
  | failed
  deriving DecidableEq, Repr

/-- The word that stands for the current time: negative unless it comes from
the network, so that the setter does not write it to disk. -/
def encodedTime (s : State) : Int := if s.lastSyncType ≠ .net then -s.lastTime else s.lastTime

/-- `action_sync_and_save`, called for a write event. On EAGAIN it returns to
be notified again. After the last time has been written on the way down it
calls itself, with `last_time` 0, to write the shutdown message. -/
def syncAndSave (write : WriteResult) (s : State) : Outcome :=
  match write with
  | .written => proceed s [.message (encodedTime s)]
  | .again | .brokenPipe => proceed s []
  | .failed => ⟨s, [], .ends⟩

def actionSyncAndSave (readable : Bool) (write shutdown : WriteResult) (s : State) : Outcome :=
  -- EPIPE/EBADF notification
  if readable then proceed s []
  else
    let saved := syncAndSave write s
    if write = .written ∧ s.exitting ∧ encodedTime s ≠ 0 then
      let down := syncAndSave shutdown { s with lastTime := 0 }
      ⟨down.state, saved.outputs ++ down.outputs, down.course⟩
    else saved

theorem actionSyncAndSave_cases (readable : Bool) (write shutdown : WriteResult) (s : State) :
    ((actionSyncAndSave readable write shutdown s).state = s ∨
      (actionSyncAndSave readable write shutdown s).state = { s with lastTime := 0 }) ∧
    ∀ o ∈ (actionSyncAndSave readable write shutdown s).outputs, ∃ word, o = .message word := by
  have hsync (w : WriteResult) (t : State) :
      (syncAndSave w t).state = t ∧ ∀ o ∈ (syncAndSave w t).outputs, ∃ word, o = .message word := by
    cases w with
    | written => exact ⟨rfl, fun o ho => ⟨_, List.mem_singleton.mp ho⟩⟩
    | again | brokenPipe | failed => exact ⟨rfl, fun o ho => by cases ho⟩
  rw [actionSyncAndSave]
  split
  next => exact ⟨Or.inl rfl, fun o ho => by cases ho⟩
  next =>
    dsimp only
    split
    next =>
      obtain ⟨hstate, hdown⟩ := hsync shutdown { s with lastTime := 0 }
      refine ⟨Or.inr hstate, fun o ho => ?_⟩
      obtain ho | ho := List.mem_append.mp ho
      · exact (hsync write s).2 o ho
      · exact hdown o ho
    next => exact ⟨Or.inl (hsync write s).1, (hsync write s).2⟩

/-- On sigterm, grab the system clock; the last sync type stays. -/
def actionSigterm (now : Option Int) (s : State) : Outcome :=
  let s := { s with exitting := true }
  match now with
  | none => ⟨s, [], .ends⟩
  | some sec => proceed (triggerEvent { s with lastTime := sec } .save (-1)) []

def handleTimeSetter (r : Readings) (status : Int) (s : State) : Outcome :=
  if status = setterBadTime then proceed (invalidateTime r s) []
  else if status = setterTimeSet then
    let s := if s.lastSyncType = .net then
        { s with clockDelta := (checkContinuity r 0).2, opts := { s.opts with curSource := [] } }
      else s
    proceed s (if s.opts.shouldDbus then [.announce s.lastSyncType] else [])
  else if status ∈ [setterNoSbox, setterExit, setterSetErr, setterNoRtc, setterNoSave, setterReadErr]
    then proceed s []
  else ⟨s, [], .ends⟩

/-- What `action_time_set` reads: nothing, a truncated or failed read, after
which it closes the descriptor, or a status word. -/
inductive NotifyRead
  | again
  | truncated
  | status (word : Int)
  deriving DecidableEq, Repr

def actionTimeSet (r : Readings) (read : NotifyRead) (s : State) : Outcome :=
  match read with
  | .again | .truncated => proceed s []
  | .status word => handleTimeSetter r word s

theorem actionTimeSet_cases (r : Readings) (read : NotifyRead) (s : State) :
    ((actionTimeSet r read s).state = s ∨ (actionTimeSet r read s).state = invalidateTime r s ∨
      s.lastSyncType = .net ∧ (actionTimeSet r read s).state =
        { s with clockDelta := (checkContinuity r 0).2, opts := { s.opts with curSource := [] } }) ∧
    ∀ o ∈ (actionTimeSet r read s).outputs, ∃ sync, o = .announce sync := by
  have hsilent : ∀ o ∈ ([] : List Output), ∃ sync, o = .announce sync := fun o ho => by cases ho
  have hannounced (listening : Bool) (type : SyncType) :
      ∀ o ∈ if listening then [Output.announce type] else [], ∃ sync, o = .announce sync := by
    cases listening with
    | false => exact hsilent
    | true => exact fun o ho => ⟨type, List.mem_singleton.mp ho⟩
  cases read with
  | again | truncated => exact ⟨Or.inl rfl, hsilent⟩
  | status word =>
      rw [actionTimeSet, handleTimeSetter]
      split
      next => exact ⟨Or.inr (Or.inl rfl), hsilent⟩
      next =>
        split
        next =>
          constructor
          · by_cases hnet : s.lastSyncType = .net
            · rw [if_pos hnet]
              exact Or.inr (Or.inr ⟨hnet, rfl⟩)
            · rw [if_neg hnet]
              exact Or.inl rfl
          · exact hannounced _ _
        next => split <;> exact ⟨Or.inl rfl, hsilent⟩

end Tlsdate.Saving
