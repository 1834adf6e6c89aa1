import Tlsdate.EventLoop

namespace Tlsdate.ResolverCalls

open HostBytes TimeSource Options TimestampFile DaemonState Kickoff ProxyResolver EventLoop

def errorServiceUnknown : String := "org.freedesktop.DBus.Error.ServiceUnknown"

inductive Reply
  | methodReturn
  | error (name : String)

/-- What `dbus_filter` makes out of the answer to the call with this serial. -/
def Reply.message (serial : Nat) : Reply → BusMessage
  | .methodReturn => .methodReturn serial
  | .error name => if name = errorServiceUnknown then .serviceUnknown else .other

/-- The daemon and the serials of its calls that are still unanswered. A prepared
message that is sent again keeps its serial. -/
structure Bus where
  daemon : Daemon
  calls : List Nat

inductive Happening
  | callback (e : Event)
  | answer (serial : Nat) (reply : Reply) (r : Readings)

def sent : Event → List Output → List Nat
  | .resolveProxy (some serial), _ :: _ => [serial]
  | _, _ => []

/-- Every call is answered at most once; all else that D-Bus delivers is a callback. -/
def step (build : Build) : Machine.Step Bus Happening Output := fun b h =>
  match h with
  | .callback e =>
      (EventLoop.step build b.daemon e).map fun next => (⟨next.1, sent e next.2 ++ b.calls⟩, next.2)
  | .answer serial reply r =>
      if serial ∈ b.calls then
        (EventLoop.step build b.daemon (.bus (reply.message serial) r)).map fun next =>
          (⟨next.1, b.calls.erase serial⟩, next.2)
      else none

def Waiting (b : Bus) : Prop :=
  b.daemon.platform.serial ≠ 0 → b.daemon.platform.serial ∈ b.calls

/-- The call whose serial is recorded gets no error but ServiceUnknown. -/
def Known (b : Bus) : Happening → Prop
  | .answer serial (.error name) _ =>
      serial = b.daemon.platform.serial → name = errorServiceUnknown
  | _ => True

variable {build : Build} {d d' : Daemon} {b b' : Bus} {out : List Output}

def serialAfter (d : Daemon) : Event → Nat
  | .resolveProxy send => (actionResolveProxy send (eventDel d.state .resolver) d.platform).2.1.serial
  | .bus msg r => (dbusFilter r msg d.state d.platform).2.1.serial
  | _ => d.platform.serial

theorem step_serial {e : Event} (h : EventLoop.step build d e = some (d', out)) :
    d'.platform.serial = serialAfter d e := by
  rw [EventLoop.step] at h
  split at h
  next => cases h
  next =>
    split at h
    next o ho =>
      cases h
      cases e with
      | resolveProxy | bus => cases ho
      | _ => rfl
    next =>
      cases e with
      | resolveProxy send =>
          obtain ⟨s, hs, he⟩ := Option.map_eq_some_iff.mp h
          obtain ⟨-, rfl⟩ := fire_some hs
          cases he
          rfl
      | bus msg r =>
          simp only [platformCallback] at h
          split at h
          next => cases h
          next =>
            cases h
            rfl
      | _ => cases h

theorem actionResolveProxy_serial (send : Option Nat) (s : State) (ctx : Platform) :
    (actionResolveProxy send s ctx).2.1.serial = ctx.serial ∨
      sent (.resolveProxy send) (actionResolveProxy send s ctx).2.2 =
        [(actionResolveProxy send s ctx).2.1.serial] := by
  obtain h | ⟨-, -, h | h | ⟨serial, url, rfl, h⟩⟩ := actionResolveProxy_cases send s ctx
  all_goals rw [h]
  · exact Or.inl rfl
  · exact Or.inl rfl
  · exact Or.inl rfl
  · exact Or.inr rfl

theorem dbusFilter_serial (r : Readings) (msg : BusMessage) (s : State) (ctx : Platform) :
    (dbusFilter r msg s ctx).2.1.serial = ctx.serial ∨ (dbusFilter r msg s ctx).2.1.serial = 0 := by
  cases msg with
  | serviceUnknown => exact Or.inr rfl
  | methodReturn serial =>
      rw [dbusFilter]
      split
      next => exact Or.inr rfl
      next => exact Or.inl rfl
  | _ => exact Or.inl rfl

theorem step_callback {e : Event} (h : step build b (.callback e) = some (b', out)) :
    EventLoop.step build b.daemon e = some (b'.daemon, out) ∧ b'.calls = sent e out ++ b.calls := by
  obtain ⟨⟨d, o⟩, hs, he⟩ := Option.map_eq_some_iff.mp h
  cases he
  exact ⟨hs, rfl⟩

theorem step_answer {serial : Nat} {reply : Reply} {r : Readings}
    (h : step build b (.answer serial reply r) = some (b', out)) :
    EventLoop.step build b.daemon (.bus (reply.message serial) r) = some (b'.daemon, out) ∧
      b'.calls = b.calls.erase serial := by
  simp only [step] at h
  split at h
  next =>
    obtain ⟨⟨d, o⟩, hs, he⟩ := Option.map_eq_some_iff.mp h
    cases he
    exact ⟨hs, rfl⟩
  next => cases h

theorem callback_waiting {e : Event} (hw : Waiting b)
    (h : step build b (.callback e) = some (b', out)) : Waiting b' := by
  obtain ⟨hs, hcalls⟩ := step_callback h
  have hserial := step_serial hs
  have kept (hsame : b'.daemon.platform.serial = b.daemon.platform.serial) : Waiting b' := by
    rw [Waiting, hsame, hcalls]
    exact fun hne => List.mem_append_right _ (hw hne)
  cases e with
  | resolveProxy send =>
      obtain hsame | hsent :=
        actionResolveProxy_serial send (eventDel b.daemon.state .resolver) b.daemon.platform
      · exact kept (hserial.trans hsame)
      · have hout : out = (actionResolveProxy send (eventDel b.daemon.state .resolver)
            b.daemon.platform).2.2 := by
          obtain ⟨-, hm⟩ := step_moved hs
          generalize b'.daemon.state = s' at hm
          cases hm
          rfl
        intro
        rw [hcalls, hout, hsent, hserial]
        exact List.mem_cons_self
  | bus msg r =>
      obtain hsame | hzero := dbusFilter_serial r msg b.daemon.state b.daemon.platform
      · exact kept (hserial.trans hsame)
      · exact fun hne => absurd (hserial.trans hzero) hne
  | _ => exact kept hserial

theorem answer_freed {serial : Nat} {reply : Reply} {r : Readings}
    (hk : Known b (.answer serial reply r))
    (h : step build b (.answer serial reply r) = some (b', out)) :
    b'.daemon.platform.serial = 0 ∨ (b'.daemon.platform.serial = b.daemon.platform.serial ∧
      b.daemon.platform.serial ≠ serial) := by
  have hserial := step_serial (step_answer h).1
  rw [hserial, serialAfter]
  cases reply with
  | methodReturn =>
      rw [Reply.message, dbusFilter]
      split
      next => exact Or.inl rfl
      next hne => exact Or.inr ⟨rfl, Ne.symm hne⟩
  | error name =>
      rw [Reply.message]
      split
      next => exact Or.inl rfl
      next hname => exact Or.inr ⟨rfl, fun he => hname (hk he.symm)⟩

theorem answer_waiting {serial : Nat} {reply : Reply} {r : Readings} (hw : Waiting b)
    (hk : Known b (.answer serial reply r))
    (h : step build b (.answer serial reply r) = some (b', out)) : Waiting b' := by
  intro hne
  obtain hzero | ⟨hsame, hother⟩ := answer_freed hk h
  · exact absurd hzero hne
  · rw [hsame] at hne ⊢
    rw [(step_answer h).2]
    exact (List.mem_erase_of_ne hother).mpr (hw hne)

theorem startup_serial {order : ByteOrder} {opts : Opts} {platform : Bool} {setterPid : Nat}
    {now : Int} {file : File} {n : BitVec 32} {r : Readings}
    (h : startup build order opts platform setterPid now file n r = some d) :
    d.platform.serial = 0 := by
  rw [startup] at h
  split at h
  next => cases h
  next =>
    obtain ⟨⟨s, ctx⟩, hs, rfl⟩ := Option.map_eq_some_iff.mp h
    split at hs
    next =>
      rw [platformInitCros] at hs
      split at hs
      next => cases hs
      next =>
        cases hs
        rfl
    next =>
      cases hs
      rfl

/-- In a run of known answers the recorded serial is always that of a call under
way, and once its answer has been handled it blocks no further call. -/
theorem serial_waiting {order : ByteOrder} {opts : Opts} {platform : Bool} {setterPid : Nat}
    {now : Int} {file : File} {n : BitVec 32} {r₀ : Readings} {d₀ : Daemon} {hs : List Happening}
    (h : startup build order opts platform setterPid now file n r₀ = some d₀)
    (hr : Machine.Run (step build) Known ⟨d₀, []⟩ hs b out) :
    Waiting b ∧ ∀ serial reply r b' o, Known b (.answer serial reply r) →
      step build b (.answer serial reply r) = some (b', o) →
      b'.daemon.platform.serial ≠ 0 → b'.daemon.platform.serial ≠ serial := by
  have hinit : Waiting ⟨d₀, []⟩ := fun hne => absurd (startup_serial h) hne
  refine ⟨hr.invariant Waiting hinit ?_, fun serial reply r b' o hk hs hne hserial => ?_⟩
  · intro b e b' o hw hk hs
    cases e with
    | callback e => exact callback_waiting hw hs
    | answer serial reply r => exact answer_waiting hw hk hs
  · obtain hzero | ⟨hsame, hother⟩ := answer_freed hk hs
    · exact hne hzero
    · exact hother (hsame.symm.trans hserial)

def dynamicStart : Option Daemon :=
  startup fallbackBuild .little
    { setConfDefaults fallbackBuild with sources := [⟨"a", "443", some (.text "dynamic"), 0⟩] }
    true 100 1400000000 none 0 (steadyReadings 1400000000 60)

def resolved (reply : Reply) : List Happening :=
  [.callback (.resolveProxy (some 5)), .answer 5 reply uptime70]

theorem serial_waiting_returned : ∃ d₀ b out, dynamicStart = some d₀ ∧
    Machine.Run (step fallbackBuild) Known ⟨d₀, []⟩ (resolved .methodReturn) b out ∧ Waiting b := by
  have hrun : ∃ d₀ b out, dynamicStart = some d₀ ∧
      Machine.exec (step fallbackBuild) ⟨d₀, []⟩ (resolved .methodReturn) = some (b, out) :=
    ⟨_, _, _, rfl, rfl⟩
  obtain ⟨d₀, b, out, h₀, hx⟩ := hrun
  have hr := (Machine.Run.of_exec hx).restrict (D := Known) fun e he b => by
    simp only [resolved, List.mem_cons, List.not_mem_nil, or_false] at he
    obtain rfl | rfl := he <;> trivial
  exact ⟨d₀, b, out, h₀, hr, (serial_waiting h₀ hr).1⟩

/-- After any other error the serial stays recorded and no further call is made. -/
theorem serial_stays : ∃ d₀ b out, dynamicStart = some d₀ ∧
    Machine.Run (step fallbackBuild) Machine.Free ⟨d₀, []⟩
      (resolved (.error "org.freedesktop.DBus.Error.NoReply")) b out ∧
    b.daemon.platform.serial = 5 ∧ b.calls = [] ∧ ¬ Waiting b ∧
    ∀ send s, (actionResolveProxy send s b.daemon.platform).2.2 = [] := by
  have hrun : ∃ d₀ b out, dynamicStart = some d₀ ∧
      Machine.exec (step fallbackBuild) ⟨d₀, []⟩
        (resolved (.error "org.freedesktop.DBus.Error.NoReply")) = some (b, out) ∧
      b.daemon.platform.serial = 5 ∧ b.calls = [] := ⟨_, _, _, rfl, rfl, rfl, rfl⟩
  obtain ⟨d₀, b, out, h₀, hx, hserial, hcalls⟩ := hrun
  refine ⟨d₀, b, out, h₀, Machine.Run.of_exec hx, hserial, hcalls, fun hw => ?_, fun send s => ?_⟩
  · have hmem := hw (hserial ▸ by decide)
    rw [hcalls] at hmem
    exact List.not_mem_nil hmem
  · obtain h | ⟨-, hzero, -⟩ := actionResolveProxy_cases send s b.daemon.platform
    · rw [h]
    · rw [hserial] at hzero
      cases hzero

end Tlsdate.ResolverCalls
