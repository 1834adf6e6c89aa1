import Tlsdate.AttemptTurns

namespace Tlsdate.MonitorPipe

open HostBytes TimeSource Options TimestampFile DaemonState Kickoff Attempts EventLoop AttemptTurns

/-- A byte in the monitor pipe, with the number of the child that wrote it and
its position among the bytes of that child. The numbers record history. -/
structure Sent where
  child : Nat
  position : Nat
  byte : UInt8
  deriving DecidableEq

structure Child where
  pid : Nat
  number : Nat
  written : Nat

/-- How many children have been launched, and those that have not been reaped. -/
structure Brood where
  launched : Nat
  children : List Child

def Brood.note (b : Brood) : Mark → Brood
  | .launched pid => ⟨b.launched + 1, ⟨pid, b.launched + 1, 0⟩ :: b.children⟩
  | .reaped pid => ⟨b.launched, b.children.filter (·.pid ≠ pid)⟩
  | .killed _ | .replied => b

structure System where
  daemon : Daemon
  brood : Brood
  pipe : List Sent

inductive Move
  | daemon (e : Event)
  | write (pid : Nat) (chunk : List UInt8)

structure Reply where
  latest : Nat
  time : Nat
  bytes : List Sent
  deriving DecidableEq

def stamp (child : Nat) : Nat → List UInt8 → List Sent
  | _, [] => []
  | position, b :: bs => ⟨child, position, b⟩ :: stamp child (position + 1) bs

def word (order : ByteOrder) (bytes : List Sent) : Nat := decode order (bytes.map Sent.byte)

/-- `read` on the pipe, whose other end the daemon itself keeps open: it takes
up to four bytes, and a part of a word is lost. -/
def fetch (order : ByteOrder) (pipe : List Sent) : MonitorRead × List Sent :=
  if pipe = [] then (.again, [])
  else if pipe.length < 4 then (.truncated, [])
  else (.word (BitVec.ofNat 32 (word order (pipe.take 4))), pipe.drop 4)

def heard (order : ByteOrder) (pipe : List Sent) : Event → Bool
  | .tlsdateStatus read => decide (read = (fetch order pipe).1)
  | _ => true

def left (order : ByteOrder) (pipe : List Sent) : Event → List Sent
  | .tlsdateStatus _ => (fetch order pipe).2
  | _ => pipe

def accepted (build : Build) (m : System) : Event → List Reply
  | .tlsdateStatus (.word t) =>
      if isSaneTime build t.toNat then [⟨m.brood.launched, t.toNat, m.pipe.take 4⟩] else []
  | _ => []

def grown (pid n : Nat) (c : Child) : Child :=
  if c.pid = pid then { c with written := c.written + n } else c

/-- A callback of the daemon, or a chunk written by a child that has not been
reaped. -/
def step (build : Build) (order : ByteOrder) : Machine.Step System Move Reply := fun m mv =>
  match mv with
  | .write pid chunk =>
      (m.brood.children.find? (·.pid = pid)).map fun c =>
        ({ m with
            brood := { m.brood with children := m.brood.children.map (grown pid chunk.length) }
            pipe := m.pipe ++ stamp c.number c.written chunk }, [])
  | .daemon e =>
      if heard order m.pipe e then
        (EventLoop.step build m.daemon e).map fun r =>
          (⟨r.1, (marks r.2 e).foldl Brood.note m.brood, left order m.pipe e⟩, accepted build m e)
      else none

def Genuine (order : ByteOrder) (r : Reply) : Prop :=
  ∃ position bytes, bytes.length = 4 ∧ r.bytes = stamp r.latest position bytes ∧
    r.time = decode order bytes

def Drained (m : System) : Move → Prop
  | .daemon (.runTlsdate (some _)) => begins m.daemon.state = true → m.pipe = []
  | _ => True

/-- The pipe holds the last bytes of the latest child, the only one that can
still write. -/
structure Tended (c : Terms) (a : Attempt) (b : Brood) (pipe : List Sent) : Prop where
  single : Single c a (b.children.map Child.pid)
  stamped : ∃ position bytes, pipe = stamp b.launched position bytes ∧
    ∀ ch ∈ b.children, ch.number = b.launched ∧ ch.written = position + bytes.length

variable {build : Build} {order : ByteOrder} {c : Terms} {k : Cause}

theorem stamp_append (child position : Nat) (xs ys : List UInt8) :
    stamp child position (xs ++ ys) = stamp child position xs ++ stamp child (position + xs.length) ys := by
  induction xs generalizing position with
  | nil => rfl
  | cons x xs ih => simp [stamp, ih, Nat.add_assoc, Nat.add_comm 1]

theorem stamp_length (child position : Nat) (bs : List UInt8) :
    (stamp child position bs).length = bs.length := by
  induction bs generalizing position with
  | nil => rfl
  | cons b bs ih => simp [stamp, ih]

theorem stamp_bytes (child position : Nat) (bs : List UInt8) :
    (stamp child position bs).map Sent.byte = bs := by
  induction bs generalizing position with
  | nil => rfl
  | cons b bs ih => simp [stamp, ih]

theorem stamp_split (child position : Nat) {n : Nat} {bs : List UInt8} (h : n ≤ bs.length) :
    (stamp child position bs).take n = stamp child position (bs.take n) ∧
      (stamp child position bs).drop n = stamp child (position + n) (bs.drop n) := by
  have hlen : (bs.take n).length = n := by simpa using h
  have hsplit := stamp_append child position (bs.take n) (bs.drop n)
  rw [List.take_append_drop, hlen] at hsplit
  have hn : (stamp child position (bs.take n)).length = n := (stamp_length _ _ _).trans hlen
  rw [hsplit]
  exact ⟨List.take_left' hn, List.drop_left' hn⟩

theorem foldl_note (b : Brood) (ms : List Mark) :
    (ms.foldl Brood.note b).children.map Child.pid = ms.foldl census (b.children.map Child.pid) := by
  refine (List.foldl_hom (fun b : Brood => b.children.map Child.pid) ?_).symm
  intro b m
  cases m with
  | reaped pid =>
      simp only [Brood.note, census, List.filter_map]
      rfl
  | _ => rfl

theorem Tended.turn {a a' : Attempt} {b : Brood} {pipe : List Sent} {ms : List Mark}
    (hl : ∀ x ∈ ms, ∀ pid, x = .launched pid → pipe = []) (hi : Tended c a b pipe)
    (ht : Turn c k a ms a') : Tended c a' (ms.foldl Brood.note b) pipe := by
  refine ⟨foldl_note b ms ▸ hi.single.turn ht, ?_⟩
  obtain ⟨position, bytes, hp, hch⟩ := hi.stamped
  cases ht with
  | launch _ pid _ hr =>
      have hempty := hl _ (List.mem_singleton.mpr rfl) pid rfl
      have hnone : b.children = [] := by
        have halive := hi.single.alive
        rw [hr] at halive
        exact List.map_eq_nil_iff.mp halive
      refine ⟨0, [], hempty, ?_⟩
      simp [Brood.note, hnone]
  | timeOut => split <;> exact ⟨position, bytes, hp, hch⟩
  | reap | fail | stray =>
      exact ⟨position, bytes, hp, fun ch hm => hch ch (List.mem_of_mem_filter hm)⟩
  | _ => exact ⟨position, bytes, hp, hch⟩

theorem Tended.write {a : Attempt} {b : Brood} {pipe : List Sent} {ch : Child} (chunk : List UInt8)
    (hi : Tended c a b pipe) (hc : ch ∈ b.children) :
    Tended c a { b with children := b.children.map (grown ch.pid chunk.length) }
      (pipe ++ stamp ch.number ch.written chunk) := by
  have hone : b.children = [ch] := by
    have halive := hi.single.alive
    split at halive
    next =>
      obtain ⟨x, hx, -⟩ := List.map_eq_singleton_iff.mp halive
      rw [hx, List.mem_singleton] at hc
      rw [hx, hc]
    next =>
      rw [List.map_eq_nil_iff.mp halive] at hc
      cases hc
  obtain ⟨position, bytes, hp, hch⟩ := hi.stamped
  obtain ⟨hnumber, hwritten⟩ := hch ch hc
  refine ⟨?_, position, bytes ++ chunk, ?_, ?_⟩
  · have hpids : (b.children.map (grown ch.pid chunk.length)).map Child.pid =
        b.children.map Child.pid := by
      rw [hone]
      simp [grown]
    exact hpids ▸ hi.single
  · rw [hp, hnumber, hwritten, stamp_append]
  · rw [hone]
    simp [grown, hnumber, hwritten, Nat.add_assoc]

theorem Tended.fetch {a : Attempt} {b : Brood} {pipe : List Sent} (hi : Tended c a b pipe) :
    Tended c a b (fetch order pipe).2 := by
  refine ⟨hi.single, ?_⟩
  obtain ⟨position, bytes, hp, hch⟩ := hi.stamped
  rw [MonitorPipe.fetch]
  split
  next hempty =>
    rw [hempty] at hp
    exact ⟨position, bytes, hp, hch⟩
  next =>
    split
    next => exact ⟨position + bytes.length, [], rfl, by simpa using hch⟩
    next hlong =>
      rw [hp, stamp_length] at hlong
      refine ⟨position + 4, bytes.drop 4, ?_, fun ch hm => ?_⟩
      · rw [hp]
        exact (stamp_split _ _ (by omega)).2
      · obtain ⟨hnumber, hwritten⟩ := hch ch hm
        rw [List.length_drop]
        exact ⟨hnumber, by omega⟩

theorem Tended.left {a : Attempt} {b : Brood} {pipe : List Sent} (hi : Tended c a b pipe) (e : Event) :
    Tended c a b (left order pipe e) := by
  cases e with
  | tlsdateStatus read => exact hi.fetch
  | _ => exact hi

theorem Tended.genuine {m : System} {a : Attempt} {e : Event} (hi : Tended c a m.brood m.pipe)
    (he : heard order m.pipe e = true) : ∀ r ∈ accepted build m e, Genuine order r := by
  intro r hr
  cases e with
  | tlsdateStatus read =>
      cases read with
      | word t =>
          simp only [accepted] at hr
          split at hr
          next =>
            obtain rfl := List.mem_singleton.mp hr
            have hread := of_decide_eq_true he
            rw [MonitorPipe.fetch] at hread
            split at hread
            next => cases hread
            next =>
              split at hread
              next => cases hread
              next hlong =>
                obtain ⟨position, bytes, hp, -⟩ := hi.stamped
                rw [hp, stamp_length] at hlong
                obtain ⟨htake, -⟩ := stamp_split m.brood.launched position (show 4 ≤ bytes.length by omega)
                have hfour : (bytes.take 4).length = 4 := by simp; omega
                refine ⟨position, bytes.take 4, hfour, by rw [hp]; exact htake, ?_⟩
                rw [hp, htake, word, stamp_bytes] at hread
                injection hread with ht
                have hlt := decode_lt order (bytes.take 4)
                rw [hfour] at hlt
                rw [ht, BitVec.toNat_ofNat]
                exact Nat.mod_eq_of_lt (hlt.trans_eq (by norm_num))
          next => cases hr
      | _ => cases hr
  | _ => cases hr

theorem launch_begins {s : State} {ctx : ProxyResolver.Platform} {e : Event} {s' : State}
    {out : List Output} {pid : Nat} (h : Moved build s ctx e s' out)
    (hm : Mark.launched pid ∈ marks out e) :
    ∃ fork, e = .runTlsdate (some fork) ∧ begins s = true := by
  have hdue : cause e = .due := (moved_moves h).2.launched hm
  cases h with
  | runTlsdate fork =>
      rcases actionRunTlsdate_cases fork (eventDel s .tlsdate) with ⟨hb, he⟩ | ⟨-, t, b, r, he⟩
      · cases fork with
        | none =>
            rw [he, beginAttempt_none] at hm
            cases hm
        | some pid' => exact ⟨pid', rfl, hb⟩
      · rw [he] at hm
        cases hm
  | bus msg => cases msg <;> cases hdue
  | _ => cases hdue

theorem step_tended {m m' : System} {mv : Move} {o : List Reply} (hc : terms m.daemon.state = c)
    (hi : Tended c (attempt m.daemon.state) m.brood m.pipe) (hd : Drained m mv)
    (hs : step build order m mv = some (m', o)) :
    terms m'.daemon.state = c ∧ Tended c (attempt m'.daemon.state) m'.brood m'.pipe ∧
      ∀ r ∈ o, Genuine order r := by
  cases mv with
  | write pid chunk =>
      obtain ⟨ch, hch, he⟩ := Option.map_eq_some_iff.mp hs
      simp only [Prod.mk.injEq] at he
      obtain ⟨rfl, rfl⟩ := he
      have hpid : ch.pid = pid := by simpa using List.find?_some hch
      exact ⟨hc, hpid ▸ hi.write chunk (List.mem_of_find?_eq_some hch), by simp⟩
  | daemon e =>
      simp only [step] at hs
      split at hs
      next he =>
        obtain ⟨⟨d', out⟩, hstep, hr⟩ := Option.map_eq_some_iff.mp hs
        simp only [Prod.mk.injEq] at hr
        obtain ⟨rfl, rfl⟩ := hr
        have hm := (step_moved hstep).2
        obtain ⟨hterms, hturns⟩ := moved_moves hm
        rw [hc] at hterms hturns
        have hempty : ∀ x ∈ marks out e, ∀ pid, x = .launched pid → m.pipe = [] := by
          rintro x hx pid rfl
          obtain ⟨fork, rfl, hb⟩ := launch_begins hm hx
          exact hd hb
        have hnext := hturns.keep_marked (I := fun a b => Tended c a b m.pipe)
          (fun a b ms a' hq hi ht => hi.turn hq ht) hempty hi
        exact ⟨hterms, hnext.left e, hi.genuine he⟩
      next => cases hs

/-- As long as every child is launched on an empty pipe, every time that is
accepted is four consecutive bytes of the latest child. -/
theorem replies_genuine {opts : Opts} {platform : Bool} {setterPid : Nat} {now : Int} {file : File}
    {n : BitVec 32} {r : Readings} {d₀ : Daemon}
    (h : startup build order opts platform setterPid now file n r = some d₀) :
    ∀ ms m out, Machine.Run (step build order) Drained ⟨d₀, ⟨0, []⟩, []⟩ ms m out →
      ∀ r ∈ out, Genuine order r := by
  intro ms m out hr
  obtain ⟨hterms, hstart⟩ : terms d₀.state = ⟨opts.maxTries, opts.waitBetweenTries,
        opts.subprocessWaitBetweenTries, setterPid, true⟩ ∧
      Tended _ (attempt d₀.state) ⟨0, []⟩ [] :=
    run_keep (I := fun a b => Tended _ a b []) h rfl ⟨⟨by simp, by simp, rfl⟩, 0, [], rfl, by simp⟩
      (fun k a b ms a' hi ht => hi.turn (fun _ _ _ _ => rfl) ht) .nil
  rw [← hterms] at hstart
  have hkept := hr.history (fun m out => terms m.daemon.state = terms d₀.state ∧
      Tended (terms d₀.state) (attempt m.daemon.state) m.brood m.pipe ∧ ∀ r ∈ out, Genuine order r)
    ⟨rfl, hstart, by simp⟩ ?_
  · exact hkept.2.2
  · intro m mv m' o out hi hd hs
    obtain ⟨hterms, htended, hgenuine⟩ := step_tended hi.1 hi.2.1 hd hs
    exact ⟨hterms, htended, List.forall_mem_append.mpr ⟨hi.2.2, hgenuine⟩⟩

def system (d : Daemon) : System := ⟨d, ⟨0, []⟩, []⟩

def accepts (ms : List Move) : Option (List Reply) :=
  defaultStart.bind fun d => (Machine.exec (step fallbackBuild .little) (system d) ms).map (·.2)

theorem accepts_exec {ms : List Move} {out : List Reply} (h : accepts ms = some out) :
    ∃ d₀ m, defaultStart = some d₀ ∧
      Machine.exec (step fallbackBuild .little) (system d₀) ms = some (m, out) := by
  obtain ⟨d₀, hd, h⟩ := Option.bind_eq_some_iff.mp h
  obtain ⟨⟨m, out'⟩, hx, he⟩ := Option.map_eq_some_iff.mp h
  exact ⟨d₀, m, hd, he ▸ hx⟩

def newTimeBytes : List UInt8 := [0x64, 0x4E, 0x72, 0x53]

def answering : List Move := [.write 200 newTimeBytes, .daemon (.tlsdateStatus (.word newTime))]

theorem replies_genuine_answered : ∃ d₀ m out, defaultStart = some d₀ ∧
    Machine.Run (step fallbackBuild .little) Drained (system d₀)
      (.daemon (.runTlsdate (some 200)) :: answering) m out ∧
    out = [⟨1, 1400000100, stamp 1 0 newTimeBytes⟩] ∧ ∀ r ∈ out, Genuine .little r := by
  have hx : accepts (.daemon (.runTlsdate (some 200)) :: answering) =
      some [⟨1, 1400000100, stamp 1 0 newTimeBytes⟩] := by decide +kernel
  obtain ⟨d₀, m, hd, hx⟩ := accepts_exec hx
  obtain ⟨m₁, o, out', hs, hrest, hout⟩ := Machine.exec_cons hx
  have hfirst : Machine.Run (step fallbackBuild .little) Drained (system d₀)
      [.daemon (.runTlsdate (some 200))] m₁ o := .one (fun _ => rfl) hs
  have hr := hfirst.trans ((Machine.Run.of_exec hrest).restrict (D := Drained) ?_)
  · exact ⟨d₀, m, _, hd, hr, hout.symm, replies_genuine hd _ _ _ hr⟩
  · intro mv hm s
    simp only [answering, List.mem_cons, List.not_mem_nil, or_false] at hm
    rcases hm with rfl | rfl <;> trivial

/-- A child that writes more than its reply leaves the rest to the next one. -/
def stale : List Move :=
  [.daemon (.runTlsdate (some 200)), .write 200 ([0, 0, 0, 0] ++ newTimeBytes),
    .daemon (.tlsdateStatus (.word 0)), .daemon (.sigchld [.died 200 1]),
    .daemon (.runTlsdate (some 201)), .daemon (.tlsdateStatus (.word newTime))]

/-- The two halves of a time come from two children. -/
def mixed : List Move :=
  [.daemon (.runTlsdate (some 200)), .write 200 [0, 0, 0, 0, 0x64, 0x4E],
    .daemon (.tlsdateStatus (.word 0)), .daemon (.sigchld [.died 200 1]),
    .daemon (.runTlsdate (some 201)), .write 201 [0x72, 0x53],
    .daemon (.tlsdateStatus (.word newTime))]

/-- In a run with these moves a time is accepted that is no reply of the latest
child. -/
def Stale (ms : List Move) : Prop := ∃ d₀ m r, defaultStart = some d₀ ∧
  Machine.Run (step fallbackBuild .little) Machine.Free (system d₀) ms m [r] ∧ ¬ Genuine .little r

/-- What is left in the pipe is taken for the reply of the next child, or for a
part of it. -/
theorem replies_stale : Stale stale ∧ Stale mixed := by
  have hother : ∀ r : Reply, r.latest = 2 → (r.bytes.head?.map Sent.child) = some 1 →
      ¬ Genuine .little r := by
    rintro r hl hb ⟨position, bytes, hlen, hr, -⟩
    rw [hr, hl] at hb
    cases bytes with
    | nil => cases hlen
    | cons b bs => cases hb
  constructor
  · have hx : accepts stale = some [⟨2, 1400000100, stamp 1 4 newTimeBytes⟩] := by decide +kernel
    obtain ⟨d₀, m, hd, hx⟩ := accepts_exec hx
    exact ⟨d₀, m, _, hd, .of_exec hx, hother _ rfl rfl⟩
  · have hx : accepts mixed =
        some [⟨2, 1400000100, stamp 1 4 [0x64, 0x4E] ++ stamp 2 0 [0x72, 0x53]⟩] := by decide +kernel
    obtain ⟨d₀, m, hd, hx⟩ := accepts_exec hx
    exact ⟨d₀, m, _, hd, .of_exec hx, hother _ rfl rfl⟩

end Tlsdate.MonitorPipe
