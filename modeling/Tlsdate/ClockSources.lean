import Tlsdate.RawTime
import Tlsdate.SetterEffects
import Tlsdate.TwoProcess

namespace Tlsdate.ClockSources

open HostBytes TimeSource Options TimestampFile DaemonState EventLoop TimeLedger TimeSetter MonitorPipe
  RawTime

structure System extends TwoProcess.System where
  brood : Brood
  monitor : List Sent

def System.relay (sys : System) : MonitorPipe.System := ⟨sys.daemon, sys.brood, sys.monitor⟩

inductive Move
  | daemon (e : Event)
  | write (pid : Nat) (chunk : List UInt8)
  | setter (read : TimeRead) (calls : SysCalls)

/-- What a helper writes, with the number of the child that it is, and what the
setter sets the clock to. -/
inductive Mark
  | wrote (child : Nat) (chunk : List UInt8)
  | set (sec : Int)
  deriving DecidableEq

section Step

variable (build : Build) (order : ByteOrder) (opts : Opts)

/-- The times that an iteration of the setter gives to `settimeofday`. -/
def setTimes (setter : Coprocess) (read : TimeRead) (calls : SysCalls) : List Int :=
  match setter with
  | .waiting status saveFd => clockCalls (loopBody build opts calls status saveFd read).2
  | .exited => []

/-- Any interleaving of the three kinds of processes. -/
def step : Machine.Step System Move Mark := fun sys mv =>
  match mv with
  | .daemon e =>
      match MonitorPipe.step build order sys.relay (.daemon e),
        TwoProcess.step build opts sys.toSystem (.daemon e) with
      | some (m, _), some (two, _) => some (⟨two, m.brood, m.pipe⟩, [])
      | _, _ => none
  | .write pid chunk =>
      match sys.brood.children.find? (·.pid = pid),
        MonitorPipe.step build order sys.relay (.write pid chunk) with
      | some c, some (m, _) => some (⟨sys.toSystem, m.brood, m.pipe⟩, [.wrote c.number chunk])
      | _, _ => none
  | .setter read calls =>
      (TwoProcess.step build opts sys.toSystem (.setter read calls)).map fun r =>
        (⟨r.1, sys.brood, sys.monitor⟩, (setTimes build opts sys.setter read calls).map .set)

def boot (d : Daemon) (garbage : Int) (opened sandboxed : Bool) : System :=
  ⟨TwoProcess.boot opts d garbage opened sandboxed, ⟨0, []⟩, []⟩

def Helpers (userAgent : List UInt8) (helper : Nat → Helper) (sys : System) : Move → Prop
  | .write pid chunk => RawTime.Helpers build order userAgent helper sys.relay (.write pid chunk)
  | .daemon _ | .setter _ _ => True

end Step

def clockRead : Event → Option Int
  | .continuity r | .routeUp _ r | .invalidate r | .timeSet _ r | .service _ r | .bus _ r => some r.now
  | .sigterm now => now
  | _ => none

/-- Where a time to be set may come from: the start of the daemon, a reading of the clock
itself, a call of `SetTime`, and a helper that was told it by its own peer and wrote it to
the pipe. -/
inductive Sourced (build : Build) (order : ByteOrder) (userAgent : List UInt8)
    (helper : Nat → Helper) (begun : Int) (moves : List Move) (out : List Mark) (sec : Int) : Prop
  | start (h : sec = begun)
  | clock {e : Event} {now : Int} (hmove : .daemon e ∈ moves) (hread : clockRead e = some now)
      (h : sec = |now|)
  | called {r : Kickoff.Readings}
      (hmove : .daemon (.service (.setTime (some sec)) r) ∈ moves)
  | told {child : Nat} {t : UInt32} (hwrote : .wrote child (encode order 4 t.toNat) ∈ out)
      (htold : (helper child).Told build userAgent t) (h : sec = t.toNat)

variable {build : Build} {order : ByteOrder} {opts : Opts} {userAgent : List UInt8}
  {helper : Nat → Helper} {begun : Int} {sys sys' : System} {moves more : List Move}
  {out o : List Mark} {mv : Move}

theorem Sourced.mono {sec : Int}
    (h : Sourced build order userAgent helper begun moves out sec) :
    Sourced build order userAgent helper begun (moves ++ more) (out ++ o) sec := by
  cases h with
  | start h => exact .start h
  | clock hmove hread h => exact .clock (List.mem_append_left _ hmove) hread h
  | called hmove => exact .called (List.mem_append_left _ hmove)
  | told hwrote htold h => exact .told (List.mem_append_left _ hwrote) htold h

theorem daemon_some {e : Event} (h : step build order opts sys (.daemon e) = some (sys', o)) :
    o = [] ∧ (∃ replies, MonitorPipe.step build order sys.relay (.daemon e) = some (sys'.relay, replies)) ∧
      ∃ marks, TwoProcess.daemonStep build sys.toSystem e = some (sys'.toSystem, marks) := by
  simp only [step] at h
  split at h
  next m replies two marks hm htwo =>
    obtain ⟨rfl, rfl⟩ := Prod.mk.inj (Option.some.inj h)
    obtain ⟨d, outputs, notices, -, hd, -, rfl⟩ := TwoProcess.daemonStep_some htwo
    refine ⟨rfl, ⟨replies, ?_⟩, marks, htwo⟩
    rw [hm]
    simp only [MonitorPipe.step] at hm
    split at hm
    next =>
      obtain ⟨⟨d', outputs'⟩, hd', he⟩ := Option.map_eq_some_iff.mp hm
      obtain ⟨rfl, -⟩ := Prod.mk.inj (Option.some.inj (hd'.symm.trans hd))
      obtain ⟨rfl, rfl⟩ := Prod.mk.inj he
      rfl
    next => cases hm
  next => cases h

theorem write_some {pid : Nat} {chunk : List UInt8}
    (h : step build order opts sys (.write pid chunk) = some (sys', o)) :
    ∃ c, sys.brood.children.find? (·.pid = pid) = some c ∧ o = [.wrote c.number chunk] ∧
      sys'.toSystem = sys.toSystem ∧
      sys'.monitor = sys.monitor ++ stamp c.number c.written chunk := by
  simp only [step] at h
  split at h
  next c m replies hfind hm =>
    obtain ⟨rfl, rfl⟩ := Prod.mk.inj (Option.some.inj h)
    obtain ⟨ch, hch, he⟩ := Option.map_eq_some_iff.mp hm
    obtain rfl := Option.some.inj (hch.symm.trans hfind)
    obtain ⟨rfl, rfl⟩ := Prod.mk.inj he
    exact ⟨ch, hfind, rfl, rfl, rfl⟩
  next => cases h

theorem setter_some {read : TimeRead} {calls : SysCalls}
    (h : step build order opts sys (.setter read calls) = some (sys', o)) :
    o = (setTimes build opts sys.setter read calls).map .set ∧ sys'.monitor = sys.monitor ∧
      ∃ marks, TwoProcess.setterStep build opts sys.toSystem read calls = some (sys'.toSystem, marks) := by
  obtain ⟨⟨two, marks⟩, htwo, he⟩ := Option.map_eq_some_iff.mp h
  obtain ⟨rfl, rfl⟩ := Prod.mk.inj he
  exact ⟨rfl, rfl, marks, htwo⟩

/-- 0 stands for no time. -/
def Known (build : Build) (order : ByteOrder) (userAgent : List UInt8) (helper : Nat → Helper)
    (begun : Int) (moves : List Move) (out : List Mark) (t : Int) : Prop :=
  t = 0 ∨ Sourced build order userAgent helper begun moves out |t|

/-- The letter was written by its child, to which its peer told the time. -/
def Backed (build : Build) (order : ByteOrder) (userAgent : List UInt8) (helper : Nat → Helper)
    (out : List Mark) (l : Letter) : Prop :=
  .wrote l.child (encode order 4 l.time.toNat) ∈ out ∧ (helper l.child).Told build userAgent l.time

structure Traced (build : Build) (order : ByteOrder) (userAgent : List UInt8)
    (helper : Nat → Helper) (begun : Int) (moves : List Move) (out : List Mark) (sys : System) :
    Prop where
  time : Known build order userAgent helper begun moves out sys.daemon.state.lastTime
  sent : ∀ msg ∈ sys.pipe, Known build order userAgent helper begun moves out msg.value
  posted : ∃ pending, Posted order sys.monitor pending ∧
    ∀ l ∈ pending, Backed build order userAgent helper out l

theorem Known.mono {t : Int} (h : Known build order userAgent helper begun moves out t) :
    Known build order userAgent helper begun (moves ++ more) (out ++ o) t :=
  h.imp_right Sourced.mono

theorem Backed.mono {l : Letter} (h : Backed build order userAgent helper out l) :
    Backed build order userAgent helper (out ++ o) l :=
  ⟨List.mem_append_left _ h.1, h.2⟩

theorem Known.encoded {l : Ledger} {v : Int}
    (h : Known build order userAgent helper begun moves out l.lastTime)
    (hv : v = encoded l ∨ v = 0) : Known build order userAgent helper begun moves out v := by
  obtain rfl | rfl := hv
  · rw [TimeLedger.encoded]
    split_ifs
    · rw [Known, abs_neg, neg_eq_zero]
      exact h
    · exact h
  · exact Or.inl rfl

theorem entry_reads {s : State} {e : Event} {r : Kickoff.Readings}
    (h : entry build s e = .invalidate r ∨ entry build s e = .badTime r ∨
      entry build s e = .jump r) : clockRead e = some r.now := by
  simp only [entry] at h
  repeat' split at h
  all_goals simp_all [clockRead]

theorem entry_sigterm {s : State} {e : Event} {sec : Int}
    (h : entry build s e = .sigterm (some sec)) : clockRead e = some sec := by
  simp only [entry] at h
  repeat' split at h
  all_goals cases h
  rfl

theorem entry_called {s : State} {e : Event} {t : Int} {r : Kickoff.Readings}
    (h : entry build s e = .setTime t r) : e = .service (.setTime (some t)) r := by
  simp only [entry] at h
  repeat' split at h
  all_goals cases h
  rfl

theorem entry_read {s : State} {e : Event} {t : Int} (h : entry build s e = .accept t) :
    ∃ w : BitVec 32, e = .tlsdateStatus (.word w) ∧ t = w.toNat := by
  simp only [entry] at h
  repeat' split at h
  all_goals cases h
  exact ⟨_, rfl, rfl⟩

theorem setTimes_mem {setter : Coprocess} {read : TimeRead} {calls : SysCalls} {sec : Int}
    (h : sec ∈ setTimes build opts setter read calls) :
    ∃ m, read = .whole m ∧ sec = |m| ∧ isSaneTime build sec = true ∧ opts.dryRun = false := by
  rw [setTimes.eq_def] at h
  split at h
  next =>
    rw [SetterEffects.clockCalls_loopBody] at h
    split at h
    next m =>
      split_ifs at h with hs
      · obtain rfl := List.mem_singleton.mp h
        simp only [Bool.and_eq_true, Bool.not_eq_true'] at hs
        exact ⟨m, rfl, rfl, hs⟩
      · cases h
    next => cases h
  next => cases h

theorem Traced.mono (h : Traced build order userAgent helper begun moves out sys)
    (htime : sys'.daemon = sys.daemon) (hsent : ∀ msg ∈ sys'.pipe, msg ∈ sys.pipe)
    (hposted : sys'.monitor = sys.monitor) :
    Traced build order userAgent helper begun (moves ++ more) (out ++ o) sys' := by
  obtain ⟨pending, hpending, hbacked⟩ := h.posted
  exact ⟨htime ▸ h.time.mono, fun msg hmsg => (h.sent msg (hsent msg hmsg)).mono,
    pending, hposted ▸ hpending, fun l hl => (hbacked l hl).mono⟩

theorem Traced.write {pid : Nat} {chunk : List UInt8}
    (h : Traced build order userAgent helper begun moves out sys)
    (hc : Helpers build order userAgent helper sys (.write pid chunk))
    (hs : step build order opts sys (.write pid chunk) = some (sys', o)) :
    Traced build order userAgent helper begun (moves ++ [.write pid chunk]) (out ++ o) sys' := by
  obtain ⟨c, hfind, rfl, htwo, hmonitor⟩ := write_some hs
  obtain ⟨pending, hpending, hbacked⟩ := h.posted
  have hchunk : chunk = (helper c.number).output build order userAgent := hc c hfind
  refine ⟨htwo ▸ h.time.mono, fun msg hmsg => (h.sent msg (htwo ▸ hmsg)).mono, ?_⟩
  rw [hmonitor]
  obtain hnone | ⟨t, htold, htime⟩ :=
    @Helper.output_cases build order userAgent (helper c.number)
  · refine ⟨pending, ?_, fun l hl => (hbacked l hl).mono⟩
    rw [hchunk, hnone]
    exact (List.append_nil sys.monitor).symm ▸ hpending
  · rw [hchunk, htime]
    refine ⟨pending ++ [⟨c.number, t⟩], hpending.write ⟨c.number, t⟩ c.written, ?_⟩
    refine List.forall_mem_append.mpr ⟨fun l hl => (hbacked l hl).mono, ?_⟩
    exact List.forall_mem_singleton.mpr ⟨List.mem_concat_self, htold⟩

theorem Traced.daemon {e : Event} (h : Traced build order userAgent helper begun moves out sys)
    (hs : step build order opts sys (.daemon e) = some (sys', o)) :
    Traced build order userAgent helper begun (moves ++ [.daemon e]) (out ++ o) sys' := by
  obtain ⟨rfl, ⟨replies, hrelay⟩, marks, htwo⟩ := daemon_some hs
  obtain ⟨d, outputs, notices, -, hd, -, he⟩ := TwoProcess.daemonStep_some htwo
  have hmove : Move.daemon e ∈ moves ++ [.daemon e] := List.mem_concat_self
  have hl := step_ledger hd
  have hmsg := TwoProcess.step_messages hl
  have hdaemon : sys'.daemon = d := congrArg TwoProcess.System.daemon he
  have hpipe : sys'.pipe = sys.pipe ++ (messages outputs).map fun v => ⟨v, sys.origin⟩ :=
    congrArg TwoProcess.System.pipe he
  obtain ⟨pending, hpending, hbacked⟩ := h.posted
  have hheard : heard order sys.monitor e = true := by
    by_contra hnot
    rw [MonitorPipe.step, System.relay, if_neg hnot] at hrelay
    cases hrelay
  have hleft : sys'.monitor = left order sys.monitor e := by
    rw [MonitorPipe.step, System.relay, if_pos hheard] at hrelay
    obtain ⟨r, -, hr⟩ := Option.map_eq_some_iff.mp hrelay
    exact (congrArg MonitorPipe.System.pipe (Prod.mk.inj hr).1).symm
  refine ⟨?_, fun msg hm => ?_, ?_⟩
  · rw [hdaemon]
    cases ho : TwoProcess.newOrigin sys.clock (ledger sys.daemon.state)
        (entry build sys.daemon.state e) with
    | none =>
        obtain ⟨-, ht | ht⟩ := TwoProcess.step_keeps hl ho
        · exact Eq.mpr (congrArg _ ht) h.time.mono
        · exact Or.inl ht
    | some origin =>
        have htime (t : Int) (ht : (ledger d.state).lastTime = t)
            (hsource : Sourced build order userAgent helper begun (moves ++ [.daemon e])
              (out ++ []) |t|) :
            Known build order userAgent helper begun (moves ++ [.daemon e]) (out ++ [])
              d.state.lastTime := by
          rw [← ht] at hsource
          exact Or.inr hsource
        obtain ⟨-, ⟨t, hen, -, -, ht⟩ | ⟨sec, hen, -, -, ht⟩ | ⟨r, hen, -, -, ht⟩ |
          ⟨t, r, hen, -, -, ht⟩⟩ := TwoProcess.step_renews hl ho
        · obtain ⟨w, rfl, rfl⟩ := entry_read hen
          obtain ⟨l, hmem, hw⟩ := hpending.word hheard
          have hsource : Sourced build order userAgent helper begun moves out |(w.toNat : Int)| := by
            rw [hw, abs_of_nonneg (Int.natCast_nonneg _)]
            exact .told (hbacked l hmem).1 (hbacked l hmem).2 rfl
          exact htime _ ht hsource.mono
        · exact htime sec ht (.clock hmove (entry_sigterm hen) rfl)
        · have hreads := entry_reads (hen.imp_right (Or.imp_right And.left))
          exact htime r.now ht (.clock hmove hreads rfl)
        · obtain rfl := entry_called hen
          have hpos : |t| = t := abs_of_pos (isSaneTime_pos (entry_setTime hen))
          exact htime t ht (hpos.symm ▸ .called hmove)
  · rw [hpipe] at hm
    obtain hm | hm := List.mem_append.mp hm
    · exact (h.sent msg hm).mono
    · obtain ⟨v, hv, rfl⟩ := List.mem_map.mp hm
      exact Known.encoded h.time.mono (hmsg v hv)
  · obtain ⟨rest, hrest, hsub⟩ := hpending.left e
    exact ⟨rest, hleft ▸ hrest, fun l hl => (hbacked l (hsub l hl)).mono⟩

theorem Traced.setter {read : TimeRead} {calls : SysCalls}
    (h : Traced build order userAgent helper begun moves out sys)
    (hs : step build order opts sys (.setter read calls) = some (sys', o)) :
    Traced build order userAgent helper begun (moves ++ [.setter read calls]) (out ++ o) sys' ∧
      (∀ sec, .set sec ∈ o → isSaneTime build sec = true ∧ opts.dryRun = false ∧
        Sourced build order userAgent helper begun (moves ++ [.setter read calls]) (out ++ o) sec) := by
  obtain ⟨rfl, hmonitor, marks, htwo⟩ := setter_some hs
  obtain ⟨status, saveFd, origin, rest, hwait, htaken, -, he⟩ := TwoProcess.setterStep_some htwo
  obtain ⟨hrest, hmem⟩ := TwoProcess.taken_mem htaken
  have hpipe : sys'.pipe = rest := congrArg TwoProcess.System.pipe he
  have hdaemon : sys'.daemon = sys.daemon := by
    rw [he]
  refine ⟨h.mono hdaemon (hpipe ▸ hrest) hmonitor, fun sec hset => ?_⟩
  obtain ⟨_, hset, he⟩ := List.mem_map.mp hset
  cases he
  obtain ⟨m, rfl, rfl, hsane, hdry⟩ := setTimes_mem hset
  obtain hzero | hsource := h.sent _ (hmem m rfl)
  · have hpos := abs_pos.mp (isSaneTime_pos hsane)
    exact absurd hzero hpos
  · exact ⟨hsane, hdry, hsource.mono⟩

/-- In every run of the daemon with its setter and its helpers, whatever is called over the
bus and however the processes take turns, the clock is set to sane times only, each from one
of its sources. -/
theorem clock_sourced {platform : Bool} {setterPid : Nat} {now : Int} {file : File} {n : BitVec 32}
    {r : Kickoff.Readings} {d₀ : Daemon} {garbage : Int} {opened sandboxed : Bool}
    (h : startup build order opts platform setterPid now file n r = some d₀)
    (hr : Machine.Run (step build order opts) (Helpers build order userAgent helper)
      (boot opts d₀ garbage opened sandboxed) moves sys out) :
    ∀ sec, .set sec ∈ out → isSaneTime build sec = true ∧ opts.dryRun = false ∧
      Sourced build order userAgent helper d₀.state.lastTime moves out sec := by
  have hsane : isSaneTime build d₀.state.lastTime = true := (startup_ledger h).2.1
  suffices hinv : Traced build order userAgent helper d₀.state.lastTime moves out sys ∧
      ∀ sec, .set sec ∈ out → isSaneTime build sec = true ∧ opts.dryRun = false ∧
        Sourced build order userAgent helper d₀.state.lastTime moves out sec from hinv.2
  induction hr with
  | nil =>
      refine ⟨⟨Or.inr (.start (abs_of_pos (isSaneTime_pos hsane))), fun msg hm => ?_,
        [], rfl, fun l hl => ?_⟩, fun sec hsec => ?_⟩
      · cases hm
      · cases hl
      · cases hsec
  | @snoc moves sys out mv sys' o hrun hc hs ih =>
      obtain ⟨htraced, hout⟩ := ih
      have hkept (o : List Mark) (sec : Int) (hsec : .set sec ∈ out) : isSaneTime build sec = true ∧
          opts.dryRun = false ∧
          Sourced build order userAgent helper d₀.state.lastTime (moves ++ [mv]) (out ++ o) sec :=
        (hout sec hsec).imp_right (And.imp_right Sourced.mono)
      cases mv with
      | daemon e =>
          refine ⟨htraced.daemon hs, fun sec hsec => hkept o sec ?_⟩
          rwa [(daemon_some hs).1, List.append_nil] at hsec
      | write pid chunk =>
          refine ⟨htraced.write hc hs, fun sec hsec => hkept o sec ?_⟩
          obtain ⟨c, -, rfl, -⟩ := write_some hs
          simpa using hsec
      | setter read calls =>
          obtain ⟨htraced, hset⟩ := htraced.setter hs
          exact ⟨htraced, fun sec hsec => (List.mem_append.mp hsec).elim (hkept o sec) (hset sec)⟩

def sets (ms : List Move) : Option (List Mark) :=
  defaultStart.bind fun d =>
    (Machine.exec (step fallbackBuild .little (setConfDefaults fallbackBuild))
      (boot (setConfDefaults fallbackBuild) d 0 true true) ms).map (·.2)

def relaying : List Move :=
  [.daemon (.runTlsdate (some 200)), .write 200 answerBytes,
    .daemon (.tlsdateStatus (.word 1400000000)), .daemon (.save false .written .written),
    .setter (.whole 1400000000) allSucceed]

theorem clock_sourced_relaying : ∃ d₀, defaultStart = some d₀ ∧
    ∀ sec, .set sec ∈ [Mark.wrote 1 answerBytes, .set 1400000000] →
      isSaneTime fallbackBuild sec = true ∧ (setConfDefaults fallbackBuild).dryRun = false ∧
      Sourced fallbackBuild .little [] (fun _ => answeringHelper) d₀.state.lastTime relaying
        [.wrote 1 answerBytes, .set 1400000000] sec := by
  have hx : sets relaying = some [.wrote 1 answerBytes, .set 1400000000] := by decide +kernel
  obtain ⟨d₀, hd, hx⟩ := Option.bind_eq_some_iff.mp hx
  obtain ⟨⟨sys, out⟩, hx, he⟩ := Option.map_eq_some_iff.mp hx
  obtain rfl : out = [.wrote 1 answerBytes, .set 1400000000] := he
  refine ⟨d₀, hd, clock_sourced hd ((Machine.Run.of_exec hx).restrict
    (D := Helpers fallbackBuild .little [] fun _ => answeringHelper) ?_)⟩
  intro mv hm sys
  simp only [relaying, List.mem_cons, List.not_mem_nil, or_false] at hm
  obtain rfl | rfl | rfl | rfl | rfl := hm
  · trivial
  · have houtput : answeringHelper.output fallbackBuild .little [] = answerBytes := by decide +kernel
    exact fun _ _ => houtput.symm
  · trivial
  · trivial
  · trivial

end Tlsdate.ClockSources
