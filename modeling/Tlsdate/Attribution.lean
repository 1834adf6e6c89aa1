import Tlsdate.TwoProcess

namespace Tlsdate.Attribution

open HostBytes TimeSource Options TimestampFile DaemonState Kickoff EventLoop TimeLedger TimeSetter
  TwoProcess

/-- The last time applied before the status word was sent derives from the
network; with `dry_run` no time is ever applied. -/
def Witnessed (opts : Opts) (n : Notice) : Prop :=
  synced n.clock = true ∨ (opts.dryRun = true ∧ n.clock = [])

/-- A time is accepted only when what is still unanswered was accepted as well
and no unread SETTER_TIME_SET is about another time; and while the time is from
the network, SIGTERM reads a clock that was last set from there. -/
def Attributable (build : Build) (opts : Opts) (sys : System) : Move → Prop
  | .setter _ _ => True
  | .daemon e => opts.dryRun = false →
      match entry build sys.daemon.state e with
      | .accept _ => (∀ msg ∈ sys.pipe, msg.origin.isNetwork = true ∨ msg.value = 0) ∧
          ∀ n ∈ sys.notices, n.word = setterTimeSet → synced n.clock = true
      | .sigterm (some _) => sys.daemon.state.lastSyncType = .net → synced sys.clock = true
      | _ => True

def Derives (clock : List Origin) (o : Origin) : Prop :=
  o.isNetwork = true ∨ (o.derived = true ∧ synced clock = true)

structure Attributed (build : Build) (opts : Opts) (sys : System) : Prop where
  dry : opts.dryRun = true → sys.clock = [] ∧ ∀ n ∈ sys.notices, n.clock = []
  own : sys.origin.isNetwork = true →
    isSaneTime build sys.daemon.state.lastTime = true ∨ sys.daemon.state.lastTime = 0
  sent : ∀ msg ∈ sys.pipe, msg.origin.isNetwork = true →
    isSaneTime build |msg.value| = true ∨ msg.value = 0
  net : opts.dryRun = false → sys.daemon.state.lastSyncType = .net →
    Derives sys.clock sys.origin ∧ (∀ msg ∈ sys.pipe, msg.value = 0 ∨ Derives sys.clock msg.origin) ∧
      ∀ n ∈ sys.notices, n.word = setterTimeSet → synced n.clock = true

variable {build : Build} {opts : Opts} {sys sys' : System} {marks : List Mark}

theorem Derives.derived {clock : List Origin} {o : Origin} (h : Derives clock o) :
    o.derived = true := by
  rcases h with h | h
  · cases o with
    | network t => rfl
    | clock _ _ _ | other => cases h
  · exact h.1

theorem Derives.mono {clock clock' : List Origin} {o : Origin} (h : Derives clock o)
    (hc : synced clock = true → synced clock' = true) : Derives clock' o :=
  h.imp id fun hd => ⟨hd.1, hc hd.2⟩

theorem sane_message {l : Ledger} (h : isSaneTime build l.lastTime = true ∨ l.lastTime = 0) {v : Int}
    (hv : v = encoded l ∨ v = 0) : isSaneTime build |v| = true ∨ v = 0 := by
  rcases hv with rfl | rfl
  · have habs : |encoded l| = |l.lastTime| := by
      simp only [encoded]
      split
      · exact abs_neg _
      · rfl
    rcases h with h | h
    · exact Or.inl (by rw [habs, abs_of_pos (isSaneTime_pos h)]; exact h)
    · exact Or.inr (abs_eq_zero.mp (by rw [habs, h, abs_zero]))
  · exact Or.inr rfl

theorem Attributed.daemon {e : Event} (h : Attributed build opts sys)
    (hc : Attributable build opts sys (.daemon e))
    (hs : daemonStep build sys e = some (sys', marks)) : Attributed build opts sys' := by
  obtain ⟨d, out, notices, hu, hd, -, rfl⟩ := daemonStep_some hs
  have hl := step_ledger hd
  have hsub := unread_mem hu
  have hmsg := step_messages hl
  cases ho : newOrigin sys.clock (ledger sys.daemon.state) (entry build sys.daemon.state e) with
  | none =>
      obtain ⟨htype, htime⟩ := step_keeps hl ho
      simp only [ledger] at htype htime
      refine ⟨fun hdry => ⟨(h.dry hdry).1, fun n hn => (h.dry hdry).2 n (hsub n hn)⟩, ?_, ?_, ?_⟩
      · intro hn
        rcases htime with ht | ht
        · exact ht ▸ h.own hn
        · exact Or.inr ht
      · intro msg hm hn
        rcases List.mem_append.mp hm with hm | hm
        · exact h.sent msg hm hn
        · obtain ⟨v, hv, rfl⟩ := List.mem_map.mp hm
          exact sane_message (h.own hn) (hmsg v hv)
      · intro hdry hnet
        obtain ⟨hown, hsent, hread⟩ := h.net hdry (htype.symm.trans hnet)
        refine ⟨hown, fun msg hm => ?_, fun n hn => hread n (hsub n hn)⟩
        rcases List.mem_append.mp hm with hm | hm
        · exact hsent msg hm
        · obtain ⟨v, -, rfl⟩ := List.mem_map.mp hm
          exact Or.inr hown
  | some o =>
      obtain ⟨hquiet, hcases⟩ := step_renews hl ho
      simp only [hquiet, List.map_nil, List.append_nil, Option.getD_some]
      refine ⟨fun hdry => ⟨(h.dry hdry).1, fun n hn => (h.dry hdry).2 n (hsub n hn)⟩, ?_, h.sent, ?_⟩
      · intro hn
        rcases hcases with ⟨t, hen, rfl, -, ht⟩ | ⟨sec, -, rfl, -⟩ | ⟨r, -, rfl, -⟩ | ⟨t, r, -, rfl, -⟩
        · have htime : d.state.lastTime = t := ht
          apply Or.inl
          rw [htime]
          exact entry_accept hen
        all_goals cases hn
      · intro hdry hnet
        have hcond := hc hdry
        rcases hcases with ⟨t, hen, rfl, -, -⟩ | ⟨sec, hen, rfl, htype, -⟩ | ⟨r, -, rfl, htype, -⟩ |
          ⟨t, r, -, rfl, htype, -⟩
        · rw [hen] at hcond
          refine ⟨Or.inl rfl, fun msg hm => ?_, fun n hn => hcond.2 n (hsub n hn)⟩
          exact (hcond.1 msg hm).symm.imp id Or.inl
        · rw [hen] at hcond
          have hnet' : sys.daemon.state.lastSyncType = .net := htype.symm.trans hnet
          obtain ⟨-, hsent, hread⟩ := h.net hdry hnet'
          exact ⟨Or.inr ⟨hcond hnet', hcond hnet'⟩, hsent, fun n hn => hread n (hsub n hn)⟩
        · exact absurd (htype.symm.trans hnet) (by decide)
        · exact absurd (htype.symm.trans hnet) (by decide)

theorem Attributed.setter {read : TimeRead} {calls : SysCalls} (h : Attributed build opts sys)
    (hs : setterStep build opts sys read calls = some (sys', marks)) :
    Attributed build opts sys' := by
  obtain ⟨status, saveFd, origin, rest, -, ht, -, rfl⟩ := setterStep_some hs
  obtain ⟨hrest, hmem⟩ := taken_mem ht
  obtain ⟨happly, hreply, -, -⟩ := @loopBody_effects build opts calls status saveFd read
  refine ⟨fun hdry => ?_, h.own, fun msg hm => h.sent msg (hrest msg hm), fun hdry hnet => ?_⟩
  · have hnone : clockAfter sys.clock origin (loopBody build opts calls status saveFd read).2 =
        sys.clock := by
      rw [clockAfter]
      split
      next ha =>
        rw [(happly ha).1] at hdry
        cases hdry
      next => rfl
    rw [hnone]
    refine ⟨(h.dry hdry).1, fun n hn => ?_⟩
    rcases List.mem_append.mp hn with hn | hn
    · exact (h.dry hdry).2 n hn
    · obtain ⟨w, -, rfl⟩ := List.mem_map.mp hn
      exact (h.dry hdry).1
  · obtain ⟨hown, hsent, hread⟩ := h.net hdry hnet
    have hder : applied (loopBody build opts calls status saveFd read).2 = true →
        origin.derived = true := by
      intro ha
      obtain ⟨-, m, hm, hsane⟩ := happly ha
      rcases hsent _ (hmem m hm) with hz | hd
      · have hpos := isSaneTime_pos hsane
        simp only at hz
        simp [hz] at hpos
      · exact hd.derived
    have hclock : synced sys.clock = true ∨
        applied (loopBody build opts calls status saveFd read).2 = true →
        synced (clockAfter sys.clock origin (loopBody build opts calls status saveFd read).2) = true := by
      intro hor
      rw [clockAfter]
      split
      next ha => simpa [synced] using hder ha
      next ha => exact hor.resolve_right ha
    have hmono := fun hsync => hclock (Or.inl hsync)
    refine ⟨hown.mono hmono, fun msg hm => (hsent msg (hrest msg hm)).imp id (·.mono hmono), ?_⟩
    intro n hn hw
    rcases List.mem_append.mp hn with hn | hn
    · exact hread n hn hw
    · obtain ⟨w, hw', rfl⟩ := List.mem_map.mp hn
      rcases hreply (hw ▸ hw') with ha | hd | ⟨m, hm, hz, hinsane⟩
      · exact hclock (Or.inr ha)
      · rw [hdry] at hd
        cases hd
      · -- a refused time is no accepted one, so it was read from a synced clock
        have hmsg := hmem m hm
        rcases hsent _ hmsg with hz' | hnetwork | ⟨-, hsync⟩
        · exact absurd hz' hz
        · rcases h.sent _ hmsg hnetwork with hs' | hz'
          · rw [hs'] at hinsane
            cases hinsane
          · exact absurd hz' hz
        · exact hmono hsync

theorem Attributed.stored {e : Event} {n : Notice} (h : Attributed build opts sys)
    (hs : daemonStep build sys e = some (sys', marks)) (hn : Mark.stored n ∈ marks) :
    Witnessed opts n := by
  obtain ⟨d, out, notices, hu, -, rfl, -⟩ := daemonStep_some hs
  obtain ⟨hmem, hw, hnet⟩ := mem_storedMarks hu hn
  cases hdry : opts.dryRun with
  | true => exact Or.inr ⟨hdry, (h.dry hdry).2 n hmem⟩
  | false => exact Or.inl ((h.net hdry hnet).2.2 n hmem hw)

theorem savedMarks_saved {origin : Origin} {es : List Effect} {n : Notice} :
    Mark.stored n ∉ savedMarks origin es := by
  intro h
  obtain ⟨e, -, he⟩ := List.mem_filterMap.mp h
  split at he <;> cases he

/-- In an attributable run the daemon stores a clock delta only for a clock that
was last set from the network. -/
theorem deltas_witnessed {order : ByteOrder} {platform : Bool} {setterPid : Nat} {now : Int}
    {file : File} {n : BitVec 32} {r : Readings} {d₀ : Daemon} {garbage : Int}
    {opened sandboxed : Bool} {moves : List Move}
    (h : startup build order opts platform setterPid now file n r = some d₀)
    (hr : Machine.Run (TwoProcess.step build opts) (Attributable build opts)
      (boot opts d₀ garbage opened sandboxed) moves sys marks) :
    ∀ notice, Mark.stored notice ∈ marks → Witnessed opts notice := by
  have hstart : Attributed build opts (boot opts d₀ garbage opened sandboxed) := by
    refine ⟨fun _ => ⟨rfl, fun notice hn => ?_⟩, fun ho => (by cases ho), fun msg hm => (by cases hm),
      fun _ hnet => absurd hnet (startup_ledger h).1⟩
    obtain ⟨w, -, rfl⟩ := List.mem_map.mp hn
    rfl
  have hinv := hr.history (fun sys marks => Attributed build opts sys ∧
    ∀ notice, Mark.stored notice ∈ marks → Witnessed opts notice) ⟨hstart, fun _ hn => by cases hn⟩ ?_
  · exact hinv.2
  · rintro s move s' o out ⟨hs, hout⟩ hc hstep
    cases move with
    | daemon e =>
        refine ⟨hs.daemon hc hstep, fun notice hn => ?_⟩
        exact (List.mem_append.mp hn).elim (hout notice) (hs.stored hstep)
    | setter read calls =>
        refine ⟨hs.setter hstep, fun notice hn => ?_⟩
        obtain ⟨_, _, origin, _, -, -, rfl, -⟩ := setterStep_some hstep
        exact (List.mem_append.mp hn).elim (hout notice) (fun hm => absurd hm savedMarks_saved)

def settledStart : List Move :=
  [.daemon (.save false .written .again), .setter (.whole (-1400000000)) allSucceed,
    .daemon (.timeSet (.status setterTimeSet) uptime70), .daemon (.runTlsdate (some 200))]

def networkSet : List Move :=
  [.daemon (.save false .written .again), .setter (.whole 1400000100) allSucceed,
    .daemon (.timeSet (.status setterTimeSet) uptime70)]

theorem harmless_attributable (build : Build) (opts : Opts) :
    ∀ move ∈ settledStart ++ networkSet, ∀ sys, Attributable build opts sys move := by
  intro move hm sys
  simp only [settledStart, networkSet, List.cons_append, List.nil_append, List.mem_cons,
    List.not_mem_nil, or_false] at hm
  rcases hm with rfl | rfl | rfl | rfl | rfl | rfl | rfl
  · exact fun _ => trivial
  · trivial
  · exact fun _ => trivial
  · have hen : entry build sys.daemon.state (.runTlsdate (some 200)) = .listen ∨
        entry build sys.daemon.state (.runTlsdate (some 200)) = .idle := by
      simp only [entry]
      split <;> simp
    intro _
    rcases hen with hen | hen <;> rw [hen] <;> trivial
  · exact fun _ => trivial
  · trivial
  · exact fun _ => trivial

theorem deltas_witnessed_network : ∃ d₀ moves sys marks, defaultStart = some d₀ ∧
    Machine.Run (TwoProcess.step fallbackBuild (setConfDefaults fallbackBuild))
      (Attributable fallbackBuild (setConfDefaults fallbackBuild))
      (boot (setConfDefaults fallbackBuild) d₀ 0 true true) moves sys marks ∧
    Mark.stored ⟨setterTimeSet, [.network 1400000100, .other]⟩ ∈ marks ∧
    ∀ notice, Mark.stored notice ∈ marks → Witnessed (setConfDefaults fallbackBuild) notice := by
  have hrun : ∃ d₀ sys₁ out₁ sys₂ out₂ sys₃ out₃, defaultStart = some d₀ ∧
      Machine.exec (TwoProcess.step fallbackBuild (setConfDefaults fallbackBuild))
        (boot (setConfDefaults fallbackBuild) d₀ 0 true true) settledStart = some (sys₁, out₁) ∧
      sys₁.pipe = [] ∧ sys₁.notices = [] ∧
      TwoProcess.step fallbackBuild (setConfDefaults fallbackBuild) sys₁
        (.daemon (.tlsdateStatus (.word newTime))) = some (sys₂, out₂) ∧
      Machine.exec (TwoProcess.step fallbackBuild (setConfDefaults fallbackBuild)) sys₂ networkSet =
        some (sys₃, out₃) ∧
      out₃ = [.saved 1400000100 (.network 1400000100),
        .stored ⟨setterTimeSet, [.network 1400000100, .other]⟩] :=
    ⟨_, _, _, _, _, _, _, rfl, rfl, rfl, rfl, rfl, rfl, rfl⟩
  obtain ⟨d₀, sys₁, out₁, sys₂, out₂, sys₃, out₃, h₀, hx, hp, hn, hs, hy, rfl⟩ := hrun
  have haccept : Attributable fallbackBuild (setConfDefaults fallbackBuild) sys₁
      (.daemon (.tlsdateStatus (.word newTime))) := by
    intro _
    have hen : entry fallbackBuild sys₁.daemon.state (.tlsdateStatus (.word newTime)) =
        .accept 1400000100 := rfl
    rw [hen, hp, hn]
    exact ⟨fun _ hm => (by cases hm), fun _ hm => (by cases hm)⟩
  have hr := (((Machine.Run.of_exec hx).restrict fun m hm => harmless_attributable fallbackBuild
    (setConfDefaults fallbackBuild) m (List.mem_append_left _ hm)).snoc haccept hs).trans
    ((Machine.Run.of_exec hy).restrict fun m hm => harmless_attributable fallbackBuild
      (setConfDefaults fallbackBuild) m (List.mem_append_right _ hm))
  exact ⟨d₀, _, _, _, h₀, hr, by simp, deltas_witnessed h₀ hr⟩

/-- The acknowledgement of the initial time is handled after a network time has
been accepted, and taken for that of the network time. -/
theorem delta_unwitnessed : ¬ ∀ d₀ moves sys marks, defaultStart = some d₀ →
    Machine.Run (TwoProcess.step fallbackBuild (setConfDefaults fallbackBuild)) Machine.Free
      (boot (setConfDefaults fallbackBuild) d₀ 0 true true) moves sys marks →
    ∀ notice, Mark.stored notice ∈ marks → Witnessed (setConfDefaults fallbackBuild) notice := by
  intro h
  have hrun : ∃ d₀ sys marks, defaultStart = some d₀ ∧
      Machine.exec (TwoProcess.step fallbackBuild (setConfDefaults fallbackBuild))
        (boot (setConfDefaults fallbackBuild) d₀ 0 true true)
        [.daemon (.save false .written .again), .daemon (.runTlsdate (some 200)),
          .daemon (.tlsdateStatus (.word newTime)), .setter (.whole (-1400000000)) allSucceed,
          .daemon (.timeSet (.status setterTimeSet) uptime70)] = some (sys, marks) ∧
      marks = [Mark.stored ⟨setterTimeSet, [.other]⟩] :=
    ⟨_, _, _, rfl, rfl, rfl⟩
  obtain ⟨d₀, sys, marks, h₀, hx, rfl⟩ := hrun
  have hw := h d₀ _ sys _ h₀ (Machine.Run.of_exec hx) _ List.mem_cons_self
  revert hw
  rw [Witnessed]
  decide

end Tlsdate.Attribution
