import Tlsdate.TwoProcess

namespace Tlsdate.DiskProvenance

open HostBytes TimeSource Options TimestampFile DaemonState Kickoff EventLoop TimeLedger TimeSetter
  TwoProcess

/-- A time to be kept on disk was accepted from the network, or read at SIGTERM
from a clock on which the setter had already set a network time. -/
def Trusted (t : Int) (o : Origin) : Prop :=
  o = .network t ∨ ∃ synced, o = .clock t synced true

def persists (opts : Opts) : Bool := opts.shouldSaveDisk && !opts.dryRun

/-- While the time is from the network SIGTERM comes only after the setter has
set a network time, and no other reading of the clock is the negation of a sane
time, which its sign would pass off as one from the network. -/
def Honest (build : Build) (opts : Opts) (sys : System) : Move → Prop
  | .setter _ _ => True
  | .daemon e => persists opts = true →
      match entry build sys.daemon.state e with
      | .sigterm (some sec) =>
          if sys.daemon.state.lastSyncType = .net then once sys.clock = true
          else isSaneTime build (-sec) = false
      | .invalidate r | .badTime r => isSaneTime build (-r.now) = false
      | .jump r => jumped r (ledger sys.daemon.state) = true → isSaneTime build (-r.now) = false
      | _ => True

structure Provenance (build : Build) (opts : Opts) (sys : System) : Prop where
  file : ∀ status, sys.setter = .waiting status true → persists opts = true
  net : persists opts = true → sys.daemon.state.lastSyncType = .net →
    sys.daemon.state.lastTime = 0 ∨ Trusted sys.daemon.state.lastTime sys.origin
  other : persists opts = true → sys.daemon.state.lastSyncType ≠ .net →
    isSaneTime build (-sys.daemon.state.lastTime) = false
  sent : persists opts = true → ∀ msg ∈ sys.pipe, isSaneTime build msg.value = true →
    Trusted msg.value msg.origin

variable {build : Build} {opts : Opts} {sys sys' : System} {marks : List Mark}

theorem not_sane_zero : isSaneTime build 0 = false := by
  by_contra h
  exact absurd (isSaneTime_pos (Bool.eq_true_of_not_eq_false h)) (by decide)

theorem trusted_message {l : Ledger} {o : Origin}
    (hnet : l.lastSyncType = .net → l.lastTime = 0 ∨ Trusted l.lastTime o)
    (hother : l.lastSyncType ≠ .net → isSaneTime build (-l.lastTime) = false) {v : Int}
    (hv : v = encoded l ∨ v = 0) (hs : isSaneTime build v = true) : Trusted v o := by
  rcases hv with rfl | rfl
  · by_cases hn : l.lastSyncType = .net
    · have hcode : encoded l = l.lastTime := by simp [encoded, hn]
      rw [hcode] at hs ⊢
      rcases hnet hn with hz | ht
      · rw [hz, not_sane_zero] at hs
        cases hs
      · exact ht
    · rw [encoded, if_pos hn, hother hn] at hs
      cases hs
  · rw [not_sane_zero] at hs
    cases hs

theorem Provenance.daemon {e : Event} (h : Provenance build opts sys)
    (hc : Honest build opts sys (.daemon e))
    (hs : daemonStep build sys e = some (sys', marks)) : Provenance build opts sys' := by
  obtain ⟨d, out, notices, -, hd, -, rfl⟩ := daemonStep_some hs
  have hl := step_ledger hd
  have hmsg := step_messages hl
  cases ho : newOrigin sys.clock (ledger sys.daemon.state) (entry build sys.daemon.state e) with
  | none =>
      obtain ⟨htype, htime⟩ := step_keeps hl ho
      simp only [ledger] at htype htime
      refine ⟨h.file, fun hp hn => ?_, fun hp hn => ?_, fun hp msg hm hsane => ?_⟩
      · rcases htime with ht | ht
        · exact ht ▸ h.net hp (htype ▸ hn)
        · exact Or.inl ht
      · rcases htime with ht | ht
        · exact ht ▸ h.other hp (htype ▸ hn)
        · simp only [ht, neg_zero, not_sane_zero]
      · rcases List.mem_append.mp hm with hm | hm
        · exact h.sent hp msg hm hsane
        · obtain ⟨v, hv, rfl⟩ := List.mem_map.mp hm
          exact trusted_message (h.net hp) (h.other hp) (hmsg v hv) hsane
  | some o =>
      obtain ⟨hquiet, hcases⟩ := step_renews hl ho
      simp only [hquiet, List.map_nil, List.append_nil, Option.getD_some]
      simp only [ledger] at hcases
      refine ⟨h.file, fun hp hn => ?_, fun hp hn => ?_, h.sent⟩
      · have hcond := hc hp
        rcases hcases with ⟨t, -, rfl, -, ht⟩ | ⟨sec, hen, rfl, htype, ht⟩ | ⟨r, -, -, htype, -⟩ |
          ⟨t, r, -, -, htype, -⟩
        · exact Or.inr (Or.inl (by rw [ht]))
        · rw [hen] at hcond
          simp only [htype.symm.trans hn, if_true] at hcond
          exact Or.inr (Or.inr ⟨synced sys.clock, by rw [ht, hcond]⟩)
        · exact absurd (htype.symm.trans hn) (by decide)
        · exact absurd (htype.symm.trans hn) (by decide)
      · have hcond := hc hp
        rcases hcases with ⟨t, -, -, htype, -⟩ | ⟨sec, hen, -, htype, ht⟩ | ⟨r, hen, -, -, ht⟩ |
          ⟨t, r, hen, -, -, ht⟩
        · exact absurd htype hn
        · rw [hen] at hcond
          simp only [htype ▸ hn, if_false] at hcond
          simpa only [ht] using hcond
        · have hnow : isSaneTime build (-r.now) = false := by
            rcases hen with hen | hen | ⟨hen, hj⟩ <;> rw [hen] at hcond
            · exact hcond
            · exact hcond
            · exact hcond hj
          simpa only [ht] using hnow
        · simpa only [ht] using isSaneTime_neg (entry_setTime hen)

theorem Provenance.setter {read : TimeRead} {calls : SysCalls} (h : Provenance build opts sys)
    (hs : setterStep build opts sys read calls = some (sys', marks)) :
    Provenance build opts sys' ∧ ∀ t o, Mark.saved t o ∈ marks → Trusted t o := by
  obtain ⟨status, saveFd, origin, rest, hw, ht, rfl, rfl⟩ := setterStep_some hs
  obtain ⟨hrest, hmem⟩ := taken_mem ht
  obtain ⟨-, -, hfile, hfd⟩ := @loopBody_effects build opts calls status saveFd read
  refine ⟨⟨fun status' hw' => ?_, h.net, h.other, fun hp msg hm => h.sent hp msg (hrest msg hm)⟩, ?_⟩
  · obtain rfl := hfd _ _ hw'
    exact h.file status hw
  · intro t o hm
    obtain ⟨eff, heff, hmark⟩ := List.mem_filterMap.mp hm
    split at hmark <;> cases hmark
    obtain ⟨hread, hsane, rfl⟩ := hfile _ _ heff
    exact h.sent (h.file status hw) _ (hmem _ hread) hsane

theorem storedMarks_saved {s : State} {notices : List Notice} {e : Event} {t : Int} {o : Origin} :
    Mark.saved t o ∉ storedMarks s notices e := by
  intro h
  simp only [storedMarks] at h
  repeat' split at h
  · cases notices <;> simp at h
  all_goals cases h

theorem boot_provenance {order : ByteOrder} {platform : Bool} {setterPid : Nat} {now : Int}
    {file : File} {n : BitVec 32} {r : Readings} {d₀ : Daemon} (garbage : Int)
    (opened sandboxed : Bool)
    (h : startup build order opts platform setterPid now file n r = some d₀) :
    Provenance build opts (boot opts d₀ garbage opened sandboxed) := by
  obtain ⟨hn, hs, -⟩ := startup_ledger h
  refine ⟨fun status hw => ?_, fun _ hn' => absurd hn' hn, fun _ _ => isSaneTime_neg hs,
    fun _ msg hm => (by cases hm)⟩
  simp only [boot, start] at hw
  repeat' split at hw
  all_goals simp_all [notifyAndDie, persists]

/-- In an honest run everything that the setter saves is trusted. -/
theorem saved_trusted {order : ByteOrder} {platform : Bool} {setterPid : Nat} {now : Int}
    {file : File} {n : BitVec 32} {r : Readings} {d₀ : Daemon} {garbage : Int}
    {opened sandboxed : Bool} {moves : List Move}
    (h : startup build order opts platform setterPid now file n r = some d₀)
    (hr : Machine.Run (TwoProcess.step build opts) (Honest build opts)
      (boot opts d₀ garbage opened sandboxed) moves sys marks) :
    ∀ t o, Mark.saved t o ∈ marks → Trusted t o := by
  have hinv := hr.history (fun sys marks => Provenance build opts sys ∧
    ∀ t o, Mark.saved t o ∈ marks → Trusted t o)
    ⟨boot_provenance garbage opened sandboxed h, fun _ _ hm => by cases hm⟩ ?_
  · exact hinv.2
  · rintro s move s' o out ⟨hs, hout⟩ hc hstep
    cases move with
    | daemon e =>
        refine ⟨hs.daemon hc hstep, fun t o hm => ?_⟩
        obtain ⟨_, _, _, -, -, rfl, -⟩ := daemonStep_some hstep
        exact (List.mem_append.mp hm).elim (hout t o) (fun hm => absurd hm storedMarks_saved)
    | setter read calls =>
        obtain ⟨hs', hmarks⟩ := hs.setter hstep
        exact ⟨hs', fun t o hm => (List.mem_append.mp hm).elim (hout t o) (hmarks t o)⟩

def networkSet : List Move :=
  [.daemon (.runTlsdate (some 200)), .daemon (.tlsdateStatus (.word newTime)),
    .daemon (.save false .written .again), .setter (.whole 1400000100) allSucceed]

def shutDown : List Move :=
  [.daemon (.save false .written .again), .setter (.whole 1400000200) allSucceed]

theorem quiet_honest : ∀ move ∈ networkSet ++ shutDown, ∀ sys,
    Honest fallbackBuild (setConfDefaults fallbackBuild) sys move := by
  intro move hm sys
  simp only [networkSet, shutDown, List.cons_append, List.nil_append, List.mem_cons,
    List.not_mem_nil, or_false] at hm
  rcases hm with rfl | rfl | rfl | rfl | rfl | rfl
  · have hen : entry fallbackBuild sys.daemon.state (.runTlsdate (some 200)) = .listen ∨
        entry fallbackBuild sys.daemon.state (.runTlsdate (some 200)) = .idle := by
      simp only [entry]
      split <;> simp
    intro _
    rcases hen with hen | hen <;> rw [hen] <;> trivial
  · have hen : entry fallbackBuild sys.daemon.state (.tlsdateStatus (.word newTime)) =
        .accept 1400000100 := rfl
    intro _
    rw [hen]
    trivial
  · exact fun _ => trivial
  · trivial
  · exact fun _ => trivial
  · trivial

theorem saved_trusted_shutdown : ∃ d₀ moves sys marks, defaultStart = some d₀ ∧
    Machine.Run (TwoProcess.step fallbackBuild (setConfDefaults fallbackBuild))
      (Honest fallbackBuild (setConfDefaults fallbackBuild))
      (boot (setConfDefaults fallbackBuild) d₀ 0 true true) moves sys marks ∧
    Mark.saved 1400000200 (.clock 1400000200 true true) ∈ marks ∧
    ∀ t o, Mark.saved t o ∈ marks → Trusted t o := by
  have hrun : ∃ d₀ sys₁ out₁ sys₂ out₂ sys₃, defaultStart = some d₀ ∧
      Machine.exec (TwoProcess.step fallbackBuild (setConfDefaults fallbackBuild))
        (boot (setConfDefaults fallbackBuild) d₀ 0 true true) networkSet = some (sys₁, out₁) ∧
      sys₁.daemon.state.lastSyncType = .net ∧ once sys₁.clock = true ∧
      TwoProcess.step fallbackBuild (setConfDefaults fallbackBuild) sys₁
        (.daemon (.sigterm (some 1400000200))) = some (sys₂, out₂) ∧
      Machine.exec (TwoProcess.step fallbackBuild (setConfDefaults fallbackBuild)) sys₂ shutDown =
        some (sys₃, [.saved 1400000200 (.clock 1400000200 true true)]) :=
    ⟨_, _, _, _, _, _, rfl, rfl, rfl, rfl, rfl, rfl⟩
  obtain ⟨d₀, sys₁, out₁, sys₂, out₂, sys₃, h₀, hx, hn, ho, hs, hy⟩ := hrun
  have hterm : Honest fallbackBuild (setConfDefaults fallbackBuild) sys₁
      (.daemon (.sigterm (some 1400000200))) := by
    intro _
    simp only [entry, if_pos hn]
    exact ho
  have hr := (((Machine.Run.of_exec hx).restrict fun m hm =>
      quiet_honest m (List.mem_append_left _ hm)).snoc hterm hs).trans
    ((Machine.Run.of_exec hy).restrict fun m hm => quiet_honest m (List.mem_append_right _ hm))
  exact ⟨d₀, _, _, _, h₀, hr, by simp, saved_trusted h₀ hr⟩

/-- SIGTERM comes between the acceptance of a network time and its way to the
clock: the reading of a clock that was never set is saved in its place. -/
theorem saved_untrusted : ¬ ∀ d₀ moves sys marks, defaultStart = some d₀ →
    Machine.Run (TwoProcess.step fallbackBuild (setConfDefaults fallbackBuild)) Machine.Free
      (boot (setConfDefaults fallbackBuild) d₀ 0 true true) moves sys marks →
    ∀ t o, Mark.saved t o ∈ marks → Trusted t o := by
  intro h
  have hrun : ∃ d₀ sys marks, defaultStart = some d₀ ∧
      Machine.exec (TwoProcess.step fallbackBuild (setConfDefaults fallbackBuild))
        (boot (setConfDefaults fallbackBuild) d₀ 0 true true)
        [.daemon (.runTlsdate (some 200)), .daemon (.tlsdateStatus (.word newTime)),
          .daemon (.sigterm (some 1400000005)), .daemon (.save false .written .again),
          .setter (.whole 1400000005) allSucceed] = some (sys, marks) ∧
      marks = [.saved 1400000005 (.clock 1400000005 false false)] :=
    ⟨_, _, _, rfl, rfl, rfl⟩
  obtain ⟨d₀, sys, marks, h₀, hx, rfl⟩ := hrun
  rcases h d₀ _ sys _ h₀ (Machine.Run.of_exec hx) _ _ List.mem_cons_self with hw | ⟨_, hw⟩ <;>
    simp at hw

end Tlsdate.DiskProvenance
