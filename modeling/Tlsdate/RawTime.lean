import Tlsdate.MonitorPipe
import Tlsdate.SslSession

namespace Tlsdate.RawTime

open ByteStream HostBytes TimeSource EventLoop MonitorPipe SslSession
open HelperClock (Flags World serverTime warp)

section Helper

variable (build : Build) (order : ByteOrder) (flags : Flags) (world : World)

/-- `main` of the helper up to where it shows the time of the server. -/
def shownTime : Except String UInt32 := do
  let start ← (warp build flags world).2
  let serverTimeS ← world.child
  match world.stop with
  | none => .error "Failed to read current time of day"
  | some stop => do
      let _ ← serverTime start.toTimespec stop.toTimespec serverTimeS
      return serverTimeS

/-- What `fwrite` leaves on the standard output of a helper that is to show the raw time. -/
def rawOutput : List UInt8 :=
  match shownTime build flags world with
  | .ok t => encode order 4 t.toNat
  | .error _ => []

end Helper

/-- A child that runs the helper: how it was started, and what it meets. -/
structure Helper where
  {τ : Type}
  settings : Settings
  flags : Flags
  world : World
  session : Session τ
  input : τ → List UInt8
  delivers : Delivers session.io input

section Helpers

variable (build : Build) (order : ByteOrder) (userAgent : List UInt8)

def Helper.output (helper : Helper) : List UInt8 :=
  rawOutput build order helper.flags
    { helper.world with child := child build order userAgent helper.settings helper.session }

/-- `t` is the time that the peer of this helper told it, in an authentic session. -/
def Helper.Told (helper : Helper) (t : UInt32) : Prop :=
  Authentic build userAgent helper.settings helper.session helper.input t

/-- The children run these helpers, by their numbers, and each leaves its output
in one piece. -/
def Helpers (helper : Nat → Helper) (m : System) : Move → Prop
  | .write pid chunk => ∀ c, m.brood.children.find? (·.pid = pid) = some c →
      chunk = (helper c.number).output build order userAgent
  | .daemon _ => True

end Helpers

structure Letter where
  child : Nat
  time : UInt32

def Sent.tagged (sent : Sent) : Nat × UInt8 := (sent.child, sent.byte)

def Letter.tagged (order : ByteOrder) (letter : Letter) : List (Nat × UInt8) :=
  (encode order 4 letter.time.toNat).map (letter.child, ·)

def written (order : ByteOrder) (ms : List Move) : List UInt32 :=
  ms.flatMap fun mv =>
    match mv with
    | .write _ (b :: bs) => [word32 order (b :: bs)]
    | _ => []

variable {build : Build} {order : ByteOrder} {userAgent : List UInt8} {helper : Nat → Helper}

theorem shownTime_child {flags : Flags} {world : World} {t : UInt32}
    (h : shownTime build flags world = .ok t) : world.child = .ok t := by
  obtain ⟨start, -, h⟩ := CertCheck.bind_ok.mp h
  obtain ⟨t', hchild, h⟩ := CertCheck.bind_ok.mp h
  split at h
  · cases h
  · obtain ⟨time, -, h⟩ := CertCheck.bind_ok.mp h
    cases h
    exact hchild

theorem Helper.output_cases (h : Helper) : h.output build order userAgent = [] ∨
    ∃ t, h.Told build userAgent t ∧ h.output build order userAgent = encode order 4 t.toNat := by
  rw [Helper.output, rawOutput]
  split
  next t ht => exact Or.inr ⟨t, child_sound h.delivers (shownTime_child ht), rfl⟩
  next => exact Or.inl rfl

theorem word32_encode (t : UInt32) : word32 order (encode order 4 t.toNat) = t := by
  rw [word32, decode_encode order 4 t.toNat t.toNat_lt, UInt32.ofNat_toNat]

theorem written_snoc (ms : List Move) (mv : Move) :
    written order (ms ++ [mv]) = written order ms ++ written order [mv] :=
  List.flatMap_append

theorem written_encode (pid : Nat) (t : UInt32) :
    written order [.write pid (encode order 4 t.toNat)] = [t] := by
  have hlen : (encode order 4 t.toNat).length = 4 := encode_length order 4 t.toNat
  have hword : word32 order (encode order 4 t.toNat) = t := word32_encode t
  cases hbytes : encode order 4 t.toNat with
  | nil =>
      rw [hbytes] at hlen
      cases hlen
  | cons b bs =>
      rw [hbytes] at hword
      simp [written, hword]

theorem Letter.tagged_length (l : Letter) : (l.tagged order).length = 4 := by
  rw [Letter.tagged, List.length_map, encode_length]

theorem Letter.tagged_bytes (l : Letter) :
    (l.tagged order).map Prod.snd = encode order 4 l.time.toNat := by
  simp [Letter.tagged, Function.comp_def]

theorem stamp_tagged (child position : Nat) (bs : List UInt8) :
    (stamp child position bs).map Sent.tagged = bs.map (child, ·) := by
  induction bs generalizing position with
  | nil => rfl
  | cons b bs ih => simp [stamp, Sent.tagged, ih]

def Posted (order : ByteOrder) (pipe : List Sent) (pending : List Letter) : Prop :=
  pipe.map Sent.tagged = pending.flatMap (Letter.tagged order)

theorem Posted.empty {pipe : List Sent} (h : Posted order pipe []) : pipe = [] :=
  List.map_eq_nil_iff.mp h

theorem Posted.write {pipe : List Sent} {pending : List Letter} (h : Posted order pipe pending)
    (l : Letter) (position : Nat) :
    Posted order (pipe ++ stamp l.child position (encode order 4 l.time.toNat)) (pending ++ [l]) := by
  rw [Posted, List.map_append, stamp_tagged, List.flatMap_append, List.flatMap_singleton,
    ← Letter.tagged, h]

theorem Posted.read {pipe : List Sent} {l : Letter} {pending : List Letter}
    (h : Posted order pipe (l :: pending)) :
    fetch order pipe = (.word (BitVec.ofNat 32 l.time.toNat), pipe.drop 4) ∧
      (pipe.take 4).map Sent.tagged = l.tagged order ∧ Posted order (pipe.drop 4) pending := by
  have hall : pipe.map Sent.tagged = l.tagged order ++ pending.flatMap (Letter.tagged order) := h
  have htake : (pipe.take 4).map Sent.tagged = l.tagged order := by
    rw [List.map_take, hall, List.take_left' l.tagged_length]
  have hrest : Posted order (pipe.drop 4) pending := by
    rw [Posted, List.map_drop, hall, List.drop_left' l.tagged_length]
  have hbytes : (pipe.take 4).map Sent.byte = encode order 4 l.time.toNat := by
    rw [← l.tagged_bytes, ← htake, List.map_map]
    rfl
  have hlong : 4 ≤ pipe.length := by
    have hl := congrArg List.length hall
    rw [List.length_map, List.length_append, l.tagged_length] at hl
    omega
  refine ⟨?_, htake, hrest⟩
  have hne : pipe ≠ [] := by
    rintro rfl
    cases hlong
  rw [fetch, if_neg hne, if_neg (Nat.not_lt.mpr hlong), word, hbytes,
    decode_encode order 4 l.time.toNat l.time.toNat_lt]

theorem Posted.left {pipe : List Sent} {pending : List Letter} (h : Posted order pipe pending)
    (e : Event) :
    ∃ rest, Posted order (MonitorPipe.left order pipe e) rest ∧ ∀ l ∈ rest, l ∈ pending := by
  cases e with
  | tlsdateStatus status =>
      cases pending with
      | nil => exact ⟨[], by simp [MonitorPipe.left, fetch, h.empty, Posted], fun _ hl => hl⟩
      | cons l pending =>
          obtain ⟨hfetch, -, hrest⟩ := h.read
          exact ⟨pending, by simpa [MonitorPipe.left, hfetch] using hrest,
            fun _ => List.mem_cons_of_mem l⟩
  | _ => exact ⟨pending, h, fun _ hl => hl⟩

theorem Posted.word {pipe : List Sent} {pending : List Letter} (h : Posted order pipe pending)
    {w : BitVec 32} (hheard : heard order pipe (.tlsdateStatus (.word w)) = true) :
    ∃ l ∈ pending, w.toNat = l.time.toNat := by
  have hfetch : Attempts.MonitorRead.word w = (fetch order pipe).1 := of_decide_eq_true hheard
  cases pending with
  | nil =>
      rw [h.empty] at hfetch
      cases hfetch
  | cons l pending =>
      rw [h.read.1] at hfetch
      cases hfetch
      exact ⟨l, List.mem_cons_self, Nat.mod_eq_of_lt l.time.toNat_lt⟩

def Reply.tagged (r : Reply) : Nat × List (Nat × UInt8) := (r.time, r.bytes.map Sent.tagged)

theorem accepted_tagged {m : System} {l : Letter}
    (h : (m.pipe.take 4).map Sent.tagged = l.tagged order) :
    (accepted build m (.tlsdateStatus (.word (BitVec.ofNat 32 l.time.toNat)))).map Reply.tagged =
      ([l].filter fun l => isSaneTime build l.time.toNat).map
        fun l => (l.time.toNat, l.tagged order) := by
  have ht : (BitVec.ofNat 32 l.time.toNat).toNat = l.time.toNat := Nat.mod_eq_of_lt l.time.toNat_lt
  simp only [accepted, ht]
  split_ifs with hs <;> simp [hs, Reply.tagged, h]

/-- The bytes in the pipe are letters that were written and not yet read, what is
accepted are the sane ones among those that were read, and each holds the time
that its writer was told. -/
structure Relayed (build : Build) (order : ByteOrder) (userAgent : List UInt8)
    (helper : Nat → Helper) (ms : List Move) (m : System) (out : List Reply)
    (read pending : List Letter) : Prop where
  written_eq : written order ms = (read ++ pending).map Letter.time
  pipe : Posted order m.pipe pending
  accepted_eq : out.map Reply.tagged =
    (read.filter fun l => isSaneTime build l.time.toNat).map fun l => (l.time.toNat, l.tagged order)
  told : ∀ l ∈ read ++ pending, (helper l.child).Told build userAgent l.time

section Step

variable {ms : List Move} {m m' : System} {out o : List Reply} {read pending : List Letter}

theorem Relayed.write {pid : Nat} {chunk : List UInt8}
    (h : Relayed build order userAgent helper ms m out read pending)
    (hc : Helpers build order userAgent helper m (.write pid chunk))
    (hs : step build order m (.write pid chunk) = some (m', o)) :
    ∃ pending', Relayed build order userAgent helper (ms ++ [.write pid chunk]) m' (out ++ o)
      read pending' := by
  obtain ⟨c, hfind, he⟩ := Option.map_eq_some_iff.mp hs
  obtain ⟨rfl, rfl⟩ := Prod.mk.inj he
  rw [hc c hfind, List.append_nil]
  obtain hnone | ⟨t, ht, hchunk⟩ := (helper c.number).output_cases
  · refine ⟨pending, ?_, ?_, h.accepted_eq, h.told⟩
    · rw [written_snoc, h.written_eq, hnone]
      exact List.append_nil _
    · simpa [hnone, stamp] using h.pipe
  · refine ⟨pending ++ [⟨c.number, t⟩], ?_, ?_, h.accepted_eq, ?_⟩
    · rw [written_snoc, h.written_eq, hchunk, written_encode, ← List.append_assoc]
      simp
    · rw [hchunk]
      exact h.pipe.write ⟨c.number, t⟩ c.written
    · rw [← List.append_assoc]
      exact List.forall_mem_append.mpr ⟨h.told, List.forall_mem_singleton.mpr ht⟩

theorem Relayed.daemon {e : Event} (h : Relayed build order userAgent helper ms m out read pending)
    (hs : step build order m (.daemon e) = some (m', o)) :
    ∃ read' pending', Relayed build order userAgent helper (ms ++ [.daemon e]) m' (out ++ o)
      read' pending' := by
  have hsilent : written order (ms ++ [.daemon e]) = (read ++ pending).map Letter.time := by
    rw [written_snoc, h.written_eq]
    exact List.append_nil _
  simp only [MonitorPipe.step] at hs
  split at hs
  next hheard =>
    obtain ⟨⟨d', outputs⟩, -, he⟩ := Option.map_eq_some_iff.mp hs
    obtain ⟨rfl, rfl⟩ := Prod.mk.inj he
    cases e with
    | tlsdateStatus status =>
        obtain rfl := of_decide_eq_true hheard
        cases pending with
        | nil =>
            have hempty := h.pipe.empty
            refine ⟨read, [], hsilent, ?_, ?_, h.told⟩
            · simp [left, fetch, hempty, Posted]
            · simpa [fetch, hempty, accepted] using h.accepted_eq
        | cons l pending =>
            obtain ⟨hfetch, htake, hrest⟩ := h.pipe.read
            refine ⟨read ++ [l], pending, ?_, ?_, ?_, ?_⟩
            · rw [hsilent, List.append_assoc, List.singleton_append]
            · simpa [left, hfetch] using hrest
            · rw [hfetch, List.map_append, accepted_tagged htake, h.accepted_eq,
                List.filter_append, List.map_append]
            · rw [List.append_assoc, List.singleton_append]
              exact h.told
    | _ =>
        refine ⟨read, pending, hsilent, h.pipe, ?_, h.told⟩
        simpa [accepted] using h.accepted_eq
  next => cases hs

theorem Relayed.step {mv : Move} (h : Relayed build order userAgent helper ms m out read pending)
    (hc : Helpers build order userAgent helper m mv) (hs : step build order m mv = some (m', o)) :
    ∃ read' pending', Relayed build order userAgent helper (ms ++ [mv]) m' (out ++ o)
      read' pending' := by
  cases mv with
  | write pid chunk => exact ⟨read, h.write hc hs⟩
  | daemon e => exact h.daemon hs

end Step

theorem run_relayed {m₀ m : System} {ms : List Move} {out : List Reply} (h₀ : m₀.pipe = [])
    (hr : Machine.Run (step build order) (Helpers build order userAgent helper) m₀ ms m out) :
    ∃ read pending, Relayed build order userAgent helper ms m out read pending := by
  induction hr with
  | nil => exact ⟨[], [], rfl, by rw [h₀]; rfl, rfl, by simp⟩
  | snoc _ hc hs ih =>
      obtain ⟨read, pending, h⟩ := ih
      exact h.step hc hs

/-- The daemon accepts, in the order in which the helpers wrote them, just the
sane ones among the times that it has read; and the bytes of each were written by
one child, whose own peer told it that time. -/
theorem replies_relayed (d : Daemon) (ms : List Move) (m : System) (out : List Reply)
    (hr : Machine.Run (step build order) (Helpers build order userAgent helper) (system d) ms m out) :
    ∃ read pending, Relayed build order userAgent helper ms m out read pending ∧
      ∀ r ∈ out, ∃ l ∈ read, r.time = l.time.toNat ∧ r.bytes.map Sent.tagged = l.tagged order ∧
        (helper l.child).Told build userAgent l.time ∧ isSaneTime build l.time.toNat = true := by
  obtain ⟨read, pending, h⟩ := run_relayed rfl hr
  refine ⟨read, pending, h, fun r hmem => ?_⟩
  have htagged : Reply.tagged r ∈ out.map Reply.tagged := List.mem_map_of_mem hmem
  rw [h.accepted_eq] at htagged
  obtain ⟨l, hl, he⟩ := List.mem_map.mp htagged
  obtain ⟨htime, hbytes⟩ := Prod.mk.inj he
  obtain ⟨hread, hsane⟩ := List.mem_filter.mp hl
  exact ⟨l, hread, htime.symm, hbytes.symm, h.told l (List.mem_append_left _ hread), hsane⟩

def answerBytes : List UInt8 := [0x00, 0x4E, 0x72, 0x53]

def answering : List Move :=
  [.daemon (.runTlsdate (some 200)), .write 200 answerBytes,
    .daemon (.tlsdateStatus (.word 1400000000))]

def answeringHelper : Helper where
  settings := leaping
  flags := ⟨false, false⟩
  world := prompt
  session := answered
  input := Stream.input
  delivers := stream_delivers

theorem replies_relayed_answered : ∃ d₀ m, defaultStart = some d₀ ∧
    ∃ read pending, Relayed fallbackBuild .little [] (fun _ => answeringHelper) answering m
        [⟨1, 1400000000, stamp 1 0 answerBytes⟩] read pending ∧
      ∀ r ∈ [⟨1, 1400000000, stamp 1 0 answerBytes⟩], ∃ l ∈ read, Reply.time r = l.time.toNat ∧
        r.bytes.map Sent.tagged = l.tagged .little ∧ answeringHelper.Told fallbackBuild [] l.time ∧
          isSaneTime fallbackBuild l.time.toNat = true := by
  have hx : accepts answering = some [⟨1, 1400000000, stamp 1 0 answerBytes⟩] := by
    decide +kernel
  obtain ⟨d₀, m, hd, hx⟩ := accepts_exec hx
  have hr := (Machine.Run.of_exec hx).restrict
    (D := Helpers fallbackBuild .little [] fun _ => answeringHelper) ?_
  · exact ⟨d₀, m, hd, replies_relayed d₀ answering m _ hr⟩
  · intro mv hm sys
    simp only [answering, List.mem_cons, List.not_mem_nil, or_false] at hm
    obtain rfl | rfl | rfl := hm
    · trivial
    · have houtput : answeringHelper.output fallbackBuild .little [] = answerBytes := by decide +kernel
      exact fun _ _ => houtput.symm
    · trivial

end Tlsdate.RawTime
