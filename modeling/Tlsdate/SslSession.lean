import Tlsdate.CertCheck
import Tlsdate.DateReader
import Tlsdate.HelperClock
import Tlsdate.HostBytes
import Tlsdate.ProxyGrammar
import Tlsdate.ProxySetup

namespace Tlsdate.SslSession

open ByteStream BoundedBuffer CertCheck DateReader HostBytes
open HelperClock (maxReasonableTime)
open PacProxy (text)
open ProxyBio (CString ascii)
open ProxyGrammar (IsUri parseProxyUri_iff)
open ProxySetup (Setup setupProxy)
open TimeSource (Build)

section Request

variable {τ : Type} (T : Transport τ)

/-- `write_all_to_bio`, and the BIO after it. -/
def writeAllToBio (bio : τ) (string : List UInt8) : Int × τ :=
  match string with
  | [] => (1, bio)
  | c :: cs =>
      match T.send bio (c :: cs) with
      | (none, bio) | (some 0, bio) => (0, bio)
      | (some (r + 1), bio) =>
          if r + 1 > (c :: cs).length then (-1, bio) else writeAllToBio bio (cs.drop r)
termination_by string.length
decreasing_by
  rw [List.length_drop, List.length_cons]
  omega

def httpRequest (userAgent hostname : List UInt8) : List UInt8 :=
  ascii "HEAD / HTTP/1.1\r\nUser-Agent: " ++ userAgent ++ ascii "\r\nHost: " ++ hostname ++
    ascii "\r\n\r\n"

end Request

structure Settings where
  host : CString
  port : CString
  protocol : List UInt8
  caCertContainer : List UInt8
  caRacket : Bool
  leap : Bool
  proxy : Option CString
  http : Bool

inductive FileType
  | regular
  | directory
  | other

abbrev Random := { bytes : List UInt8 // bytes.length = 32 }

/-- A call of the info callback: where it is, whether the state is one of those
that read the server hello, and the `server_random` then. -/
structure InfoCall where
  connectLoop : Bool
  serverHello : Bool
  serverRandom : Random

/-- What OpenSSL and the peer do in a session. The result of the verification
depends on the time that it is frozen at. -/
structure Session (τ : Type) where
  newContext : Bool
  container : Option FileType
  loadVerifyLocations : Bool
  newConnect : Bool
  newSsl : Bool
  ssl : Bool
  setConn : Bool
  newFp : Bool
  strerror : String
  connects : Bool
  infoCalls : List InfoCall
  handshakes : Bool
  serverRandom : Random
  certificate : Option Certificate
  verifyResult : Option Int → Int
  io : Transport τ
  bio : τ
  buf : Buffer UInt8 maxHttpHeadersSize

section Run

variable (build : Build) (order : ByteOrder) (userAgent : List UInt8) (settings : Settings)
variable {τ : Type} (session : Session τ)

def Random.time (random : Random) : UInt32 := word32 order (random.1.take 4)

/-- `openssl_time_callback`; the state is the time that the verification is
frozen at. -/
def opensslTimeCallback (frozen : Option Int) (call : InfoCall) : Except String (Option Int) :=
  if call.connectLoop && call.serverHello then
    let serverTime := (ntohl order (Random.time order call.serverRandom)).toNat
    if build.recentCompileDate < serverTime ∧ (serverTime : Int) < maxReasonableTime then
      .ok (some (serverTime + 86400))
    else
      let server := CInt.toInt serverTime
      let compiled := build.recentCompileDate
      .error s!"V: the remote server is a false ticker! server: {server} compile: {compiled}"
  else .ok frozen

def newContext : Except String Unit :=
  let protocol := text settings.protocol
  if settings.protocol = ascii "sslv23" ∨ settings.protocol = ascii "sslv3" ∨
      settings.protocol = ascii "tlsv1" then
    dieUnless session.newContext s!"OpenSSL failed to support protocol `{protocol}'"
  else .error s!"Unsupported protocol `{protocol}'"

/-- A container that is neither a file nor a directory has to be loaded; the
others only should be. -/
def loadContainer : Except String Unit :=
  let container := text settings.caCertContainer
  if settings.caRacket then
    match session.container with
    | none => .error s!"Unable to stat CA certficate container {container}"
    | some .regular | some .directory => .ok ()
    | some .other => dieUnless session.loadVerifyLocations
        s!"Unable to load CA certficate container {container}"
  else .ok ()

def makeSslBio : Except String Setup := do
  dieUnless session.newConnect "BIO_s_connect failed"
  dieUnless session.newSsl "BIO_new_ssl failed"
  setupProxy settings.proxy settings.host settings.port

def prepare (setup : Setup) : Except String Unit := do
  let host := text setup.host
  let port := text setup.port
  let errno := session.strerror
  dieUnless session.ssl "SSL setup failed"
  dieUnless session.setConn s!"Failed to initialize connection to `{host}:{port}'"
  dieUnless session.newFp s!"BIO_new_fp returned error, possibly: {errno}"

def freeze : Except String (Option Int) :=
  if settings.leap then session.infoCalls.foldlM (opensslTimeCallback build order) none
  else .ok none

def handshake : Except String (Option Int) := do
  dieUnless session.connects "SSL connection failed"
  let frozen ← freeze build order settings session
  dieUnless session.handshakes "SSL handshake failed"
  return frozen

def httpDate (bio : τ) : Int × Option UInt32 :=
  ((readHttpDateFromBio session.io session.buf bio).get (readHttpDateFromBio_isSome ..)).1

def resultTime : Except String UInt32 :=
  let resultTime := Random.time order session.serverRandom
  if settings.http then do
    let request := httpRequest userAgent settings.host.1
    dieUnless (request.length < 1024) "hostname too long"
    let written := writeAllToBio session.io session.bio request
    dieUnless (written.1 = 1) "write all to bio failed."
    let read := httpDate session written.2
    dieUnless (read.1 = 1) "read all from bio failed."
    return htonl order (read.2.getD resultTime)
  else .ok resultTime

def checkPeer (frozen : Option Int) (setup : Setup) : Except String Unit :=
  if settings.caRacket then do
    inspectKey session.certificate (session.verifyResult frozen) settings.host.1 setup.host
    checkKeyLength session.certificate
  else checkKeyLength session.certificate

/-- `run_ssl`: what it copies to `time_map`, or the message that it dies with. -/
def runSsl : Except String UInt32 := do
  newContext settings session
  loadContainer settings session
  let setup ← makeSslBio settings session
  prepare session setup
  let frozen ← handshake build order settings session
  let result ← resultTime order userAgent settings session
  checkPeer settings session frozen setup
  return result

/-- What the child leaves for `main`, which reads the word in network order. -/
def child : Except String UInt32 :=
  match runSsl build order userAgent settings session with
  | .ok timeMap => .ok (ntohl order timeMap)
  | .error _ => .error "child process failed in SSL handshake"

end Run

section WriteAll

variable {τ : Type} {T : Transport τ}

/-- However little each write takes, the bytes that are taken are the start of
the string, and all of it where the result is 1. -/
theorem writeAllToBio_taken (bio : τ) (sent string : List UInt8) :
    ∃ k ≤ string.length,
      (writeAllToBio (taken T) (bio, sent) string).2.2 = sent ++ string.take k ∧
      (writeAllToBio (taken T) (bio, sent) string).1 = if k = string.length then 1 else 0 := by
  induction hn : string.length using Nat.strong_induction_on generalizing bio sent string with
  | _ n ih =>
      subst hn
      cases string with
      | nil => exact ⟨0, Nat.le_refl 0, by simp [writeAllToBio], by simp [writeAllToBio]⟩
      | cons c cs =>
          rw [writeAllToBio, taken_send]
          cases hs : T.send bio (c :: cs) with
          | mk r bio' =>
              match r with
              | none => exact ⟨0, Nat.zero_le _, by simp, by simp⟩
              | some 0 => exact ⟨0, Nat.zero_le _, by simp, by simp⟩
              | some (r + 1) =>
                  have hle : r ≤ cs.length := Nat.le_of_succ_le_succ (send_le hs)
                  have hshort : (cs.drop r).length < (c :: cs).length := by
                    rw [List.length_drop, List.length_cons]
                    omega
                  obtain ⟨k, hk, hsent, hret⟩ := ih _ hshort bio'
                    (sent ++ (c :: cs).take (r + 1)) (cs.drop r) rfl
                  rw [List.length_drop] at hk hret
                  have hsplit : (c :: cs).take (r + 1 + k) =
                      (c :: cs).take (r + 1) ++ (cs.drop r).take k := by
                    rw [List.take_add, List.drop_succ_cons]
                  refine ⟨r + 1 + k, ?_, ?_, ?_⟩
                  · rw [List.length_cons]
                    omega
                  · simp only [Option.getD_some]
                    rw [if_neg (Nat.not_lt.mpr (send_le hs)), hsent, List.append_assoc, hsplit]
                  · simp only [Option.getD_some]
                    rw [if_neg (Nat.not_lt.mpr (send_le hs)), hret, List.length_cons]
                    exact if_congr (by omega) rfl rfl

end WriteAll

section Authentic

variable (build : Build) (userAgent : List UInt8) (settings : Settings)
variable {τ : Type} (session : Session τ)

structure Ready : Prop where
  protocol : settings.protocol ∈ [ascii "sslv23", ascii "sslv3", ascii "tlsv1"]
  context : session.newContext = true
  container : settings.caRacket = true → ∃ type, session.container = some type ∧
    (type = .other → session.loadVerifyLocations = true)
  bios : session.newConnect = true ∧ session.newSsl = true
  proxy : ∀ proxy, settings.proxy = some proxy → ∃ uri, IsUri proxy.1 uri
  prepared : session.ssl = true ∧ session.setConn = true ∧ session.newFp = true
  connects : session.connects = true
  handshakes : session.handshakes = true

def helloTimes (calls : List InfoCall) : List Nat :=
  (calls.filter fun call => call.connectLoop && call.serverHello).map fun call =>
    decode .big (call.serverRandom.1.take 4)

/-- The time of the verification: that of a day after the last server hello
where the clock is not to be trusted, and then all of them are reasonable. -/
structure Frozen (frozen : Option Int) : Prop where
  leap : settings.leap = true →
    (∀ t ∈ helloTimes session.infoCalls,
      build.recentCompileDate < t ∧ (t : Int) < maxReasonableTime) ∧
    frozen = (helloTimes session.infoCalls).getLast?.map fun t : Nat => (t : Int) + 86400
  held : settings.leap = false → frozen = none

/-- The peer has a safe key and, unless the verification is skipped, a
certificate that is valid at that time and names the host. -/
structure Trusted (frozen : Option Int) : Prop where
  key : ∃ cert key, session.certificate = some cert ∧ cert.key = some key ∧ key.Safe
  verified : settings.caRacket = true → session.verifyResult frozen = x509VOk ∧
    ∃ cert, session.certificate = some cert ∧ cert.Names settings.host.1

/-- The time that the peer says it is: that of its answer to a request which is
written to it as a whole, or that of its `server_random`. -/
def Tells (input : τ → List UInt8) (t : UInt32) : Prop :=
  if settings.http then
    (httpRequest userAgent settings.host.1).length < 1024 ∧
      ∃ bio, writeAllToBio session.io session.bio (httpRequest userAgent settings.host.1) =
        (1, bio) ∧ verdict (input bio) = (1, some t)
  else t.toNat = decode .big (session.serverRandom.1.take 4)

structure Authentic (input : τ → List UInt8) (t : UInt32) : Prop where
  ready : Ready settings session
  trusted : ∃ frozen, Frozen build settings session frozen ∧ Trusted settings session frozen
  tells : Tells userAgent settings session input t

end Authentic

section Pieces

variable {build : Build} {order : ByteOrder} {userAgent : List UInt8} {settings : Settings}
variable {τ : Type} {session : Session τ} {input : τ → List UInt8}

theorem newContext_ok : newContext settings session = .ok () ↔
    settings.protocol ∈ [ascii "sslv23", ascii "sslv3", ascii "tlsv1"] ∧
      session.newContext = true := by
  simp only [newContext, List.mem_cons, List.not_mem_nil, or_false]
  split_ifs with hp
  · simp [hp, dieUnless_ok]
  · simp [hp]

theorem loadContainer_ok : loadContainer settings session = .ok () ↔
    (settings.caRacket = true → ∃ type, session.container = some type ∧
      (type = .other → session.loadVerifyLocations = true)) := by
  rw [loadContainer]
  cases settings.caRacket with
  | false => simp
  | true =>
      cases session.container with
      | none => simp
      | some type => cases type <;> simp [dieUnless_ok]

theorem setupProxy_ok {proxy : Option CString} {host port : CString} :
    (∃ setup, setupProxy proxy host port = .ok setup) ↔
      ∀ s, proxy = some s → ∃ uri, IsUri s.1 uri := by
  simp only [← parseProxyUri_iff]
  cases proxy with
  | none => simp [setupProxy]
  | some s => cases hs : PacProxy.parseProxyUri s.1 <;> simp [setupProxy, hs]

theorem makeSslBio_ok : (∃ setup, makeSslBio settings session = .ok setup) ↔
    (session.newConnect = true ∧ session.newSsl = true) ∧
      ∀ proxy, settings.proxy = some proxy → ∃ uri, IsUri proxy.1 uri := by
  rw [← @setupProxy_ok settings.proxy settings.host settings.port]
  simp only [makeSslBio, dieUnless_bind, exists_and_left, and_assoc]

theorem prepare_ok {setup : Setup} : prepare session setup = .ok () ↔
    session.ssl = true ∧ session.setConn = true ∧ session.newFp = true := by
  simp only [prepare, dieUnless_bind, dieUnless_ok]

theorem time_ntohl (random : Random) :
    (ntohl order (Random.time order random)).toNat = decode .big (random.1.take 4) := by
  have hlen : (random.1.take 4).length = 4 := by
    rw [List.length_take, random.2]
    rfl
  rw [Random.time, ntohl_word32 order hlen, word32_toNat .big hlen]

theorem opensslTimeCallback_ok {frozen frozen' : Option Int} {calls : List InfoCall} :
    calls.foldlM (opensslTimeCallback build order) frozen = .ok frozen' ↔
      (∀ t ∈ helloTimes calls, build.recentCompileDate < t ∧ (t : Int) < maxReasonableTime) ∧
      frozen' = ((helloTimes calls).getLast?.map fun t : Nat => (t : Int) + 86400).or frozen := by
  induction calls generalizing frozen with
  | nil => simp [helloTimes, pure, Except.pure, eq_comm]
  | cons call calls ih =>
      rw [List.foldlM_cons, bind_ok]
      simp only [ih, opensslTimeCallback, time_ntohl]
      cases hc : call.connectLoop && call.serverHello with
      | false => simp [helloTimes, hc]
      | true =>
          have hcons : helloTimes (call :: calls) =
              decode .big (call.serverRandom.1.take 4) :: helloTimes calls := by
            simp [helloTimes, hc]
          rw [hcons, List.forall_mem_cons, List.getLast?_cons, Option.map_some, Option.some_or,
            if_pos rfl]
          split_ifs with hrange
          · cases hlast : (helloTimes calls).getLast? <;> simp [hrange]
          · simp [hrange]

theorem freeze_ok {frozen : Option Int} : freeze build order settings session = .ok frozen ↔
    Frozen build settings session frozen := by
  rw [freeze]
  constructor
  · intro h
    refine ⟨fun hleap => ?_, fun hheld => ?_⟩
    · rw [if_pos hleap, opensslTimeCallback_ok, Option.or_none] at h
      exact h
    · rw [hheld] at h
      exact (Except.ok.inj h).symm
  · intro h
    split_ifs with hleap
    · rw [opensslTimeCallback_ok, Option.or_none]
      exact h.leap hleap
    · rw [h.held (Bool.eq_false_of_not_eq_true hleap)]

theorem handshake_ok {frozen : Option Int} : handshake build order settings session = .ok frozen ↔
    session.connects = true ∧ Frozen build settings session frozen ∧ session.handshakes = true := by
  simp only [handshake, dieUnless_bind]
  refine and_congr_right fun _ => bind_ok.trans ?_
  simp only [dieUnless_bind, freeze_ok]
  constructor
  · rintro ⟨frozen', hfrozen, hhandshakes, he⟩
    cases he
    exact ⟨hfrozen, hhandshakes⟩
  · rintro ⟨hfrozen, hhandshakes⟩
    exact ⟨frozen, hfrozen, hhandshakes, rfl⟩

theorem httpDate_eq (h : Delivers session.io input) (bio : τ) :
    httpDate session bio = verdict (input bio) := by
  obtain ⟨bio', hread⟩ := readLoop_verdict h (begins_nil session.buf) (Nat.zero_le _) rfl
  have hsome : readHttpDateFromBio session.io session.buf bio = some (verdict (input bio), bio') :=
    hread
  simp only [httpDate, hsome, Option.get_some]

theorem resultTime_ok (h : Delivers session.io input) {t : UInt32} :
    (∃ result, resultTime order userAgent settings session = .ok result ∧ ntohl order result = t) ↔
      Tells userAgent settings session input t := by
  rw [resultTime, Tells]
  split_ifs with hhttp
  · simp only [dieUnless_bind, httpDate_eq h, decide_eq_true_eq]
    constructor
    · rintro ⟨result, ⟨hshort, hwritten, hone, he⟩, ht⟩
      obtain ⟨t', hv⟩ := verdict_one hone
      cases he
      rw [hv, Option.getD_some, ntohl_htonl] at ht
      exact ⟨hshort, _, Prod.ext hwritten rfl, ht ▸ hv⟩
    · rintro ⟨hshort, bio, hw, hv⟩
      refine ⟨htonl order t, ⟨hshort, ?_, ?_, ?_⟩, ntohl_htonl order t⟩ <;> simp only [hw, hv]
      rfl
  · simp only [Except.ok.injEq, exists_eq_left']
    rw [← time_ntohl, UInt32.toNat_inj, eq_comm]

theorem checkPeer_ok {frozen : Option Int} {setup : Setup} :
    checkPeer settings session frozen setup = .ok () ↔ Trusted settings session frozen := by
  have hkey := @checkKeyLength_ok session.certificate
  rw [checkPeer]
  split_ifs with hracket
  · rw [bind_ok]
    constructor
    · rintro ⟨_, hi, hk⟩
      exact ⟨hkey.mp hk, fun _ => inspectKey_ok.mp hi⟩
    · rintro ⟨hk, hv⟩
      exact ⟨(), inspectKey_ok.mpr (hv hracket), hkey.mpr hk⟩
  · rw [hkey]
    exact ⟨fun hk => ⟨hk, fun h => absurd h hracket⟩, Trusted.key⟩

theorem child_result {t : UInt32} : child build order userAgent settings session = .ok t ↔
    ∃ result, runSsl build order userAgent settings session = .ok result ∧
      ntohl order result = t := by
  rw [child]
  cases runSsl build order userAgent settings session <;> simp

theorem child_sound (h : Delivers session.io input) {t : UInt32}
    (hr : child build order userAgent settings session = .ok t) :
    Authentic build userAgent settings session input t := by
  obtain ⟨result, hr, ht⟩ := child_result.mp hr
  obtain ⟨_, hcontext, hr⟩ := bind_ok.mp hr
  obtain ⟨_, hcontainer, hr⟩ := bind_ok.mp hr
  obtain ⟨setup, hbio, hr⟩ := bind_ok.mp hr
  obtain ⟨_, hprepare, hr⟩ := bind_ok.mp hr
  obtain ⟨frozen, hshake, hr⟩ := bind_ok.mp hr
  obtain ⟨_, htime, hr⟩ := bind_ok.mp hr
  obtain ⟨_, hpeer, hr⟩ := bind_ok.mp hr
  cases hr
  obtain ⟨hprotocol, hcontext⟩ := newContext_ok.mp hcontext
  obtain ⟨hbios, hproxy⟩ := makeSslBio_ok.mp ⟨setup, hbio⟩
  obtain ⟨hconnects, hfrozen, hhandshakes⟩ := handshake_ok.mp hshake
  exact ⟨⟨hprotocol, hcontext, loadContainer_ok.mp hcontainer, hbios, hproxy,
    prepare_ok.mp hprepare, hconnects, hhandshakes⟩, ⟨frozen, hfrozen, checkPeer_ok.mp hpeer⟩,
    (resultTime_ok h).mp ⟨result, htime, ht⟩⟩

theorem child_complete (h : Delivers session.io input) {t : UInt32}
    (ha : Authentic build userAgent settings session input t) :
    child build order userAgent settings session = .ok t := by
  obtain ⟨hready, ⟨frozen, hfrozen, htrusted⟩, htells⟩ := ha
  obtain ⟨setup, hbio⟩ := makeSslBio_ok.mpr ⟨hready.bios, hready.proxy⟩
  obtain ⟨result, htime, ht⟩ := (resultTime_ok h).mpr htells
  refine child_result.mpr ⟨result, ?_, ht⟩
  have hshake : handshake build order settings session = .ok frozen :=
    handshake_ok.mpr ⟨hready.connects, hfrozen, hready.handshakes⟩
  refine bind_ok.mpr ⟨(), newContext_ok.mpr ⟨hready.protocol, hready.context⟩, ?_⟩
  refine bind_ok.mpr ⟨(), loadContainer_ok.mpr hready.container, ?_⟩
  refine bind_ok.mpr ⟨setup, hbio, ?_⟩
  refine bind_ok.mpr ⟨(), prepare_ok.mpr hready.prepared, ?_⟩
  refine bind_ok.mpr ⟨frozen, hshake, ?_⟩
  refine bind_ok.mpr ⟨result, htime, ?_⟩
  exact bind_ok.mpr ⟨(), checkPeer_ok.mpr htrusted, rfl⟩

/-- `run_ssl` leaves just the times of authentic peers. -/
theorem child_authentic (h : Delivers session.io input) (t : UInt32) :
    child build order userAgent settings session = .ok t ↔
      Authentic build userAgent settings session input t :=
  ⟨child_sound h, child_complete h⟩

end Pieces

section Example

def wildcard : Certificate :=
  ⟨some (ascii "example.org"),
    [⟨ascii "basicConstraints", .noMethod⟩,
      ⟨ascii "subjectAltName", .names [⟨ascii "DNS", ascii "*.example.org"⟩]⟩],
    some (.ec 256)⟩

def www : CString := ⟨ascii "www.example.org", by decide⟩

def leaping : Settings where
  host := www
  port := ⟨ascii "443", by decide⟩
  protocol := ascii "tlsv1"
  caCertContainer := ascii "/etc/ssl/certs"
  caRacket := true
  leap := true
  proxy := none
  http := false

def helloRandom : Random := ⟨[0x53, 0x72, 0x4E, 0x00] ++ List.replicate 28 0, rfl⟩

def answered : Session Stream where
  newContext := true
  container := some .directory
  loadVerifyLocations := true
  newConnect := true
  newSsl := true
  ssl := true
  setConn := true
  newFp := true
  strerror := "Success"
  connects := true
  infoCalls := [⟨true, true, helloRandom⟩, ⟨true, false, helloRandom⟩]
  handshakes := true
  serverRandom := helloRandom
  certificate := some wildcard
  verifyResult := fun frozen => if frozen = some 1400086400 then x509VOk else 10
  io := stream
  bio := ⟨[], []⟩
  buf := fill 0

theorem child_authentic_leaping :
    Authentic TimeSource.fallbackBuild [] leaping answered Stream.input 1400000000 :=
  (@child_authentic _ .little _ _ _ _ _ stream_delivers _).mp (by decide +kernel)

end Example

section Clock

open HelperClock (Flags Reading Timespec World clockInitTime rttMs tlsRttUnreasonable)

/-- The round trip is short enough, and `time` is the checked time of a server
which said `t`. -/
structure Checked (build : Build) (flags : Flags) (start stop : Timespec) (t : UInt32)
    (time : Timespec) : Prop where
  setclock : flags.setclock = true
  told : t ≠ 0
  quick : rttMs start stop ≤ tlsRttUnreasonable
  time_eq : time = clockInitTime (t.toNat + rttMs start stop / 2 / 1000) (rttMs start stop / 2 % 1000)
  range : build.recentCompileDate < time.sec ∧ time.sec < maxReasonableTime

variable {build : Build} {order : ByteOrder} {userAgent : List UInt8} {settings : Settings}
variable {τ : Type} {session : Session τ} {input : τ → List UInt8}
variable {flags : Flags} {start stop : Timespec} {t : UInt32} {time : Timespec}

theorem serverTime_ok_iff : HelperClock.serverTime start stop t = .ok time ↔
    t ≠ 0 ∧ rttMs start stop ≤ tlsRttUnreasonable ∧
      time = clockInitTime (t.toNat + rttMs start stop / 2 / 1000) (rttMs start stop / 2 % 1000) := by
  rw [HelperClock.serverTime]
  split_ifs with hzero hslow
  · simp [hzero]
  · simp [hslow]
  · simp [hzero, Int.not_lt.mp hslow, eq_comm]

theorem checkedTime_some : HelperClock.checkedTime build flags start stop t = .ok (some time) ↔
    Checked build flags start stop t time := by
  constructor
  · intro h
    obtain ⟨time', hserver, h⟩ := bind_ok.mp h
    split_ifs at h with hset hfuture hpast
    · cases h
    · cases h
      obtain ⟨ht, hquick, he⟩ := serverTime_ok_iff.mp hserver
      exact ⟨by simpa using hset, ht, hquick, he, Int.not_le.mp hpast, Int.not_le.mp hfuture⟩
  · rintro ⟨hset, ht, hquick, he, hpast, hfuture⟩
    refine bind_ok.mpr ⟨time, serverTime_ok_iff.mpr ⟨ht, hquick, he⟩, ?_⟩
    rw [hset, if_neg (by decide), if_neg (Int.not_le.mpr hfuture), if_neg (Int.not_le.mpr hpast)]
    rfl

/-- The clock is set where it is warped, and then to the checked time of the child. -/
theorem main_appends (world : World) : ∃ checked : Option Timespec,
    (HelperClock.main build flags world).1 =
        (HelperClock.warp build flags world).1 ++ checked.toList ∧
      ∀ time, checked = some time ↔
        ∃ start stop t, (HelperClock.warp build flags world).2 = .ok start ∧
          world.stop = some stop ∧ world.child = .ok t ∧
          Checked build flags start.toTimespec stop.toTimespec t time := by
  have hchecked (start stop t) := @checkedTime_some build flags start stop t
  simp only [← hchecked, HelperClock.main]
  cases (HelperClock.warp build flags world).2 with
  | error e => exact ⟨none, by simp, by simp⟩
  | ok start =>
      cases world.child with
      | error e => exact ⟨none, by simp, by simp⟩
      | ok t =>
          cases world.stop with
          | none => exact ⟨none, by simp, by simp⟩
          | some stop =>
              cases hc : HelperClock.checkedTime build flags start.toTimespec stop.toTimespec t with
              | error e => exact ⟨none, by simp [hc], by simp [hc]⟩
              | ok set =>
                  cases set with
                  | none => exact ⟨none, by simp [hc], by simp [hc]⟩
                  | some time' => exact ⟨some time', by simp [hc], by simp [hc]⟩

theorem main_sets (world : World) (time : Timespec) :
    time ∈ (HelperClock.main build flags world).1 ↔
      time ∈ (HelperClock.warp build flags world).1 ∨
        ∃ start stop t, (HelperClock.warp build flags world).2 = .ok start ∧
          world.stop = some stop ∧ world.child = .ok t ∧
          Checked build flags start.toTimespec stop.toTimespec t time := by
  obtain ⟨checked, hsets, hchecked⟩ := @main_appends build flags world
  rw [hsets, List.mem_append, Option.mem_toList, hchecked]

/-- The clock is set to the date of the build, where it is warped, and after it to the
checked time of an authentic peer, and to nothing else. -/
theorem sets_authentic (h : Delivers session.io input) (world : World) :
    ∃ checked : Option Timespec, (HelperClock.main build flags
        { world with child := child build order userAgent settings session }).1 =
          (HelperClock.warp build flags world).1 ++ checked.toList ∧
      ∀ time, checked = some time ↔
        ∃ start stop t, (HelperClock.warp build flags world).2 = .ok start ∧
          world.stop = some stop ∧ Authentic build userAgent settings session input t ∧
          Checked build flags start.toTimespec stop.toTimespec t time := by
  have hauthentic (t : UInt32) : child build order userAgent settings session = .ok t ↔
      Authentic build userAgent settings session input t := ⟨child_sound h, child_complete h⟩
  simp only [← hauthentic]
  exact main_appends { world with child := child build order userAgent settings session }

def prompt : World := HelperClock.answering 1400000000

theorem sets_authentic_leaping : ∃ start stop t,
    (HelperClock.warp TimeSource.fallbackBuild HelperClock.setting prompt).2 = .ok start ∧
      prompt.stop = some stop ∧
      Authentic TimeSource.fallbackBuild [] leaping answered Stream.input t ∧
      Checked TimeSource.fallbackBuild HelperClock.setting start.toTimespec stop.toTimespec t
        ⟨1400000000, 0⟩ := by
  obtain ⟨checked, hsets, hchecked⟩ := @sets_authentic TimeSource.fallbackBuild .little [] leaping _
    answered _ HelperClock.setting stream_delivers prompt
  have hmain : (HelperClock.main TimeSource.fallbackBuild HelperClock.setting
      { prompt with child := child TimeSource.fallbackBuild .little [] leaping answered }).1 =
        [⟨1400000000, 0⟩] := by decide +kernel
  have hwarp : (HelperClock.warp TimeSource.fallbackBuild HelperClock.setting prompt).1 = [] := by
    decide +kernel
  rw [hmain, hwarp, List.nil_append] at hsets
  refine (hchecked _).mp ?_
  cases checked with
  | none => cases hsets
  | some time => rw [(List.cons.inj hsets).1]

end Clock

end Tlsdate.SslSession
