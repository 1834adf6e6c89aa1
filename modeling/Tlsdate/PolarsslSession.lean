import Tlsdate.PolarsslGuard
import Tlsdate.SslSession

namespace Tlsdate.PolarsslSession

open ByteStream CertCheck Dialogue HostBytes PolarsslGuard ProxyPolarssl
open HelperClock (maxReasonableTime)
open PacProxy (ProxyUri parseProxyUri text)
open ProxyBio (CString Connector Host ascii niMaxHost)
open ProxyGrammar (IsUri parseProxyUri_iff)
open SslSession (FileType Settings)
open TimeSource (Build)

def badcertExpired : BitVec 32 := 0x01
def badcertRevoked : BitVec 32 := 0x02
def badcertCnMismatch : BitVec 32 := 0x04
def badcertNotTrusted : BitVec 32 := 0x08

def errNetWantRead : Int := -0x0052
def errNetWantWrite : Int := -0x0054

/-- A return of `ssl_handshake_step` or `ssl_handshake`: its value, whether the state is then
SSL_SERVER_HELLO, and the buffer of the message. -/
structure Return where
  ret : Int
  serverHello : Bool
  inMsg : Nat → UInt8

/-- What PolarSSL and the peer do in a session. `nullHost` tells whether the memory of
`proxy_ctx.host` holds NULL before anything is written there. -/
structure Session (τ : Type) where
  container : Option FileType
  drbg : Bool
  init : Bool
  connects : Bool
  net : τ
  returns : List Return
  verifyResult : BitVec 32
  certificate : Option Nat
  nullHost : Bool

/-- Where the callbacks of the session lead: to the socket or through the proxy layer. -/
inductive Link (τ : Type)
  | direct (net : τ)
  | proxied (ctx : ProxyPolarsslCtx τ)

/-- An end of the child: it dies with a message, has an undefined behaviour, or leaves a time. -/
inductive End
  | dies (message : String)
  | faults
  | tells (t : UInt32)
  deriving DecidableEq, Repr

section Checks

/-- The minus of the last message is that of an int. -/
def verifySignature (sslVerifyResult : BitVec 32) : Except String Unit :=
  if sslVerifyResult &&& badcertExpired ≠ 0 then .error "certificate has expired"
  else if sslVerifyResult &&& badcertRevoked ≠ 0 then .error "certificate has been revoked"
  else if sslVerifyResult &&& badcertCnMismatch ≠ 0 then
    .error "CN and subject AltName mismatch for certificate"
  else if sslVerifyResult &&& badcertNotTrusted ≠ 0 then
    .error "certificate is self-signed or not signed by a trusted CA"
  else if sslVerifyResult = 0 then .ok ()
  else
    let digits := String.ofList ((Nat.toDigits 16 (-sslVerifyResult).toNat).leftpad 4 '0')
    .error s!"certificate verification error: -0x{digits}"

/-- The key is the modulus of an RSA key, whatever the certificate is for. -/
def checkKeyLength (certificate : Option Nat) : Except String Unit :=
  match certificate with
  | none => .error "Getting certificate failed"
  | some n =>
      let keyBits := n.size
      if minPubKeyLen ≥ keyBits then .error s!"Unsafe public key size: {keyBits} bits" else .ok ()

def checkTimestamp (build : Build) (serverTime : UInt32) : Except String Unit :=
  if build.recentCompileDate < serverTime.toNat ∧ (serverTime.toNat : Int) < maxReasonableTime then
    .ok ()
  else
    let server := CInt.toInt serverTime.toNat
    let compiled := build.recentCompileDate
    .error s!"V: the remote server is a false ticker! server: {server} compile: {compiled}"

def helloStep : List Return → Option (Except String (Return × List Return))
  | [] => none
  | hello :: rest =>
      if hello.ret ≠ 0 then some (.error "SSL handshake failed") else some (.ok (hello, rest))

def sslDoHandshakePart : List Return → Option (Except String (Return × List Return))
  | [] => none
  | step :: rest =>
      if step.ret ≠ 0 then some (.error "SSL handshake failed")
      else if step.serverHello then helloStep rest
      else sslDoHandshakePart rest

def timestamp (inMsg : Nat → UInt8) : UInt32 :=
  (inMsg 6).toUInt32 <<< 24 ||| (inMsg 7).toUInt32 <<< 16 ||| (inMsg 8).toUInt32 <<< 8 |||
    (inMsg 9).toUInt32

def continueHandshake : List Return → Option (Except String Unit)
  | [] => none
  | r :: rest =>
      if r.ret = 0 then some (.ok ())
      else if r.ret ≠ errNetWantRead ∧ r.ret ≠ errNetWantWrite then
        some (.error "SSL handshake failed")
      else continueHandshake rest

end Checks

section Run

variable {τ : Type} (T : Transport τ) (fuel : Nat) (build : Build) (settings : Settings)
variable (session : Session τ)

def loadContainer : Except String Unit :=
  let container := text settings.caCertContainer
  if settings.caRacket then
    match session.container with
    | none => .error s!"Unable to stat CA certficate container {container}"
    | some .regular | some .directory => .ok ()
    | some .other => .error s!"Unable to load CA certficate container {container}"
  else .ok ()

def prepare : Except String Unit := do
  loadContainer settings session
  dieUnless session.drbg "Failed to initialize CTR_DRBG"
  dieUnless session.init "SSL initialization failed"

/-- The results of the setters are ignored. -/
def proxyContext (uri : ProxyUri) : ProxyPolarsslCtx τ :=
  let ctx := init session.net
  let ctx := (setHost settings.host ctx).2
  let ctx := setPort (UInt16.ofInt (ProxySetup.atoi settings.port.1)) ctx
  (setScheme (text uri.scheme) ctx).2

/-- The connection through a proxy, whose header may have no end. A connector without a host
reads NULL. -/
def openProxy (uri : ProxyUri) : Option (Except End (Link τ)) :=
  if session.connects = false then some (.error (.dies "SSL connection failed"))
  else
    let ctx := proxyContext settings session uri
    if ctx.host.isNone || ctx.fConnect.isNone then some (.error .faults)
    else (connect T fuel ctx).map fun done =>
      if done.1 = 0 then .error (.dies "Proxy connection failed") else .ok (.proxied done.2)

def dial : Option (Except End (Link τ)) :=
  match settings.proxy with
  | none =>
      some (if session.connects then .ok (.direct session.net)
        else .error (.dies "SSL connection failed"))
  | some proxy =>
      match parseProxyUri proxy.1 with
      | .error message => some (.error (.dies message))
      | .ok uri => openProxy T fuel settings session uri

def checkPeer : Except String Unit :=
  if settings.caRacket then do
    verifySignature session.verifyResult
    checkKeyLength session.certificate
  else checkKeyLength session.certificate

/-- At the end `proxy_polarssl_free` frees the host of a context that has only been set up
where there is a proxy. -/
def proxyPolarsslFree (link : Link τ) (t : UInt32) : End :=
  match link with
  | .proxied _ => .tells t
  | .direct _ => if session.nullHost then .tells t else .faults

def converse (link : Link τ) : Option End :=
  (sslDoHandshakePart session.returns).bind fun
    | .error message => some (.dies message)
    | .ok (hello, rest) =>
        match checkTimestamp build (timestamp hello.inMsg) with
        | .error message => some (.dies message)
        | .ok () => (continueHandshake rest).map fun
            | .error message => .dies message
            | .ok () =>
                match checkPeer settings session with
                | .error message => .dies message
                | .ok () => proxyPolarsslFree session link (timestamp hello.inMsg)

def runSsl : Option End :=
  match prepare settings session with
  | .error message => some (.dies message)
  | .ok () => (dial T fuel settings session).bind fun
      | .error e => some e
      | .ok link => converse build settings session link

def step : Machine.Step (Link τ) Call Exchange := fun link call =>
  match link with
  | .proxied ctx => (ProxyPolarssl.step T fuel ctx call).map fun r => (.proxied r.1, r.2)
  | .direct net =>
      let r := match call with
        | .send data => fSend T data net
        | .recv len => fRecv T len net
      some (.direct r.2.2, [⟨none, call.size, r.2.1, r.1⟩])

end Run

/-- What a child whose behaviour is defined leaves for `main`, which here reads the word as
it is. -/
def End.child : End → Option (Except String UInt32)
  | .tells t => some (.ok t)
  | .dies _ => some (.error "child process failed in SSL handshake")
  | .faults => none

section Spec

variable {τ : Type} (T : Transport τ) (build : Build) (settings : Settings) (session : Session τ)

def connectorOf (scheme : List UInt8) : Connector :=
  if scheme = ascii "socks5" then .socks5 else if scheme = ascii "socks4" then .socks4a else .http

def proxyPort : UInt16 := UInt16.ofInt (ProxySetup.atoi settings.port.1)

inductive Linked : Link τ → Prop
  | direct (hproxy : settings.proxy = none) : Linked (.direct session.net)
  | proxied {proxy : CString} {uri : ProxyUri} {s : τ} (hproxy : settings.proxy = some proxy)
      (huri : IsUri proxy.1 uri) (hlen : settings.host.1.length < niMaxHost)
      (hgranted : Granted T ⟨settings.host, hlen⟩ (proxyPort settings) (connectorOf uri.scheme)
        session.net s) :
      Linked (.proxied ⟨some ⟨settings.host, hlen⟩, proxyPort settings, true,
        some (connectorOf uri.scheme), s⟩)

structure Ready : Prop where
  container : settings.caRacket = true →
    session.container = some .regular ∨ session.container = some .directory
  drbg : session.drbg = true
  init : session.init = true

def Shaken (returns : List Return) (hello : Return) : Prop :=
  ∃ before step waits last rest,
    returns = before ++ step :: hello :: (waits ++ last :: rest) ∧
    (∀ r ∈ before, r.ret = 0 ∧ r.serverHello = false) ∧
    (step.ret = 0 ∧ step.serverHello = true) ∧ hello.ret = 0 ∧
    (∀ r ∈ waits, r.ret = errNetWantRead ∨ r.ret = errNetWantWrite) ∧ last.ret = 0

structure Vouched (t : UInt32) : Prop where
  told : ∃ hello, Shaken session.returns hello ∧
    t.toNat = decode .big [hello.inMsg 6, hello.inMsg 7, hello.inMsg 8, hello.inMsg 9]
  sane : build.recentCompileDate < t.toNat ∧ (t.toNat : Int) < maxReasonableTime
  verified : settings.caRacket = true → session.verifyResult = 0
  key : ∃ n, session.certificate = some n ∧ 2 ^ minPubKeyLen ≤ n

structure Authentic (t : UInt32) : Prop where
  ready : Ready settings session
  connects : session.connects = true
  linked : ∃ link, Linked T settings session link
  vouched : Vouched build settings session t
  freed : settings.proxy = none → session.nullHost = true

/-- Where the behaviour is undefined: a host for the proxy that is too long to be kept, and
the end of a session that has no proxy. -/
def Undefined : Prop :=
  Ready settings session ∧ session.connects = true ∧
    ((∃ proxy uri, settings.proxy = some proxy ∧ IsUri proxy.1 uri ∧
        niMaxHost ≤ settings.host.1.length) ∨
      settings.proxy = none ∧ session.nullHost = false ∧ ∃ t, Vouched build settings session t)

end Spec

section Pieces

variable {τ : Type} {T : Transport τ} {fuel : Nat} {build : Build} {settings : Settings}
variable {session : Session τ} {link : Link τ} {t : UInt32}

theorem shifts_add {a b c d : Nat} (ha : a < 256) (hb : b < 256) (hc : c < 256) (hd : d < 256) :
    a <<< 24 % 2 ^ 32 ||| b <<< 16 % 2 ^ 32 ||| c <<< 8 % 2 ^ 32 ||| d =
      d + 256 * (c + 256 * (b + 256 * a)) := by
  have h₁ : a <<< 24 ||| b <<< 16 = (a * 256 + b) <<< 16 := by
    rw [← Nat.shiftLeft_add_eq_or_of_lt (i := 24) (by rw [Nat.shiftLeft_eq]; omega)]
    simp only [Nat.shiftLeft_eq]
    omega
  have h₂ : (a * 256 + b) <<< 16 ||| c <<< 8 = ((a * 256 + b) * 256 + c) <<< 8 := by
    rw [← Nat.shiftLeft_add_eq_or_of_lt (i := 16) (by rw [Nat.shiftLeft_eq]; omega)]
    simp only [Nat.shiftLeft_eq]
    omega
  have hlt : a <<< 24 < 2 ^ 32 ∧ b <<< 16 < 2 ^ 32 ∧ c <<< 8 < 2 ^ 32 := by
    simp only [Nat.shiftLeft_eq]
    omega
  rw [Nat.mod_eq_of_lt hlt.1, Nat.mod_eq_of_lt hlt.2.1, Nat.mod_eq_of_lt hlt.2.2, h₁, h₂,
    ← Nat.shiftLeft_add_eq_or_of_lt (i := 8) hd, Nat.shiftLeft_eq]
  omega

theorem timestamp_toNat (inMsg : Nat → UInt8) : (timestamp inMsg).toNat =
    decode .big [inMsg 6, inMsg 7, inMsg 8, inMsg 9] := by
  have hshifts := shifts_add (inMsg 6).toNat_lt (inMsg 7).toNat_lt (inMsg 8).toNat_lt (inMsg 9).toNat_lt
  simp only [timestamp, UInt32.toNat_or, UInt32.toNat_shiftLeft, UInt8.toNat_toUInt32]
  exact hshifts

theorem checkTimestamp_ok : checkTimestamp build t = .ok () ↔
    build.recentCompileDate < t.toNat ∧ (t.toNat : Int) < maxReasonableTime := by
  rw [checkTimestamp]
  split_ifs with h <;> simp [h]

theorem verifySignature_ok {r : BitVec 32} : verifySignature r = .ok () ↔ r = 0 := by
  rw [verifySignature]
  constructor
  · intro h
    split_ifs at h with h₁ h₂ h₃ h₄ h₅
    exact h₅
  · rintro rfl
    rfl

theorem checkKeyLength_ok {certificate : Option Nat} : checkKeyLength certificate = .ok () ↔
    ∃ n, certificate = some n ∧ 2 ^ minPubKeyLen ≤ n := by
  cases certificate with
  | none => simp [checkKeyLength]
  | some n =>
      simp only [checkKeyLength, Option.some.injEq, exists_eq_left', ← Nat.lt_size]
      split_ifs with h
      · simpa using h
      · simpa using h

theorem checkPeer_ok : checkPeer settings session = .ok () ↔
    (settings.caRacket = true → session.verifyResult = 0) ∧
      ∃ n, session.certificate = some n ∧ 2 ^ minPubKeyLen ≤ n := by
  rw [checkPeer, ← checkKeyLength_ok]
  split_ifs with hracket
  · rw [bind_ok, ← verifySignature_ok]
    constructor
    · rintro ⟨⟨⟩, hv, hk⟩
      exact ⟨fun _ => hv, hk⟩
    · rintro ⟨hv, hk⟩
      exact ⟨(), hv hracket, hk⟩
  · exact ⟨fun hk => ⟨fun h => absurd h hracket, hk⟩, And.right⟩

theorem prepare_ok : prepare settings session = .ok () ↔ Ready settings session := by
  have hcontainer : loadContainer settings session = .ok () ↔ (settings.caRacket = true →
      session.container = some .regular ∨ session.container = some .directory) := by
    rw [loadContainer]
    cases settings.caRacket with
    | false => simp
    | true =>
        cases session.container with
        | none => simp
        | some type => cases type <;> simp
  rw [prepare, bind_ok]
  simp only [hcontainer, dieUnless_bind, dieUnless_ok]
  exact ⟨fun ⟨_, hc, hd, hi⟩ => ⟨hc, hd, hi⟩, fun h => ⟨(), h.container, h.drbg, h.init⟩⟩

theorem part_complete {before rest : List Return} {step hello : Return}
    (hbefore : ∀ r ∈ before, r.ret = 0 ∧ r.serverHello = false)
    (hstep : step.ret = 0 ∧ step.serverHello = true) (hhello : hello.ret = 0) :
    sslDoHandshakePart (before ++ step :: hello :: rest) = some (.ok (hello, rest)) := by
  induction before with
  | nil => simp [sslDoHandshakePart, helloStep, hstep, hhello]
  | cons r before ih =>
      obtain ⟨⟨hret, hr⟩, hbefore⟩ := List.forall_mem_cons.mp hbefore
      rw [List.cons_append, sslDoHandshakePart, if_neg (not_not.mpr hret), if_neg (by simp [hr])]
      exact ih hbefore

theorem part_sound {returns rest : List Return} {hello : Return}
    (h : sslDoHandshakePart returns = some (.ok (hello, rest))) :
    ∃ before step, returns = before ++ step :: hello :: rest ∧
      (∀ r ∈ before, r.ret = 0 ∧ r.serverHello = false) ∧
      (step.ret = 0 ∧ step.serverHello = true) ∧ hello.ret = 0 := by
  induction returns with
  | nil => cases h
  | cons r returns ih =>
      rw [sslDoHandshakePart] at h
      split_ifs at h with hret hr
      · cases h
      · rw [not_not] at hret
        cases returns with
        | nil => cases h
        | cons hello' rest' =>
            rw [helloStep] at h
            split_ifs at h with hhello
            · cases h
            · obtain ⟨rfl, rfl⟩ := Prod.mk.inj (Except.ok.inj (Option.some.inj h))
              exact ⟨[], r, rfl, (fun _ hm => nomatch hm), ⟨hret, hr⟩, not_not.mp hhello⟩
      · rw [not_not] at hret
        obtain ⟨before, step, rfl, hbefore, hstep, hhello⟩ := ih h
        refine ⟨r :: before, step, rfl, ?_, hstep, hhello⟩
        exact List.forall_mem_cons.mpr ⟨⟨hret, Bool.eq_false_iff.mpr hr⟩, hbefore⟩

theorem continue_complete {waits rest : List Return} {last : Return}
    (hwaits : ∀ r ∈ waits, r.ret = errNetWantRead ∨ r.ret = errNetWantWrite)
    (hlast : last.ret = 0) : continueHandshake (waits ++ last :: rest) = some (.ok ()) := by
  induction waits with
  | nil => rw [List.nil_append, continueHandshake, if_pos hlast]
  | cons r waits ih =>
      obtain ⟨hr, hwaits⟩ := List.forall_mem_cons.mp hwaits
      have hne : r.ret ≠ 0 := by
        obtain hr | hr := hr <;> rw [hr] <;> decide
      rw [List.cons_append, continueHandshake, if_neg hne, if_neg (by tauto)]
      exact ih hwaits

theorem continue_sound {returns : List Return} (h : continueHandshake returns = some (.ok ())) :
    ∃ waits last rest, returns = waits ++ last :: rest ∧
      (∀ r ∈ waits, r.ret = errNetWantRead ∨ r.ret = errNetWantWrite) ∧ last.ret = 0 := by
  induction returns with
  | nil => cases h
  | cons r returns ih =>
      rw [continueHandshake] at h
      split_ifs at h with hret hwant
      · exact ⟨[], r, returns, rfl, (fun _ hm => nomatch hm), hret⟩
      · cases h
      · obtain ⟨waits, last, rest, rfl, hwaits, hlast⟩ := ih h
        exact ⟨r :: waits, last, rest, rfl, List.forall_mem_cons.mpr ⟨by tauto, hwaits⟩, hlast⟩

theorem shaken_iff {returns : List Return} {hello : Return} : Shaken returns hello ↔
    ∃ rest, sslDoHandshakePart returns = some (.ok (hello, rest)) ∧
      continueHandshake rest = some (.ok ()) := by
  constructor
  · rintro ⟨before, step, waits, last, rest, rfl, hbefore, hstep, hhello, hwaits, hlast⟩
    exact ⟨_, part_complete hbefore hstep hhello, continue_complete hwaits hlast⟩
  · rintro ⟨rest, hpart, hcontinue⟩
    obtain ⟨before, step, rfl, hbefore, hstep, hhello⟩ := part_sound hpart
    obtain ⟨waits, last, rest, rfl, hwaits, hlast⟩ := continue_sound hcontinue
    exact ⟨before, step, waits, last, rest, rfl, hbefore, hstep, hhello, hwaits, hlast⟩

theorem converse_end {e : End} (he : ∀ message, e ≠ .dies message) :
    converse build settings session link = some e ↔
      ∃ t, Vouched build settings session t ∧ e = proxyPolarsslFree session link t := by
  constructor
  · intro h
    obtain ⟨r, hpart, h⟩ := Option.bind_eq_some_iff.mp h
    cases r with
    | error message => exact absurd (Option.some.inj h).symm (he message)
    | ok r =>
        obtain ⟨hello, rest⟩ := r
        dsimp only at h
        cases hsane : checkTimestamp build (timestamp hello.inMsg) with
        | error message =>
            rw [hsane] at h
            exact absurd (Option.some.inj h).symm (he message)
        | ok =>
            rw [hsane] at h
            obtain ⟨r, hcontinue, h⟩ := Option.map_eq_some_iff.mp h
            cases r with
            | error message => exact absurd h.symm (he message)
            | ok =>
                dsimp only at h
                cases hpeer : checkPeer settings session with
                | error message =>
                    rw [hpeer] at h
                    exact absurd h.symm (he message)
                | ok =>
                    rw [hpeer] at h
                    obtain ⟨hverified, hkey⟩ := checkPeer_ok.mp hpeer
                    exact ⟨timestamp hello.inMsg, ⟨⟨hello, shaken_iff.mpr ⟨rest, hpart, hcontinue⟩,
                      timestamp_toNat hello.inMsg⟩, checkTimestamp_ok.mp hsane, hverified, hkey⟩, h.symm⟩
  · rintro ⟨t, ⟨⟨hello, hshaken, ht⟩, hsane, hverified, hkey⟩, rfl⟩
    obtain ⟨rest, hpart, hcontinue⟩ := shaken_iff.mp hshaken
    obtain rfl : timestamp hello.inMsg = t := by
      rw [← UInt32.toNat_inj, timestamp_toNat, ht]
    simp only [converse, hpart, Option.bind_some, checkTimestamp_ok.mpr hsane, hcontinue,
      Option.map_some, checkPeer_ok.mpr ⟨hverified, hkey⟩]

end Pieces

section Dial

variable {τ : Type} {T : Transport τ} {fuel : Nat} {build : Build} {settings : Settings}
variable {session : Session τ} {link : Link τ} {host : Host} {port : UInt16} {c : Connector} {t : UInt32}

theorem proxyContext_eq {proxy : List UInt8} {uri : ProxyUri} (huri : IsUri proxy uri) :
    proxyContext settings session uri = ⟨if h : settings.host.1.length < niMaxHost then
      some ⟨settings.host, h⟩ else none, proxyPort settings, false, some (connectorOf uri.scheme),
      session.net⟩ := by
  have hscheme := huri.scheme
  simp only [List.mem_cons, List.not_mem_nil, or_false] at hscheme
  rw [proxyContext, setHost]
  obtain h | h | h := hscheme <;> rw [h] <;> split_ifs <;> rfl

theorem connect_some {ctx ctx' : ProxyPolarsslCtx τ} {r : Int} (hhost : ctx.host = some host)
    (hc : ctx.fConnect = some c) (h : connect T fuel ctx = some (r, ctx')) :
    r = 1 ∧ ctx' = { ctx with connected := true, net := ctx'.net } ∧
        (∀ s, Granted T host ctx.port c ctx.net s ↔ s = ctx'.net) ∨
      r = 0 ∧ ∀ s, ¬ Granted T host ctx.port c ctx.net s := by
  rw [connect, hc, hhost] at h
  obtain ⟨⟨x, u⟩, htalk, he⟩ := Option.map_eq_some_iff.mp h
  have hd := decides_talk host ctx.port c ctx.net x u htalk
  by_cases hx : x = some ()
  · rw [if_pos hx] at he
    cases he
    refine Or.inl ⟨rfl, by rw [← hc, ← hhost], fun s => (hd () s).trans ?_⟩
    simp [hx]
  · rw [if_neg hx] at he
    cases he
    exact Or.inr ⟨rfl, fun s hg => hx ((hd () s).mp hg).1⟩

theorem openProxy_eq {proxy : List UInt8} {uri : ProxyUri} (huri : IsUri proxy uri)
    (hconnects : session.connects = true) : openProxy T fuel settings session uri =
      if h : settings.host.1.length < niMaxHost then
        (connect T fuel ⟨some ⟨settings.host, h⟩, proxyPort settings, false,
          some (connectorOf uri.scheme), session.net⟩).map fun done =>
            if done.1 = 0 then .error (.dies "Proxy connection failed") else .ok (.proxied done.2)
      else some (.error .faults) := by
  by_cases hlen : settings.host.1.length < niMaxHost <;>
    simp [openProxy, hconnects, proxyContext_eq huri, hlen]

theorem openProxy_ok {proxy : List UInt8} {uri : ProxyUri} {r : Except End (Link τ)}
    (huri : IsUri proxy uri) (h : openProxy T fuel settings session uri = some r) :
    r = .ok link ↔ session.connects = true ∧ ∃ (hlen : settings.host.1.length < niMaxHost) (s : τ),
      Granted T ⟨settings.host, hlen⟩ (proxyPort settings) (connectorOf uri.scheme) session.net s ∧
      link = .proxied ⟨some ⟨settings.host, hlen⟩, proxyPort settings, true,
        some (connectorOf uri.scheme), s⟩ := by
  cases hconnects : session.connects with
  | false =>
      rw [openProxy, if_pos hconnects] at h
      cases h
      simp
  | true =>
      rw [openProxy_eq huri hconnects] at h
      split_ifs at h with hlen
      · obtain ⟨⟨n, ctx⟩, hconnect, rfl⟩ := Option.map_eq_some_iff.mp h
        obtain ⟨rfl, hctx, hgranted⟩ | ⟨rfl, hgranted⟩ := connect_some rfl rfl hconnect
        · constructor
          · intro he
            cases he
            exact ⟨rfl, hlen, ctx.net, (hgranted ctx.net).mpr rfl, congrArg Link.proxied hctx⟩
          · rintro ⟨-, _, s, hs, rfl⟩
            obtain rfl := (hgranted s).mp hs
            exact congrArg (fun ctx => Except.ok (Link.proxied ctx)) hctx
        · refine iff_of_false (by simp) ?_
          rintro ⟨-, _, s, hs, -⟩
          exact hgranted s hs
      · cases h
        refine iff_of_false (by simp) ?_
        rintro ⟨-, hlen', -⟩
        exact hlen hlen'

theorem openProxy_faults {proxy : List UInt8} {uri : ProxyUri} (huri : IsUri proxy uri) :
    openProxy T fuel settings session uri = some (.error .faults) ↔
      session.connects = true ∧ niMaxHost ≤ settings.host.1.length := by
  cases hconnects : session.connects with
  | false => simp [openProxy, hconnects]
  | true =>
      rw [openProxy_eq huri hconnects]
      split_ifs with hlen
      · refine iff_of_false (fun h => ?_) (fun h => Nat.not_le.mpr hlen h.2)
        obtain ⟨done, -, he⟩ := Option.map_eq_some_iff.mp h
        split_ifs at he
        cases he
      · exact iff_of_true rfl ⟨rfl, Nat.not_lt.mp hlen⟩

theorem dial_ok {r : Except End (Link τ)} (h : dial T fuel settings session = some r) :
    r = .ok link ↔ session.connects = true ∧ Linked T settings session link := by
  rw [dial] at h
  cases hproxy : settings.proxy with
  | none =>
      rw [hproxy] at h
      obtain rfl := Option.some.inj h
      constructor
      · intro he
        split_ifs at he with hconnects
        cases he
        exact ⟨hconnects, .direct hproxy⟩
      · rintro ⟨hconnects, hlinked⟩
        cases hlinked with
        | direct => rw [if_pos hconnects]
        | proxied hsome => cases hproxy.symm.trans hsome
  | some proxy =>
      rw [hproxy] at h
      dsimp only at h
      cases huri : parseProxyUri proxy.1 with
      | error message =>
          rw [huri] at h
          cases h
          refine iff_of_false (fun he => nomatch he) ?_
          rintro ⟨-, hlinked⟩
          cases hlinked with
          | direct hnone => cases hproxy.symm.trans hnone
          | proxied hsome huri' =>
              obtain rfl := Option.some.inj (hproxy.symm.trans hsome)
              cases huri.symm.trans (parseProxyUri_iff.mpr huri')
      | ok uri =>
          rw [huri] at h
          rw [openProxy_ok (parseProxyUri_iff.mp huri) h]
          refine and_congr_right fun _ => ?_
          constructor
          · rintro ⟨hlen, s, hgranted, rfl⟩
            exact .proxied hproxy (parseProxyUri_iff.mp huri) hlen hgranted
          · intro hlinked
            cases hlinked with
            | direct hnone => cases hproxy.symm.trans hnone
            | proxied hsome huri' hlen hgranted =>
                obtain rfl := Option.some.inj (hproxy.symm.trans hsome)
                obtain rfl := Except.ok.inj (huri.symm.trans (parseProxyUri_iff.mpr huri'))
                exact ⟨hlen, _, hgranted, rfl⟩

theorem dial_faults : dial T fuel settings session = some (.error .faults) ↔
    session.connects = true ∧ ∃ proxy uri, settings.proxy = some proxy ∧ IsUri proxy.1 uri ∧
      niMaxHost ≤ settings.host.1.length := by
  rw [dial]
  cases hproxy : settings.proxy with
  | none =>
      refine iff_of_false (fun h => ?_) (fun ⟨_, _, _, hsome, _⟩ => nomatch hsome)
      dsimp only at h
      split_ifs at h <;> cases h
  | some proxy =>
      dsimp only
      cases huri : parseProxyUri proxy.1 with
      | error message =>
          refine iff_of_false (fun h => nomatch h) ?_
          rintro ⟨-, _, uri, hsome, huri', -⟩
          obtain rfl := Option.some.inj hsome
          cases huri.symm.trans (parseProxyUri_iff.mpr huri')
      | ok uri =>
          dsimp only
          rw [openProxy_faults (parseProxyUri_iff.mp huri)]
          refine and_congr_right fun _ => ⟨fun hlen => ⟨proxy, uri, rfl, parseProxyUri_iff.mp huri, hlen⟩, ?_⟩
          rintro ⟨-, -, -, -, hlen⟩
          exact hlen

theorem dial_error : dial T fuel settings session ≠ some (.error (.tells t)) := by
  intro h
  rw [dial] at h
  split at h
  · split_ifs at h <;> cases h
  · split at h
    · cases h
    · rw [openProxy] at h
      dsimp only at h
      split_ifs at h
      · cases h
      · cases h
      · obtain ⟨done, -, he⟩ := Option.map_eq_some_iff.mp h
        split_ifs at he
        cases he

theorem header_returns {u v : τ} (h : Header T u v) : ∃ fuel, header T fuel u = some (some (), v) := by
  suffices hskip : ∃ fuel, ProxyBio.skipHeader T fuel u = some (true, v) by
    obtain ⟨fuel, hskip⟩ := hskip
    exact ⟨fuel, by simp [header, hskip]⟩
  induction h with
  | done hl hc => exact ⟨1, by simp [ProxyBio.skipHeader, sockGets_some.mpr hl, hc]⟩
  | more hl hc _ ih =>
      obtain ⟨fuel, hskip⟩ := ih
      exact ⟨fuel + 1, by simp [ProxyBio.skipHeader, sockGets_some.mpr hl, hc, hskip]⟩

theorem talk_returns {u v : τ} (h : Granted T host port c u v) :
    ∃ fuel, talk T host port fuel c u = some (some (), v) := by
  cases h with
  | socks4a ht hr hok =>
      exact ⟨0, bind_step (tell_told ht) (bind_step (hear_heard hr) (guard_true hok _))⟩
  | socks5 hlen ht hm hok ht' hr hok' ha =>
      refine ⟨0, bind_step (guard_true hlen _) (bind_step (tell_told ht) (bind_step (hear_heard hm)
        (bind_step (guard_true hok _) (bind_step (tell_told ht') (bind_step (hear_heard hr)
          (bind_step (guard_true hok' _) ?_))))))⟩
      rw [address, socks5Address_true.mpr ha]
      rfl
  | http h₁ h₂ h₃ hl hs hok hh =>
      obtain ⟨fuel, hheader⟩ := header_returns hh
      have hline : getLine T _ = some (some _, _) := congrArg some (sockGets_some.mpr hl)
      exact ⟨fuel, bind_step (tell_told h₁) (bind_step (tell_told h₂) (bind_step (tell_told h₃)
        (bind_step hline (bind_step (guard_true ⟨_, hs, hok⟩ _) hheader))))⟩

theorem dial_returns (hconnects : session.connects = true) (hlinked : Linked T settings session link) :
    ∃ fuel, dial T fuel settings session = some (.ok link) := by
  cases hlinked with
  | direct hproxy => exact ⟨0, by simp [dial, hproxy, hconnects]⟩
  | proxied hproxy huri hlen hgranted =>
      obtain ⟨fuel, htalk⟩ := talk_returns hgranted
      refine ⟨fuel, ?_⟩
      simp only [dial, hproxy, parseProxyUri_iff.mpr huri, openProxy_eq huri hconnects, hlen, dif_pos,
        connect, htalk, Option.map_some, if_pos]
      rfl

theorem free_linked (hlinked : Linked T settings session link) : proxyPolarsslFree session link t =
    if settings.proxy = none ∧ session.nullHost = false then .faults else .tells t := by
  cases hlinked with
  | direct hproxy => cases hnull : session.nullHost <;> simp [proxyPolarsslFree, hproxy, hnull]
  | proxied hproxy => simp [proxyPolarsslFree, hproxy]

theorem free_tells (hlinked : Linked T settings session link)
    (hfreed : settings.proxy = none → session.nullHost = true) :
    proxyPolarsslFree session link t = .tells t := by
  rw [free_linked hlinked, if_neg]
  rintro ⟨hproxy, hnull⟩
  rw [hfreed hproxy] at hnull
  cases hnull

theorem runSsl_end {e : End} (he : ∀ message, e ≠ .dies message) :
    runSsl T fuel build settings session = some e ↔ Ready settings session ∧
      (dial T fuel settings session = some (.error e) ∨
        ∃ link, dial T fuel settings session = some (.ok link) ∧
          converse build settings session link = some e) := by
  rw [runSsl]
  cases hprepare : prepare settings session with
  | error message =>
      refine iff_of_false (fun h => he message (Option.some.inj h).symm) ?_
      rintro ⟨hready, -⟩
      cases hprepare.symm.trans (prepare_ok.mpr hready)
  | ok =>
      constructor
      · intro h
        refine ⟨prepare_ok.mp hprepare, ?_⟩
        obtain ⟨r, hdial, h⟩ := Option.bind_eq_some_iff.mp h
        cases r with
        | error e' =>
            obtain rfl := Option.some.inj h
            exact Or.inl hdial
        | ok link => exact Or.inr ⟨link, hdial, h⟩
      · rintro ⟨-, hdial | ⟨link, hdial, h⟩⟩
        · exact Option.bind_eq_some_iff.mpr ⟨_, hdial, rfl⟩
        · exact Option.bind_eq_some_iff.mpr ⟨_, hdial, h⟩

theorem runSsl_tells {e : End} (h : runSsl T fuel build settings session = some e) :
    e = .tells t ↔ Authentic T build settings session t := by
  constructor
  · rintro rfl
    obtain ⟨hready, hdial | ⟨link, hdial, h⟩⟩ := (runSsl_end (by simp)).mp h
    · exact absurd hdial dial_error
    · obtain ⟨hconnects, hlinked⟩ := (dial_ok hdial).mp rfl
      obtain ⟨t', hvouched, ht⟩ := (converse_end (by simp)).mp h
      rw [free_linked hlinked] at ht
      split_ifs at ht with hfree
      obtain rfl := End.tells.inj ht
      exact ⟨hready, hconnects, ⟨link, hlinked⟩, hvouched, fun hproxy => by simpa [hproxy] using hfree⟩
  · rintro ⟨hready, hconnects, ⟨link, hlinked⟩, hvouched, hfreed⟩
    rw [runSsl, prepare_ok.mpr hready] at h
    obtain ⟨r, hdial, h⟩ := Option.bind_eq_some_iff.mp h
    obtain rfl := (dial_ok hdial).mpr ⟨hconnects, hlinked⟩
    have hend : converse build settings session link = some (.tells t) :=
      (converse_end (by simp)).mpr ⟨t, hvouched, (free_tells hlinked hfreed).symm⟩
    exact Option.some.inj (h.symm.trans hend)

theorem runSsl_faults : (∃ fuel, runSsl T fuel build settings session = some .faults) ↔
    Undefined build settings session := by
  constructor
  · rintro ⟨fuel, h⟩
    obtain ⟨hready, hdial | ⟨link, hdial, h⟩⟩ := (runSsl_end (by simp)).mp h
    · obtain ⟨hconnects, hlong⟩ := dial_faults.mp hdial
      exact ⟨hready, hconnects, Or.inl hlong⟩
    · obtain ⟨hconnects, hlinked⟩ := (dial_ok hdial).mp rfl
      obtain ⟨t, hvouched, ht⟩ := (converse_end (by simp)).mp h
      rw [free_linked hlinked] at ht
      split_ifs at ht with hfree
      exact ⟨hready, hconnects, Or.inr ⟨hfree.1, hfree.2, t, hvouched⟩⟩
  · rintro ⟨hready, hconnects, hlong | ⟨hproxy, hnull, t, hvouched⟩⟩
    · exact ⟨0, (runSsl_end (by simp)).mpr ⟨hready, Or.inl (dial_faults.mpr ⟨hconnects, hlong⟩)⟩⟩
    · have hlinked : Linked T settings session (.direct session.net) := .direct hproxy
      obtain ⟨fuel, hdial⟩ := dial_returns hconnects hlinked
      refine ⟨fuel, (runSsl_end (by simp)).mpr ⟨hready, Or.inr ⟨_, hdial, ?_⟩⟩⟩
      refine (converse_end (by simp)).mpr ⟨t, hvouched, ?_⟩
      rw [free_linked hlinked, if_pos ⟨hproxy, hnull⟩]

theorem runSsl_returns (h : Authentic T build settings session t) :
    ∃ fuel, runSsl T fuel build settings session = some (.tells t) := by
  obtain ⟨link, hlinked⟩ := h.linked
  obtain ⟨fuel, hdial⟩ := dial_returns h.connects hlinked
  refine ⟨fuel, (runSsl_end (by simp)).mpr ⟨h.ready, Or.inr ⟨link, hdial, ?_⟩⟩⟩
  exact (converse_end (by simp)).mpr ⟨t, h.vouched, (free_tells hlinked h.freed).symm⟩

/-- The child for a session leaves just the times that an authentic peer tells, and its
behaviour is undefined just where a host is too long for the proxy layer, or where the checks
are passed without a proxy. -/
theorem session_ends (t : UInt32) :
    ((∃ fuel, runSsl T fuel build settings session = some (.tells t)) ↔
      Authentic T build settings session t) ∧
    ((∃ fuel, runSsl T fuel build settings session = some .faults) ↔
      Undefined build settings session) :=
  ⟨⟨fun ⟨_, h⟩ => (runSsl_tells h).mp rfl, runSsl_returns⟩, runSsl_faults⟩

end Dial

section Traffic

variable {τ : Type} {T : Transport τ} {fuel : Nat} {settings : Settings} {session : Session τ}
variable {link link' : Link τ} {call : Call} {calls : List Call} {out : List Exchange}

def Link.Open : Link τ → Prop
  | .direct _ => True
  | .proxied ctx => ctx.connected = true

def Plain (x : Exchange) : Prop := x.handshake = none ∧ (0 < x.result → x.result = x.moved.length)

theorem transfer_plain {ctx ctx' : ProxyPolarsslCtx τ} {size : Nat} {io : Io τ} {x : Exchange}
    (hopen : ctx.connected = true) (hio : Exact io)
    (h : transfer T fuel size io ctx = some (x, ctx')) : Plain x ∧ ctx'.connected = true := by
  rw [transfer, if_pos hopen] at h
  cases h
  exact ⟨⟨rfl, hio ctx.net⟩, hopen⟩

theorem step_plain {o : List Exchange} (hopen : link.Open)
    (h : step T fuel link call = some (link', o)) : link'.Open ∧ ∃ x, o = [x] ∧ Plain x := by
  cases link with
  | direct net =>
      cases h
      refine ⟨trivial, _, rfl, rfl, ?_⟩
      cases call with
      | send data => exact fSend_exact data net
      | recv len => exact fRecv_exact len net
  | proxied ctx =>
      obtain ⟨⟨ctx', o'⟩, hs, he⟩ := Option.map_eq_some_iff.mp h
      cases he
      cases call with
      | send data =>
          obtain ⟨⟨x, ctx''⟩, hx, he⟩ := Option.map_eq_some_iff.mp hs
          cases he
          obtain ⟨hplain, hopen'⟩ := transfer_plain hopen (fSend_exact data) hx
          exact ⟨hopen', x, rfl, hplain⟩
      | recv len =>
          obtain ⟨⟨x, ctx''⟩, hx, he⟩ := Option.map_eq_some_iff.mp hs
          cases he
          obtain ⟨hplain, hopen'⟩ := transfer_plain hopen (fRecv_exact len) hx
          exact ⟨hopen', x, rfl, hplain⟩

theorem Linked.open (h : Linked T settings session link) : link.Open := by
  cases h with
  | direct => trivial
  | proxied => rfl

/-- Whatever PolarSSL calls in a session that has its connection, the proxy has granted it
before, is not talked to again, and each result counts the bytes that were moved. -/
theorem traffic_granted (hdial : dial T fuel settings session = some (.ok link))
    (hr : Machine.Run (step T fuel) Machine.Free link calls link' out) :
    Linked T settings session link ∧ ∀ x ∈ out, Plain x := by
  have hlinked := ((dial_ok hdial).mp rfl).2
  refine ⟨hlinked, (hr.history (fun link out => link.Open ∧ ∀ x ∈ out, Plain x)
    ⟨hlinked.open, fun _ hm => nomatch hm⟩ ?_).2⟩
  rintro link call link' o out ⟨hopen, hout⟩ - hs
  obtain ⟨hopen', x, rfl, hx⟩ := step_plain hopen hs
  exact ⟨hopen', List.forall_mem_append.mpr ⟨hout, List.forall_mem_singleton.mpr hx⟩⟩

def relayed : Settings :=
  { SslSession.leaping with
    leap := false
    proxy := some ⟨ascii "socks4://127.0.0.1:9050", by decide⟩ }

def greeting : Session Stream where
  container := some .directory
  drbg := true
  init := true
  connects := true
  net := ⟨[0x00, 0x5a, 0, 0, 0, 0, 0, 0, 0x16, 0x03], []⟩
  returns := [⟨0, false, fun _ => 0⟩, ⟨0, true, fun _ => 0⟩,
    ⟨0, false, fun i => [0x53, 0x72, 0x4E, 0x00].getD (i - 6) 0⟩, ⟨errNetWantRead, false, fun _ => 0⟩,
    ⟨0, false, fun _ => 0⟩]
  verifyResult := 0
  certificate := some (2 ^ minPubKeyLen)
  nullHost := false

def carried (settings : Settings) (session : Session Stream) (calls : List Call) :
    Option (List Exchange) :=
  (dial stream 0 settings session).bind fun
    | .error _ => none
    | .ok link => (Machine.exec (step stream 0) link calls).map (·.2)

theorem traffic_granted_greeting : ∃ link, dial stream 0 relayed greeting = some (.ok link) ∧
    Linked stream relayed greeting link ∧
    ∀ x ∈ ([⟨none, 3, [0x16, 0x03, 0x01], 3⟩, ⟨none, 5, [0x16, 0x03], 2⟩] : List Exchange), Plain x := by
  have hx : carried relayed greeting [.send [0x16, 0x03, 0x01], .recv 5] =
      some [⟨none, 3, [0x16, 0x03, 0x01], 3⟩, ⟨none, 5, [0x16, 0x03], 2⟩] := by decide +kernel
  obtain ⟨r, hdial, hx⟩ := Option.bind_eq_some_iff.mp hx
  cases r with
  | error e => cases hx
  | ok link =>
      obtain ⟨⟨link', out⟩, hx, rfl⟩ := Option.map_eq_some_iff.mp hx
      exact ⟨link, hdial, traffic_granted hdial (.of_exec hx)⟩

end Traffic

section Clock

open HelperClock (Flags World)
open SslSession (Checked main_sets)

variable {τ : Type} {T : Transport τ} {fuel : Nat} {build : Build} {settings : Settings}
variable {session : Session τ} {e : End} {left : Except String UInt32} {flags : Flags}

/-- The word is read as it is, so that the byte order of the machine has no part in it. -/
theorem clock_told (h : runSsl T fuel build settings session = some e) (hleft : e.child = some left)
    (world : World) (time : HelperClock.Timespec) :
    time ∈ (HelperClock.main build flags { world with child := left }).1 ↔
      time ∈ (HelperClock.warp build flags world).1 ∨
        ∃ start stop t, (HelperClock.warp build flags world).2 = .ok start ∧
          world.stop = some stop ∧ Authentic T build settings session t ∧
          Checked build flags start.toTimespec stop.toTimespec t time := by
  have hchild (t : UInt32) : left = .ok t ↔ Authentic T build settings session t := by
    rw [← runSsl_tells h]
    cases e with
    | dies message =>
        obtain rfl := Option.some.inj hleft
        simp
    | faults => cases hleft
    | tells t' =>
        obtain rfl := Option.some.inj hleft
        simp
  simp only [main_sets, hchild]
  rfl

def spared : Session Stream := { greeting with nullHost := true }

theorem spared_authentic :
    Authentic stream TimeSource.fallbackBuild { relayed with proxy := none } spared 1400000000 where
  ready := ⟨fun _ => Or.inr rfl, rfl, rfl⟩
  connects := rfl
  linked := ⟨_, .direct rfl⟩
  vouched :=
    { told := ⟨_, shaken_iff.mpr ⟨_, rfl, rfl⟩, by decide +kernel⟩
      sane := by decide +kernel
      verified := fun _ => rfl
      key := ⟨_, rfl, le_rfl⟩ }
  freed _ := rfl

theorem clock_told_spared : ∃ start stop t,
    (HelperClock.warp TimeSource.fallbackBuild HelperClock.setting SslSession.prompt).2 = .ok start ∧
      SslSession.prompt.stop = some stop ∧
      Authentic stream TimeSource.fallbackBuild { relayed with proxy := none } spared t ∧
      Checked TimeSource.fallbackBuild HelperClock.setting start.toTimespec stop.toTimespec t
        ⟨1400000000, 0⟩ := by
  obtain ⟨fuel, h⟩ := runSsl_returns spared_authentic
  have hset := (@clock_told _ _ _ _ _ _ _ _ HelperClock.setting h rfl SslSession.prompt
    ⟨1400000000, 0⟩).mp (by decide +kernel)
  exact hset.resolve_left (by decide +kernel)

end Clock

end Tlsdate.PolarsslSession
