import Tlsdate.PacAgreement
import Tlsdate.ProxyGuard
import Tlsdate.ProxyPolarssl

namespace Tlsdate.ProxySetup

open ByteStream ProxyBio PacProxy

def atoi (s : List UInt8) : Int := (scanInt s).getD 0

/-- What `setup_proxy` leaves: the proxy BIO, if there is one, and the host and
port that the connect BIO below it is for. -/
structure Setup where
  proxy : Option ProxyCtx
  host : List UInt8
  port : List UInt8

/-- The results of the setters are ignored. An error is the message that the
helper dies with. -/
def setupProxy (proxy : Option CString) (host port : CString) : Except String Setup :=
  match proxy with
  | none => .ok ⟨none, host.1, port.1⟩
  | some proxy => do
      let uri ← parseProxyUri proxy.1
      let ctx := (setType (text uri.scheme) proxyNew).2
      let ctx := (setHost host ctx).2
      let ctx := setPort (UInt16.ofInt (atoi port.1)) ctx
      return ⟨some ctx, uri.host, uri.port⟩

def Usable (ctx : ProxyCtx) : Prop := ctx.connect.isSome = true ∧ ctx.host.isSome = true

/-- `setup_proxy` leaves a proxy BIO, and whatever is called on it, over any
transport, its connector and its host are there. -/
def StaysUsable (setup : Except String Setup) : Prop :=
  ∃ ctx host port, setup = .ok ⟨some ctx, host, port⟩ ∧
    ∀ (τ : Type) (T : Transport τ) (fuel : Nat) (next : τ) (p : Proxy τ) (calls : List Call)
      (marks : List Mark), Machine.Run (step T fuel) Machine.Free ⟨ctx, next⟩ calls p marks →
        Usable p.ctx

section Calls

variable {τ : Type} {T : Transport τ} {fuel : Nat}

theorem connect_keeps {c : Connector} {host : Host} {ctx : ProxyCtx} {t : τ}
    {done : Int × ProxyCtx × τ} (h : connect T fuel c host ctx t = some done) :
    done.2.1.connect = ctx.connect ∧ done.2.1.host = ctx.host := by
  obtain ⟨-, he, -⟩ | ⟨-, he, -⟩ | ⟨-, he, -⟩ := ProxyGuard.connect_outcome h <;> rw [he] <;>
    exact ⟨rfl, rfl⟩

theorem establish_keeps {p p' : Proxy τ} {go : Bool} {ms : List Mark}
    (h : establish T fuel p = some (go, ms, p')) :
    p'.ctx.connect = p.ctx.connect ∧ p'.ctx.host = p.ctx.host := by
  rw [establish] at h
  split at h
  next =>
    cases h
    exact ⟨rfl, rfl⟩
  next =>
    split at h
    next =>
      obtain ⟨done, hdone, he⟩ := Option.map_eq_some_iff.mp h
      cases he
      exact connect_keeps hdone
    next => cases h

theorem step_keeps {p p' : Proxy τ} {call : Call} {o : List Mark}
    (hs : step T fuel p call = some (p', o)) :
    p'.ctx.connect = p.ctx.connect ∧ p'.ctx.host = p.ctx.host := by
  cases call with
  | write buf =>
      simp only [step, proxyWrite] at hs
      split at hs
      next =>
        cases hs
        exact ⟨rfl, rfl⟩
      next =>
        obtain ⟨done, hd, he⟩ := Option.map_eq_some_iff.mp hs
        obtain ⟨⟨go, ms, q⟩, hg, rfl⟩ := Option.map_eq_some_iff.mp hd
        have hkeep := establish_keeps hg
        cases go <;> cases he <;> exact hkeep
  | read sz =>
      simp only [step, proxyRead] at hs
      obtain ⟨done, hd, he⟩ := Option.map_eq_some_iff.mp hs
      obtain ⟨⟨go, ms, q⟩, hg, rfl⟩ := Option.map_eq_some_iff.mp hd
      have hkeep := establish_keeps hg
      cases go <;> cases he <;> exact hkeep

theorem run_usable {p₀ p : Proxy τ} {calls : List Call} {marks : List Mark}
    (hr : Machine.Run (step T fuel) Machine.Free p₀ calls p marks) (h₀ : Usable p₀.ctx) :
    Usable p.ctx := by
  refine hr.invariant (fun p => Usable p.ctx) h₀ ?_
  intro s e s' o hi _ hs
  obtain ⟨hc, hh⟩ := step_keeps hs
  rwa [Usable, hc, hh]

end Calls

theorem validateProxyScheme_ok {scheme : List UInt8} (h : validateProxyScheme scheme = .ok ()) :
    scheme = ascii "http" ∨ scheme = ascii "socks4" ∨ scheme = ascii "socks5" := by
  rw [validateProxyScheme] at h
  split_ifs at h with h₁ h₂ h₃
  · exact Or.inl h₁
  · exact Or.inr (Or.inl h₂)
  · exact Or.inr (Or.inr h₃)

theorem parseProxyUri_scheme {proxy : List UInt8} {uri : ProxyUri}
    (h : parseProxyUri proxy = .ok uri) : validateProxyScheme uri.scheme = .ok () := by
  obtain ⟨-, -, -, hscheme, -⟩ := parseProxyUri_ok.mp h
  exact hscheme

theorem setScheme_accepts {scheme : List UInt8} (h : validateProxyScheme scheme = .ok ())
    {τ : Type} (ctx : ProxyPolarssl.ProxyPolarsslCtx τ) :
    (ProxyPolarssl.setScheme (text scheme) ctx).1 = 0 := by
  obtain rfl | rfl | rfl := validateProxyScheme_ok h <;> rfl

theorem setType_connect {scheme : List UInt8} (h : validateProxyScheme scheme = .ok ()) :
    (setType (text scheme) proxyNew).2.connect.isSome = true ↔ scheme ≠ ascii "socks4" := by
  obtain rfl | rfl | rfl := validateProxyScheme_ok h <;> decide

theorem setHost_host {host : CString} {ctx : ProxyCtx} (hctx : ctx.host = none) :
    (setHost host ctx).2.host.isSome = true ↔ host.1.length < niMaxHost := by
  rw [setHost]
  split_ifs with h
  · simp [h]
  · simp [hctx, h]

theorem setHost_connect (host : CString) (ctx : ProxyCtx) :
    (setHost host ctx).2.connect = ctx.connect := by
  rw [setHost]
  split_ifs <;> rfl

theorem setType_host (type : String) : (setType type proxyNew).2.host = none := by
  rw [setType]
  split_ifs <;> rfl

theorem staysUsable_iff {ctx : ProxyCtx} {host port : List UInt8} :
    StaysUsable (.ok ⟨some ctx, host, port⟩) ↔ Usable ctx := by
  constructor
  · rintro ⟨ctx', host', port', he, hruns⟩
    obtain rfl : ctx = ctx' := by simpa using (Setup.mk.inj (Except.ok.inj he)).1
    exact hruns Stream stream 0 ⟨[], []⟩ _ [] [] .nil
  · intro h
    exact ⟨ctx, host, port, rfl, fun _ _ _ _ _ _ _ hr => run_usable hr h⟩

/-- The scheme that BIO_proxy_set_type knows by another name and the hosts that
BIO_proxy_set_host refuses leave a proxy that cannot be used. -/
theorem setupProxy_usable {proxy : CString} {uri : ProxyUri}
    (huri : parseProxyUri proxy.1 = .ok uri) (host port : CString) :
    StaysUsable (setupProxy (some proxy) host port) ↔
      uri.scheme ≠ ascii "socks4" ∧ host.1.length < niMaxHost := by
  have hscheme := parseProxyUri_scheme huri
  have hrun : setupProxy (some proxy) host port = .ok ⟨some (setPort (UInt16.ofInt (atoi port.1))
      (setHost host (setType (text uri.scheme) proxyNew).2).2), uri.host, uri.port⟩ := by
    rw [setupProxy, huri]
    rfl
  rw [hrun, staysUsable_iff]
  refine and_congr ?_ (setHost_host (setType_host _))
  rw [← setType_connect hscheme, ← setHost_connect host (setType (text uri.scheme) proxyNew).2]
  rfl

theorem nul_notMem_port : (0 : UInt8) ∉ ascii "443" := by decide

theorem nul_notMem_socks4 : (0 : UInt8) ∉ ascii "socks4://127.0.0.1:9050" := by decide

theorem nul_notMem_socks5 : (0 : UInt8) ∉ ascii "socks5://127.0.0.1:9050" := by decide

def httpsPort : CString := ⟨ascii "443", nul_notMem_port⟩

def socks4Proxy : CString := ⟨ascii "socks4://127.0.0.1:9050", nul_notMem_socks4⟩

def socks5Proxy : CString := ⟨ascii "socks5://127.0.0.1:9050", nul_notMem_socks5⟩

theorem socks5_usable :
    StaysUsable (setupProxy (some socks5Proxy) ProxyGuard.shortHost.name httpsPort) := by
  have huri : parseProxyUri socks5Proxy.1 =
      .ok ⟨ascii "socks5", ascii "127.0.0.1", ascii "9050"⟩ := rfl
  exact (setupProxy_usable huri _ _).mpr (by decide)

/-- A proxy of the third scheme is accepted, and the first write to it runs into
the assertion. -/
theorem socks4_unusable :
    parseProxyUri socks4Proxy.1 = .ok ⟨ascii "socks4", ascii "127.0.0.1", ascii "9050"⟩ ∧
      ∃ ctx host port, setupProxy (some socks4Proxy) ProxyGuard.shortHost.name httpsPort =
          .ok ⟨some ctx, host, port⟩ ∧ ctx.connect = none ∧
        proxyWrite stream 0 [1] ⟨ctx, ⟨[], []⟩⟩ = none :=
  ⟨rfl, _, _, _, rfl, rfl, rfl⟩

end Tlsdate.ProxySetup
