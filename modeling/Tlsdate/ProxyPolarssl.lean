import Tlsdate.ProxyBio
import Tlsdate.Dialogue

namespace Tlsdate.ProxyPolarssl

open ByteStream Dialogue
open ProxyBio (Host CString Connector niMaxHost socks4aPacket socks5Hello socks5Packet httpRequest
  httpHost crlf cString statusCode socks5Address sockGets skipHeader ioCode)

/-- `proxy_polarssl_ctx`; `net` is the state behind `p_recv` and `p_send`. -/
structure ProxyPolarsslCtx (τ : Type) where
  host : Option Host
  port : UInt16
  connected : Bool
  fConnect : Option Connector
  net : τ

variable {τ : Type}

def init (net : τ) : ProxyPolarsslCtx τ := ⟨none, 0, false, none, net⟩

def setScheme (scheme : String) (ctx : ProxyPolarsslCtx τ) : Int × ProxyPolarsslCtx τ :=
  if scheme = "socks5" then (0, { ctx with fConnect := some .socks5 })
  else if scheme = "socks4" then (0, { ctx with fConnect := some .socks4a })
  else if scheme = "http" then (0, { ctx with fConnect := some .http })
  else (1, ctx)

def setHost (host : CString) (ctx : ProxyPolarsslCtx τ) : Int × ProxyPolarsslCtx τ :=
  if h : host.1.length < niMaxHost then (0, { ctx with host := some ⟨host, h⟩ }) else (1, ctx)

def setPort (port : UInt16) (ctx : ProxyPolarsslCtx τ) : ProxyPolarsslCtx τ :=
  { ctx with port := port }

variable (T : Transport τ)

section Connectors

variable (host : Host) (port : UInt16)

def socks4aConnect : Talk τ Unit := do
  tell T (socks4aPacket host port)
  -- server reply: 1 + 1 + 2 + 4
  let buf ← hear T 8
  guard (buf[1]? = some 0x5a)

def address (atyp : UInt8) : Talk τ Unit := fun t =>
  some (if (socks5Address T atyp t).1 then some () else none, (socks5Address T atyp t).2)

def socks5Connect : Talk τ Unit := do
  guard (host.name.1.length < 256)
  tell T socks5Hello
  let buf ← hear T 2
  guard (buf[0]? = some 0x05 ∧ buf[1]? = some 0x00)
  tell T (socks5Packet host port)
  -- grab up through the addr type
  let buf ← hear T 4
  guard (buf[0]? = some 0x05 ∧ buf[1]? = some 0x00)
  address T (buf.getD 3 0)

def getLine : Talk τ (List UInt8) := fun t => some (sockGets T 4096 t)

def header (fuel : Nat) : Talk τ Unit := fun t =>
  (skipHeader T fuel t).map fun done => (if done.1 then some () else none, done.2)

def httpConnect (fuel : Nat) : Talk τ Unit := do
  tell T (httpRequest host port)
  -- required by RFC 2616 14.23
  tell T (httpHost host port)
  tell T crlf
  let buf ← getLine T
  guard (∃ retcode ∈ statusCode buf, 200 ≤ retcode ∧ retcode ≤ 299)
  header T fuel

def talk (fuel : Nat) (c : Connector) : Talk τ Unit :=
  match c with
  | .socks4a => socks4aConnect T host port
  | .socks5 => socks5Connect T host port
  | .http => httpConnect T host port fuel

end Connectors

/-- The call of `f_connect`: every connector sets `connected` where it returns 1
and returns 0 from everywhere else. -/
def connect (fuel : Nat) (ctx : ProxyPolarsslCtx τ) : Option (Int × ProxyPolarsslCtx τ) :=
  match ctx.fConnect, ctx.host with
  | some c, some host => (talk T host ctx.port fuel c ctx.net).map fun done =>
      if done.1 = some () then (1, { ctx with connected := true, net := done.2 })
      else (0, { ctx with net := done.2 })
  | _, _ => none

/-- A call of `f_recv` or `f_send` for the caller: its return value, the bytes
it moved and the transport afterwards. -/
abbrev Io (τ : Type) := τ → Int × List UInt8 × τ

def fSend (data : List UInt8) : Io τ := fun t =>
  (ioCode (T.send t data).1, data.take ((T.send t data).1.getD 0), (T.send t data).2)

def fRecv (len : Nat) : Io τ := fun t =>
  (ioCode ((T.recv t len).1.map List.length), (T.recv t len).1.getD [], (T.recv t len).2)

/-- What one call of the proxy layer came to: the return value of `f_connect`
if it was called, how many bytes of the caller `f_recv` or `f_send` was asked to
move, the bytes they moved, and the return value. -/
structure Exchange where
  handshake : Option Int
  asked : Nat
  moved : List UInt8
  result : Int
  deriving DecidableEq, Repr

def finish (handshake : Option Int) (size : Nat) (io : Io τ) (ctx : ProxyPolarsslCtx τ) :
    Exchange × ProxyPolarsslCtx τ :=
  let r := io ctx.net
  (⟨handshake, size, r.2.1, r.1⟩, { ctx with net := r.2.2 })

/-- The body that `proxy_polarssl_recv` and `proxy_polarssl_send` share: unlike
`proxy_write`, it returns where the connector did not return 0. -/
def transfer (fuel : Nat) (size : Nat) (io : Io τ) (ctx : ProxyPolarsslCtx τ) :
    Option (Exchange × ProxyPolarsslCtx τ) :=
  if ctx.connected then some (finish none size io ctx)
  else
    (connect T fuel ctx).map fun done =>
      if done.1 ≠ 0 then (⟨some done.1, 0, [], done.1⟩, done.2)
      else finish (some done.1) size io done.2

def proxyPolarsslRecv (fuel : Nat) (len : Nat) (ctx : ProxyPolarsslCtx τ) :
    Option (Exchange × ProxyPolarsslCtx τ) :=
  transfer T fuel len (fRecv T len) ctx

def proxyPolarsslSend (fuel : Nat) (data : List UInt8) (ctx : ProxyPolarsslCtx τ) :
    Option (Exchange × ProxyPolarsslCtx τ) :=
  transfer T fuel data.length (fSend T data) ctx

inductive Call
  | send (data : List UInt8)
  | recv (len : Nat)

def Call.size : Call → Nat
  | .send data => data.length
  | .recv len => len

def step (fuel : Nat) : Machine.Step (ProxyPolarsslCtx τ) Call Exchange := fun ctx call =>
  match call with
  | .send data => (proxyPolarsslSend T fuel data ctx).map fun done => (done.2, [done.1])
  | .recv len => (proxyPolarsslRecv T fuel len ctx).map fun done => (done.2, [done.1])

end Tlsdate.ProxyPolarssl
