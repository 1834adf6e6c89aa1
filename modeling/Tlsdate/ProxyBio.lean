import Tlsdate.CInt
import Tlsdate.Machine
import Tlsdate.ByteStream

namespace Tlsdate.ProxyBio

open CInt ByteStream

def niMaxHost : Nat := 1025

abbrev CString := { bs : List UInt8 // (0 : UInt8) ∉ bs }

structure Host where
  name : CString
  short : name.1.length < niMaxHost

inductive Connector
  | socks4a
  | socks5
  | http
  deriving DecidableEq, Repr

/-- `struct proxy_ctx`; pointers that are NULL are none. -/
structure ProxyCtx where
  host : Option Host
  port : UInt16
  connected : Bool
  connect : Option Connector

def proxyNew : ProxyCtx := ⟨none, 0, false, none⟩

def setType (type : String) (ctx : ProxyCtx) : Int × ProxyCtx :=
  if type = "socks5" then (0, { ctx with connect := some .socks5 })
  else if type = "socks4a" then (0, { ctx with connect := some .socks4a })
  else if type = "http" then (0, { ctx with connect := some .http })
  else (1, ctx)

def setHost (host : CString) (ctx : ProxyCtx) : Int × ProxyCtx :=
  if h : host.1.length < niMaxHost then (0, { ctx with host := some ⟨host, h⟩ }) else (1, ctx)

def setPort (port : UInt16) (ctx : ProxyCtx) : ProxyCtx := { ctx with port := port }

def ascii (s : String) : List UInt8 := s.toList.map fun c => UInt8.ofNat c.toNat

def networkPort (port : UInt16) : List UInt8 :=
  [UInt8.ofNat (port.toNat / 256), UInt8.ofNat (port.toNat % 256)]

/-- What `snprintf` leaves in a buffer, without the final NUL. -/
def snprintf (size : Nat) (s : List UInt8) : List UInt8 := s.take (size - 1)

def cString (buf : List UInt8) : List UInt8 := buf.takeWhile (· != 0)

theorem cString_nul (w rest : List UInt8) : cString (w ++ 0 :: rest) = cString w := by
  induction w with
  | nil => rfl
  | cons c w ih =>
      rw [cString, cString, List.cons_append, List.takeWhile_cons, List.takeWhile_cons]
      split_ifs
      · exact congrArg (c :: ·) ih
      · rfl

def crlf : List UInt8 := [13, 10]

section Requests

variable (host : Host) (port : UInt16)

def socks4aPacket : List UInt8 :=
  [0x04, 0x01] ++ networkPort port ++ [0x00, 0x00, 0x00, 0x01] ++ [0x00] ++ host.name.1 ++ [0x00]

def socks5Hello : List UInt8 := [0x05, 0x01, 0x00]

def socks5Packet : List UInt8 :=
  [0x05, 0x01, 0x00, 0x03, UInt8.ofNat host.name.1.length] ++ host.name.1 ++ networkPort port

def httpRequest : List UInt8 :=
  snprintf 4096 (ascii "CONNECT " ++ host.name.1 ++ ascii ":" ++ ascii (toString port.toNat) ++
    ascii " HTTP/1.1\r\n")

def httpHost : List UInt8 :=
  snprintf 4096 (ascii "Host: " ++ host.name.1 ++ ascii ":" ++ ascii (toString port.toNat) ++ crlf)

end Requests

def isSpace (c : UInt8) : Bool := c == 32 || (9 ≤ c && c ≤ 13)

def isDigit (c : UInt8) : Bool := 48 ≤ c && c ≤ 57

def skipSpace (s : List UInt8) : List UInt8 := s.dropWhile isSpace

def decimal (digits : List UInt8) : Nat := digits.foldl (fun n c => 10 * n + (c.toNat - 48)) 0

def scanSign : List UInt8 → Bool × List UInt8
  | 45 :: rest => (true, rest)
  | 43 :: rest => (false, rest)
  | s => (false, s)

/-- The conversion %d of `sscanf`: a `long` that saturates, stored in an `int`. -/
def scanInt (s : List UInt8) : Option Int :=
  let signed := scanSign (skipSpace s)
  match signed.2.takeWhile isDigit with
  | [] => none
  | digits =>
      let n : Int := decimal digits
      some (toInt (if signed.1 then max (-n) (-2 ^ 63) else min n (2 ^ 63 - 1)))

/-- `sscanf (buf, "HTTP/%*s %d", &retcode)`, if it converts one item. -/
def statusCode (buf : List UInt8) : Option Int :=
  let s := cString buf
  if s.take 5 ≠ ascii "HTTP/" then none
  else
    let version := skipSpace (s.drop 5)
    if version.takeWhile (fun c => !isSpace c) = [] then none
    else scanInt (skipSpace (version.dropWhile fun c => !isSpace c))

section Connectors

variable {τ : Type} (T : Transport τ)

def socks4aConnect (host : Host) (ctx : ProxyCtx) (t : τ) : Int × ProxyCtx × τ :=
  let req := socks4aPacket host ctx.port
  match T.send t req with
  | (none, t) => (-1, ctx, t)
  | (some r, t) =>
      if r ≠ req.length then (0, ctx, t)
      else
        -- server reply: 1 + 1 + 2 + 4
        match T.recv t 8 with
        | (none, t) => (-1, ctx, t)
        | (some buf, t) =>
            if buf.length ≠ 8 then (0, ctx, t)
            else if buf[1]? = some 0x5a then (1, { ctx with connected := true }, t)
            else (0, ctx, t)

def skipAddress (len : Nat) (t : τ) : Bool × τ :=
  if len = 0 then (true, t)
  else
    match T.recv t (min len (niMaxHost + 16)) with
    | (none, t) | (some [], t) => (false, t)
    | (some (_ :: bs), t) => skipAddress (len - min len (bs.length + 1)) t
termination_by len
decreasing_by omega

/-- The rest of the reply after the address type. Any type but these two is
taken to have no address at all. -/
def socks5Address (atyp : UInt8) (t : τ) : Bool × τ :=
  if atyp = 0x03 then
    match T.recv t 1 with
    | (some [len], t) => skipAddress T (len.toNat + 2) t
    | (_, t) => (false, t)
  else if atyp = 0x01 then
    match T.recv t 6 with
    | (some buf, t) => (buf.length == 6, t)
    | (none, t) => (false, t)
  else (true, t)

def socks5Request (host : Host) (ctx : ProxyCtx) (t : τ) : Int × ProxyCtx × τ :=
  let req := socks5Packet host ctx.port
  match T.send t req with
  | (none, t) => (-1, ctx, t)
  | (some r, t) =>
      if r ≠ req.length then (0, ctx, t)
      else
        -- grab up through the addr type
        match T.recv t 4 with
        | (none, t) => (-1, ctx, t)
        | (some [ver, status, _, atyp], t) =>
            if ver ≠ 0x05 ∨ status ≠ 0x00 then (0, ctx, t)
            else
              let address := socks5Address T atyp t
              if address.1 then (1, { ctx with connected := true }, address.2)
              else (0, ctx, address.2)
        | (some _, t) => (0, ctx, t)

def socks5Connect (host : Host) (ctx : ProxyCtx) (t : τ) : Int × ProxyCtx × τ :=
  if host.name.1.length ≥ 256 then (0, ctx, t)
  else
    match T.send t socks5Hello with
    | (none, t) => (0, ctx, t)
    | (some r, t) =>
        if r ≠ socks5Hello.length then (0, ctx, t)
        else
          match T.recv t 2 with
          | (some [ver, method], t) =>
              if ver ≠ 0x05 ∨ method ≠ 0x00 then (0, ctx, t) else socks5Request T host ctx t
          | (_, t) => (0, ctx, t)

/-- `sock_gets` with a buffer of `sz` bytes: the line with its newline, or none
when it fails or does not fit. It reads a byte before it looks at the room left. -/
def sockGets : Nat → τ → Option (List UInt8) × τ
  | 0, t => (none, t)
  | sz + 1, t =>
      match T.recv t 1 with
      | (some [c], t) =>
          if sz = 0 then (none, t)
          else if c = 10 then (some [c], t)
          else
            let rest := sockGets sz t
            (rest.1.map (c :: ·), rest.2)
      | (_, t) => (none, t)

/-- The header lines up to the empty one. The fuel bounds their number: against
a peer that goes on for ever the loop does not end. -/
def skipHeader : Nat → τ → Option (Bool × τ)
  | 0, _ => none
  | fuel + 1, t =>
      match sockGets T 4096 t with
      | (none, t) => some (false, t)
      | (some line, t) => if cString line = crlf then some (true, t) else skipHeader fuel t

def sendLine (line : List UInt8) (t : τ) : Except (Int × τ) τ :=
  match T.send t line with
  | (none, t) => .error (-1, t)
  | (some r, t) => if r ≠ line.length then .error (0, t) else .ok t

def httpReply (fuel : Nat) (ctx : ProxyCtx) (t : τ) : Option (Int × ProxyCtx × τ) :=
  match sockGets T 4096 t with
  | (none, t) => some (0, ctx, t)
  | (some line, t) =>
      match statusCode line with
      | none => some (0, ctx, t)
      | some retcode =>
          if retcode < 200 ∨ retcode > 299 then some (0, ctx, t)
          else
            (skipHeader T fuel t).map fun header =>
              if header.1 then (1, { ctx with connected := true }, header.2)
              else (0, ctx, header.2)

def httpConnect (fuel : Nat) (host : Host) (ctx : ProxyCtx) (t : τ) : Option (Int × ProxyCtx × τ) :=
  match (sendLine T (httpRequest host ctx.port) t >>= sendLine T (httpHost host ctx.port)) >>=
      sendLine T crlf with
  | .error (r, t) => some (r, ctx, t)
  | .ok t => httpReply T fuel ctx t

/-- The call of `ctx->connect`; none when it does not return within the fuel. -/
def connect (fuel : Nat) (c : Connector) (host : Host) (ctx : ProxyCtx) (t : τ) :
    Option (Int × ProxyCtx × τ) :=
  match c with
  | .socks4a => some (socks4aConnect T host ctx t)
  | .socks5 => some (socks5Connect T host ctx t)
  | .http => httpConnect T fuel host ctx t

end Connectors

structure Proxy (τ : Type) where
  ctx : ProxyCtx
  next : τ

/-- What the calls of the proxy BIO come to: the return value of a connect
handler, payload handed to the next BIO, and bytes of the next BIO returned to
the caller, with `connected` as it is then. -/
inductive Mark
  | handshake (r : Int)
  | written (payload : List UInt8) (connected : Bool)
  | returned (bytes : List UInt8) (connected : Bool)
  deriving DecidableEq

inductive Call
  | write (buf : List UInt8)
  | read (sz : Nat)

section Calls

variable {τ : Type} (T : Transport τ) (fuel : Nat)

/-- The guard of `proxy_read` and `proxy_write`, which go on unless a handler
returns 0. A missing handler is asserted not to happen, and none here. -/
def establish (p : Proxy τ) : Option (Bool × List Mark × Proxy τ) :=
  if p.ctx.connected then some (true, [], p)
  else
    match p.ctx.connect, p.ctx.host with
    | some c, some host =>
        (connect T fuel c host p.ctx p.next).map fun done =>
          (done.1 != 0, [.handshake done.1], ⟨done.2.1, done.2.2⟩)
    | _, _ => none

def ioCode : Option Nat → Int
  | none => -1
  | some n => n

def proxyWrite (buf : List UInt8) (p : Proxy τ) : Option (Int × List Mark × Proxy τ) :=
  if buf = [] then some (0, [], p)
  else
    (establish T fuel p).map fun guard =>
      if guard.1 then
        let p := guard.2.2
        let sent := T.send p.next buf
        (ioCode sent.1, guard.2.1 ++ [.written buf p.ctx.connected], { p with next := sent.2 })
      else (0, guard.2)

def proxyRead (sz : Nat) (p : Proxy τ) : Option (Option (List UInt8) × List Mark × Proxy τ) :=
  (establish T fuel p).map fun guard =>
    if guard.1 then
      let p := guard.2.2
      let got := T.recv p.next sz
      (got.1, guard.2.1 ++ [.returned (got.1.getD []) p.ctx.connected], { p with next := got.2 })
    else (some [], guard.2)

def step : Machine.Step (Proxy τ) Call Mark := fun p call =>
  match call with
  | .write buf => (proxyWrite T fuel buf p).map fun done => (done.2.2, done.2.1)
  | .read sz => (proxyRead T fuel sz p).map fun done => (done.2.2, done.2.1)

end Calls

end Tlsdate.ProxyBio
