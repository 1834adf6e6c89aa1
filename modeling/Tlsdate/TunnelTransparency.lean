import Tlsdate.ProxyBio

namespace Tlsdate.TunnelTransparency

open CInt ByteStream ProxyBio

/-- A bound address of RFC 1928, by address type. -/
inductive Address
  | ipv4 (addr : List UInt8) (h : addr.length = 4)
  | domain (name : List UInt8) (h : name.length < 256)
  | ipv6 (addr : List UInt8) (h : addr.length = 16)

def Address.atyp : Address → UInt8
  | .ipv4 _ _ => 0x01
  | .domain _ _ => 0x03
  | .ipv6 _ _ => 0x04

def Address.bytes : Address → List UInt8
  | .ipv4 addr _ | .ipv6 addr _ => addr
  | .domain name _ => UInt8.ofNat name.length :: name

structure StatusLine where
  version : List UInt8
  tens : UInt8
  ones : UInt8
  reason : List UInt8
  version_ne : version ≠ []
  version_text : ∀ c ∈ version, isSpace c = false ∧ c ≠ 0
  digits : isDigit tens = true ∧ isDigit ones = true
  separated : reason.head?.getD 32 = 32
  one_line : (10 : UInt8) ∉ reason

def StatusLine.body (line : StatusLine) : List UInt8 :=
  ascii "HTTP/" ++ line.version ++ [32, 50, line.tens, line.ones] ++ line.reason

def StatusLine.bytes (line : StatusLine) : List UInt8 := line.body ++ crlf

structure HeaderLine where
  content : List UInt8
  ne : content ≠ []
  one_line : (10 : UInt8) ∉ content
  fits : (content ++ crlf).length < 4096

def HeaderLine.bytes (line : HeaderLine) : List UInt8 := line.content ++ crlf

inductive Reply : Connector → Type
  | socks4a (vn : UInt8) (rest : List UInt8) (h : rest.length = 6) : Reply .socks4a
  | socks5 (addr : Address) (port : List UInt8) (h : port.length = 2) : Reply .socks5
  | http (status : StatusLine) (headers : List HeaderLine) : Reply .http

def Reply.bytes {c : Connector} : Reply c → List UInt8
  | .socks4a vn rest _ => vn :: 0x5a :: rest
  | .socks5 addr port _ => [0x05, 0x00] ++ [0x05, 0x00, 0x00, addr.atyp] ++ addr.bytes ++ port
  | .http status headers =>
      status.bytes ++ headers.flatMap HeaderLine.bytes ++ crlf

def Reply.lines {c : Connector} : Reply c → Nat
  | .http _ headers => headers.length
  | _ => 0

def readAll (fuel : Nat) : List Nat → Proxy Stream → Option (List UInt8 × Proxy Stream)
  | [], p => some ([], p)
  | n :: ns, p =>
      match proxyRead stream fuel n p with
      | some (some bs, _, p) => (readAll fuel ns p).map fun r => (bs ++ r.1, r.2)
      | _ => none

def opened (c : Connector) (host : Host) (port : UInt16) (connected : Bool) : ProxyCtx :=
  ⟨some host, port, connected, some c⟩

/-- The connector takes exactly the reply from the transport, and what follows
it is read through the proxy BIO as it is. -/
def Transparent {c : Connector} (host : Host) (port : UInt16) (reply : Reply c)
    (target : List UInt8) : Prop :=
  ∀ fuel sent, reply.lines < fuel → ∃ t,
    connect stream fuel c host (opened c host port false) ⟨reply.bytes ++ target, sent⟩ =
      some (1, opened c host port true, t) ∧ t.input = target ∧
    ∀ sizes, ∃ p, readAll fuel sizes ⟨opened c host port true, t⟩ =
      some (target.take sizes.sum, p)

/-- No IPv6 address for SOCKS5, and for HTTP a status line that fits the buffer. -/
def Readable {c : Connector} : Reply c → Prop
  | .socks4a _ _ _ => True
  | .socks5 addr _ _ => addr.atyp ≠ 0x04
  | .http status _ => status.bytes.length < 4096

theorem readAll_stream (fuel : Nat) (ctx : ProxyCtx) (hc : ctx.connected = true) (sizes : List Nat)
    (s : Stream) : ∃ p, readAll fuel sizes ⟨ctx, s⟩ = some (s.input.take sizes.sum, p) := by
  induction sizes generalizing s with
  | nil => exact ⟨⟨ctx, s⟩, by simp [readAll]⟩
  | cons n ns ih =>
      obtain ⟨p, hp⟩ := ih ⟨s.input.drop n, s.output⟩
      refine ⟨p, ?_⟩
      simp only [readAll, proxyRead, establish, hc, if_true, Option.map_some, stream_recv, hp,
        List.sum_cons, List.take_add]

section Lines

variable (sent rest : List UInt8)

theorem sockGets_line {content : List UInt8} {n : Nat} (hl : (10 : UInt8) ∉ content)
    (hn : content.length + 1 < n) :
    sockGets stream n ⟨content ++ 10 :: rest, sent⟩ = (some (content ++ [10]), ⟨rest, sent⟩) := by
  induction content generalizing n with
  | nil =>
      obtain ⟨m, rfl⟩ : ∃ m, n = m + 2 := ⟨n - 2, by simp at hn; omega⟩
      simp [sockGets, stream_recv]
  | cons c cs ih =>
      obtain ⟨m, rfl⟩ : ∃ m, n = m + 2 := ⟨n - 2, by simp at hn; omega⟩
      have hc : c ≠ 10 := fun h => hl (by simp [h])
      have hcs := ih (fun h => hl (List.mem_cons_of_mem _ h)) (n := m + 1) (by simp at hn; omega)
      rw [sockGets]
      simp [stream_recv, hc, hcs]

theorem sockGets_long {content : List UInt8} {n : Nat} (hl : (10 : UInt8) ∉ content)
    (hn : n ≤ content.length + 1) : (sockGets stream n ⟨content ++ rest, sent⟩).1 = none := by
  induction content generalizing n with
  | nil =>
      cases n with
      | zero => rfl
      | succ m =>
          obtain rfl : m = 0 := by simp at hn; omega
          cases rest <;> simp [sockGets, stream_recv]
  | cons c cs ih =>
      cases n with
      | zero => rfl
      | succ m =>
          have hc : c ≠ 10 := fun h => hl (by simp [h])
          have hcs := ih (fun h => hl (List.mem_cons_of_mem _ h)) (n := m) (by simp at hn; omega)
          rw [sockGets]
          by_cases hm : m = 0
          · simp [stream_recv, hm]
          · simp [stream_recv, hm, hc, hcs]

end Lines

section Status

theorem cString_append {l l' : List UInt8} (h : (0 : UInt8) ∉ l) :
    cString (l ++ l') = l ++ cString l' :=
  List.takeWhile_append_of_pos fun c hc => by
    have hne : c ≠ 0 := fun h0 => h (h0 ▸ hc)
    simpa using hne

theorem digit_bounds {c : UInt8} (h : isDigit c = true) : 48 ≤ c.toNat ∧ c.toNat ≤ 57 := by
  simpa [isDigit, UInt8.le_iff_toNat_le] using h

theorem digit_ne_zero {c : UInt8} (h : isDigit c = true) : c ≠ 0 := by
  rintro rfl
  exact absurd h (by decide)

theorem scanInt_success {tens ones : UInt8} {tail : List UInt8} (ht : isDigit tens = true)
    (ho : isDigit ones = true) (hend : tail.takeWhile isDigit = []) :
    ∃ code : Int, scanInt (50 :: tens :: ones :: tail) = some code ∧ 200 ≤ code ∧ code ≤ 299 := by
  obtain ⟨htl, htu⟩ := digit_bounds ht
  obtain ⟨hol, hou⟩ := digit_bounds ho
  have hsign : scanSign (skipSpace (50 :: tens :: ones :: tail)) =
      (false, 50 :: tens :: ones :: tail) := rfl
  have htake : (50 :: tens :: ones :: tail).takeWhile isDigit = [50, tens, ones] := by
    have h50 : isDigit 50 = true := rfl
    simp [h50, ht, ho, hend]
  have hvalue : decimal [50, tens, ones] = 200 + 10 * (tens.toNat - 48) + (ones.toNat - 48) := by
    simp [decimal]
    omega
  refine ⟨(200 + 10 * (tens.toNat - 48) + (ones.toNat - 48) : Nat), ?_, by omega, by omega⟩
  simp only [scanInt, hsign, htake, hvalue, Bool.false_eq_true, if_false]
  rw [min_eq_left (by omega), toInt_of_range (by omega) (by omega)]

theorem statusCode_success (status : StatusLine) :
    ∃ code : Int, statusCode status.bytes = some code ∧ 200 ≤ code ∧ code ≤ 299 := by
  obtain ⟨version, tens, ones, reason, hne, htext, ⟨ht, ho⟩, hsep, -⟩ := status
  have hstart : (0 : UInt8) ∉ ascii "HTTP/" ++ version ++ [32, 50, tens, ones] := by
    have hv : (0 : UInt8) ∉ version := fun h => (htext 0 h).2 rfl
    have hl : (0 : UInt8) ∉ ascii "HTTP/" := by decide
    simp [hv, hl, (digit_ne_zero ht).symm, (digit_ne_zero ho).symm]
  have hend : (cString (reason ++ crlf)).takeWhile isDigit = [] := by
    cases reason with
    | nil => decide
    | cons c cs =>
        obtain rfl : c = 32 := by simpa using hsep
        rfl
  obtain ⟨code, hcode, hrange⟩ := scanInt_success ht ho hend
  refine ⟨code, ?_, hrange⟩
  have hs : cString (ascii "HTTP/" ++ version ++ [32, 50, tens, ones] ++ reason ++ crlf) =
      ascii "HTTP/" ++ (version ++ 32 :: 50 :: tens :: ones :: cString (reason ++ crlf)) := by
    rw [List.append_assoc, cString_append hstart]
    simp
  have hdrop : (ascii "HTTP/" ++ (version ++ 32 :: 50 :: tens :: ones ::
      cString (reason ++ crlf))).drop 5 = version ++ 32 :: 50 :: tens :: ones ::
      cString (reason ++ crlf) := rfl
  have hskip : skipSpace (version ++ 32 :: 50 :: tens :: ones :: cString (reason ++ crlf)) =
      version ++ 32 :: 50 :: tens :: ones :: cString (reason ++ crlf) := by
    obtain ⟨c, cs, rfl⟩ := List.exists_cons_of_ne_nil hne
    exact List.dropWhile_cons_of_neg (by simp [(htext c (by simp)).1])
  have hword : ∀ c ∈ version, (!isSpace c) = true := fun c hc => by simp [(htext c hc).1]
  simp only [statusCode, StatusLine.bytes, StatusLine.body, hs, hdrop, hskip,
    List.takeWhile_append_of_pos hword, List.dropWhile_append_of_pos hword]
  rw [if_neg (by simp [ascii]), if_neg (by simp [hne])]
  exact hcode

end Status

section Connectors

variable (host : Host) (sent target : List UInt8)

theorem HeaderLine.not_blank (header : HeaderLine) : cString header.bytes ≠ crlf := by
  obtain ⟨content, hne, hl, -⟩ := header
  match content with
  | [] => exact absurd rfl hne
  | [c] =>
      by_cases hc : c = 0 <;> simp [HeaderLine.bytes, cString, crlf, hc]
  | c :: d :: ds =>
      intro h
      have hd : d ≠ 10 := fun hd => hl (by simp [hd])
      by_cases hc : c = 0
      · simp [HeaderLine.bytes, cString, crlf, hc] at h
      · by_cases hd0 : d = 0
        · simp [HeaderLine.bytes, cString, crlf, hc, hd0] at h
        · simp [HeaderLine.bytes, cString, crlf, hc, hd0, hd] at h

theorem sockGets_crlf {content : List UInt8} (hl : (10 : UInt8) ∉ content)
    (hf : (content ++ crlf).length < 4096) :
    sockGets stream 4096 ⟨content ++ crlf ++ target, sent⟩ =
      (some (content ++ crlf), ⟨target, sent⟩) := by
  have hl' : (10 : UInt8) ∉ content ++ [13] := by simp [hl]
  have hget := sockGets_line sent target (n := 4096) hl' (by
    simp [crlf] at hf ⊢
    omega)
  simpa [crlf] using hget

theorem skipHeader_stream {fuel : Nat} (headers : List HeaderLine) (hf : headers.length < fuel) :
    skipHeader stream fuel ⟨headers.flatMap HeaderLine.bytes ++ crlf ++ target, sent⟩ =
      some (true, ⟨target, sent⟩) := by
  induction headers generalizing fuel with
  | nil =>
      obtain ⟨n, rfl⟩ := Nat.exists_eq_add_of_le' (Nat.succ_le_of_lt hf)
      have hget := sockGets_crlf sent target (List.not_mem_nil (a := 10)) (by decide)
      simp only [List.nil_append] at hget
      have hblank : cString crlf = crlf := rfl
      simp [skipHeader, hget, hblank]
  | cons header headers ih =>
      obtain ⟨n, rfl⟩ := Nat.exists_eq_add_of_le' (Nat.succ_le_of_lt (Nat.zero_lt_of_lt hf))
      have hget := sockGets_crlf sent (headers.flatMap HeaderLine.bytes ++ crlf ++ target)
        header.one_line header.fits
      have hnb := header.not_blank
      simp only [HeaderLine.bytes] at hnb
      rw [skipHeader, List.flatMap_cons, HeaderLine.bytes, List.append_assoc, List.append_assoc,
        ← List.append_assoc (headers.flatMap HeaderLine.bytes), hget]
      simp only [hnb, if_false]
      exact ih (by simpa using hf)

theorem StatusLine.body_one_line (status : StatusLine) : (10 : UInt8) ∉ status.body := by
  obtain ⟨version, tens, ones, reason, -, htext, ⟨ht, ho⟩, -, hr⟩ := status
  have hv : (10 : UInt8) ∉ version := fun h => absurd (htext 10 h).1 (by decide)
  have hl : (10 : UInt8) ∉ ascii "HTTP/" := by decide
  have htens : tens ≠ 10 := by
    rintro rfl
    exact absurd ht (by decide)
  have hones : ones ≠ 10 := by
    rintro rfl
    exact absurd ho (by decide)
  simp [body, hv, hl, hr, htens.symm, hones.symm]

theorem sendLine_stream (line : List UInt8) (s : Stream) :
    sendLine stream line s = .ok ⟨s.input, s.output ++ line⟩ := by
  simp [sendLine, stream_send]

theorem socks4aConnect_stream (ctx : ProxyCtx) (vn : UInt8) {rest : List UInt8}
    (h : rest.length = 6) :
    socks4aConnect stream host ctx ⟨vn :: 0x5a :: rest ++ target, sent⟩ =
      (1, { ctx with connected := true }, ⟨target, sent ++ socks4aPacket host ctx.port⟩) := by
  have hrecv := stream_recv_append (vn :: 0x5a :: rest) target (sent ++ socks4aPacket host ctx.port)
  simp only [List.length_cons, h] at hrecv
  simp only [socks4aConnect, stream_send, hrecv]
  simp [h]

theorem skipAddress_stream {bs : List UInt8} (h : bs.length ≤ niMaxHost + 16) :
    skipAddress stream bs.length ⟨bs ++ target, sent⟩ = (true, ⟨target, sent⟩) := by
  cases bs with
  | nil => simp [skipAddress]
  | cons b bs =>
      have hrecv := stream_recv_append (b :: bs) target sent
      rw [skipAddress, if_neg (by simp), min_eq_left h, hrecv]
      simp [skipAddress]

def unread (addr : Address) (port : List UInt8) : List UInt8 :=
  match addr with
  | .ipv6 addr _ => addr ++ port
  | _ => []

theorem socks5Address_stream (addr : Address) {bound : List UInt8} (h : bound.length = 2) :
    socks5Address stream addr.atyp ⟨addr.bytes ++ bound ++ target, sent⟩ =
      (true, ⟨unread addr bound ++ target, sent⟩) := by
  cases addr with
  | ipv4 addr ha =>
      have hrecv := stream_recv_append (addr ++ bound) target sent
      rw [List.length_append, ha, h] at hrecv
      simp only [Nat.reduceAdd] at hrecv
      simp only [socks5Address, Address.atyp, Address.bytes, unread, List.nil_append]
      rw [if_neg (by decide), if_pos trivial, hrecv]
      simp [ha, h]
  | domain name hn =>
      have hskip := skipAddress_stream sent target (show (name ++ bound).length ≤ niMaxHost + 16 by
        simp [h, niMaxHost]
        omega)
      have hlen : (UInt8.ofNat name.length).toNat + 2 = (name ++ bound).length := by
        simp [h]
        omega
      have hrecv := stream_recv_append [UInt8.ofNat name.length] (name ++ bound ++ target) sent
      simp only [socks5Address, Address.atyp, Address.bytes, unread, if_true, List.cons_append,
        List.length_singleton, List.nil_append] at hrecv ⊢
      rw [hrecv]
      simp only [hlen]
      exact hskip
  | ipv6 addr _ => simp [socks5Address, Address.atyp, Address.bytes, unread]

theorem socks5Connect_stream (hlen : host.name.1.length ≤ 255) (ctx : ProxyCtx) (addr : Address)
    {bound : List UInt8} (h : bound.length = 2) :
    socks5Connect stream host ctx ⟨(Reply.socks5 addr bound h).bytes ++ target, sent⟩ =
      (1, { ctx with connected := true },
        ⟨unread addr bound ++ target, sent ++ socks5Hello ++ socks5Packet host ctx.port⟩) := by
  have hlong : ¬ host.name.1.length ≥ 256 := by omega
  have haddr := socks5Address_stream (sent ++ socks5Hello ++ socks5Packet host ctx.port) target addr h
  simp only [socks5Connect, socks5Request, hlong, if_false, stream_send, stream_recv, Reply.bytes,
    List.cons_append, List.nil_append, List.take_succ_cons, List.take_zero, List.drop_succ_cons,
    List.drop_zero, ne_eq, not_true_eq_false, or_self, haddr, if_true]

theorem httpConnect_sent (fuel : Nat) (ctx : ProxyCtx) (input : List UInt8) :
    ∃ out, httpConnect stream fuel host ctx ⟨input, sent⟩ = httpReply stream fuel ctx ⟨input, out⟩ := by
  refine ⟨sent ++ httpRequest host ctx.port ++ httpHost host ctx.port ++ crlf, ?_⟩
  simp only [httpConnect, sendLine_stream, bind, Except.bind]

theorem httpConnect_stream {fuel : Nat} (ctx : ProxyCtx) {status : StatusLine}
    {headers : List HeaderLine} (hfits : status.bytes.length < 4096) (hf : headers.length < fuel) :
    ∃ out, httpConnect stream fuel host ctx ⟨(Reply.http status headers).bytes ++ target, sent⟩ =
      some (1, { ctx with connected := true }, ⟨target, out⟩) := by
  obtain ⟨out, hsent⟩ := httpConnect_sent host sent fuel ctx
    ((Reply.http status headers).bytes ++ target)
  obtain ⟨code, hcode, hlower, hupper⟩ := statusCode_success status
  refine ⟨out, hsent.trans ?_⟩
  have hget := sockGets_crlf out (headers.flatMap HeaderLine.bytes ++ crlf ++ target)
    status.body_one_line hfits
  have hbytes : (Reply.http status headers).bytes ++ target =
      status.body ++ crlf ++ (headers.flatMap HeaderLine.bytes ++ crlf ++ target) := by
    simp [Reply.bytes, StatusLine.bytes]
  rw [StatusLine.bytes] at hcode
  rw [hbytes, httpReply, hget]
  simp only [hcode]
  rw [if_neg (by omega), skipHeader_stream out target headers hf]
  rfl

theorem httpConnect_long {fuel : Nat} (ctx : ProxyCtx) {status : StatusLine}
    {headers : List HeaderLine} (hlong : 4096 ≤ status.bytes.length) :
    ∃ t, httpConnect stream fuel host ctx ⟨(Reply.http status headers).bytes ++ target, sent⟩ =
      some (0, ctx, t) := by
  obtain ⟨out, hsent⟩ := httpConnect_sent host sent fuel ctx
    ((Reply.http status headers).bytes ++ target)
  have hl : (10 : UInt8) ∉ status.body ++ [13] := by simp [status.body_one_line]
  have hget := sockGets_long out (10 :: (headers.flatMap HeaderLine.bytes ++ crlf ++ target))
    (n := 4096) hl (by
      simp [StatusLine.bytes, crlf] at hlong ⊢
      omega)
  have hbytes : (Reply.http status headers).bytes ++ target =
      status.body ++ [13] ++ 10 :: (headers.flatMap HeaderLine.bytes ++ crlf ++ target) := by
    simp [Reply.bytes, StatusLine.bytes, crlf]
  rw [← hbytes] at hget
  rcases hs : sockGets stream 4096 ⟨(Reply.http status headers).bytes ++ target, out⟩ with ⟨l, t⟩
  rw [hs] at hget
  obtain rfl : l = none := hget
  exact ⟨t, hsent.trans (by rw [httpReply, hs])⟩

end Connectors

variable {c : Connector} {host : Host} (port : UInt16)

theorem connect_readable {reply : Reply c} (hlen : c = .socks5 → host.name.1.length ≤ 255)
    (hr : Readable reply) {fuel : Nat} (hf : reply.lines < fuel) (sent target : List UInt8) :
    ∃ out, connect stream fuel c host (opened c host port false) ⟨reply.bytes ++ target, sent⟩ =
      some (1, opened c host port true, ⟨target, out⟩) := by
  cases reply with
  | socks4a vn rest h => exact ⟨_, congrArg some (socks4aConnect_stream host sent target _ vn h)⟩
  | socks5 addr bound h =>
      have hconnect := socks5Connect_stream host sent target (hlen rfl)
        (opened .socks5 host port false) addr h
      cases addr with
      | ipv4 _ _ | domain _ _ => exact ⟨_, congrArg some hconnect⟩
      | ipv6 _ _ => exact absurd rfl hr
  | http status headers => exact httpConnect_stream host sent target _ hr hf

theorem not_transparent {reply : Reply c} {target : List UInt8}
    (hlen : c = .socks5 → host.name.1.length ≤ 255) (hr : ¬ Readable reply) : ¬ Transparent host port reply target := by
  intro ht
  obtain ⟨t, hconnect, hinput, -⟩ := ht (reply.lines + 1) [] (Nat.lt_succ_self _)
  cases reply with
  | socks4a _ _ _ => exact hr trivial
  | socks5 addr bound h =>
      have hleft := (congrArg some
        (socks5Connect_stream host [] target (hlen rfl) (opened .socks5 host port false) addr h)).symm.trans
        hconnect
      cases addr with
      | ipv4 _ _ | domain _ _ => exact hr (by simp [Readable, Address.atyp])
      | ipv6 addr ha =>
          obtain rfl := (Prod.mk.inj (Prod.mk.inj (Option.some.inj hleft)).2).2
          have hl := congrArg List.length hinput
          simp only [unread, List.length_append, ha, h] at hl
          omega
  | http status headers =>
      obtain ⟨t', hfail⟩ := httpConnect_long host [] target (opened .http host port false)
        (Nat.le_of_not_lt hr)
      have hcode := (Prod.mk.inj (Option.some.inj (hfail.symm.trans hconnect))).1
      exact absurd hcode (by decide)

theorem transparent_iff (reply : Reply c) (target : List UInt8)
    (hlen : c = .socks5 → host.name.1.length ≤ 255) :
    Transparent host port reply target ↔ Readable reply := by
  refine ⟨fun ht => by_contra fun hr => not_transparent port hlen hr ht, fun hr fuel sent hf => ?_⟩
  obtain ⟨out, hconnect⟩ := connect_readable port hlen hr hf sent target
  exact ⟨⟨target, out⟩, hconnect, rfl, fun sizes => readAll_stream fuel _ rfl sizes ⟨target, out⟩⟩

def localhost : Host := ⟨⟨ascii "localhost", by decide⟩, by decide⟩

theorem transparent_iff_domain : Transparent localhost 443
    (.socks5 (.domain (ascii "proxy") (by decide)) [0, 80] rfl) [1, 2, 3] :=
  (transparent_iff 443 _ [1, 2, 3] fun _ => by decide).mpr (by simp [Readable, Address.atyp])

/-- A proxy that is bound to ::1. -/
theorem transparent_fails_ipv6 : localhost.name.1.length ≤ 255 ∧ ¬ Transparent localhost 443
    (.socks5 (.ipv6 [0, 0, 0, 0, 0, 0, 0, 0, 0, 0, 0, 0, 0, 0, 0, 1] rfl) [0, 80] rfl)
    [1, 2, 3] :=
  ⟨by decide, not_transparent 443 (fun _ => by decide) (by simp [Readable, Address.atyp])⟩

end Tlsdate.TunnelTransparency
