import Tlsdate.SocksEncoding

namespace Tlsdate.ProxyPlan9

open ByteStream
open ProxyBio (CString ascii niMaxHost networkPort)

/-- A host that BIO_proxy_set_host of proxy-bio-plan9.c has accepted: it refuses
one length only. -/
structure Host where
  name : CString
  accepted : name.1.length ≠ niMaxHost

structure ProxyCtx where
  host : Option Host
  port : UInt16
  connected : Bool

def proxyNew : ProxyCtx := ⟨none, 0, false⟩

def setHost (host : CString) (ctx : ProxyCtx) : Int × ProxyCtx :=
  if h : host.1.length ≠ niMaxHost then (0, { ctx with host := some ⟨host, h⟩ }) else (1, ctx)

def setPort (port : UInt16) (ctx : ProxyCtx) : ProxyCtx := { ctx with port := port }

def socks5Hello : List UInt8 := [0x05, 0x01, 0x00]

/-- The connect packet as it is put together in `buf`. To write past the end of
the buffer is undefined, and none. -/
def socks5Packet (host : Host) (port : UInt16) : Option (List UInt8) :=
  let packet := [0x05, 0x01, 0x00, 0x03, UInt8.ofNat host.name.1.length] ++ host.name.1 ++
    networkPort port
  if packet.length ≤ niMaxHost + 16 then some packet else none

section Connector

variable {τ : Type} (T : Transport τ)

def skipAddress (len : Nat) (t : τ) : Bool × τ :=
  if len = 0 then (true, t)
  else
    match T.recv t (min len (niMaxHost + 16)) with
    | (none, t) | (some [], t) => (false, t)
    | (some (_ :: bs), t) => skipAddress (len - min len (bs.length + 1)) t
termination_by len
decreasing_by omega

def socks5Address (atyp : UInt8) (t : τ) : Bool × τ :=
  if atyp = 0x03 then
    match T.recv t 1 with
    | (some [len], t) => skipAddress T (len.toNat + 2) t
    | (_, t) => (false, t)
  else if atyp = 0x01 then
    match T.recv t 6 with
    | (some buf, t) => (buf.length == 6, t)
    | (none, t) => (false, t)
  else (true, t)

def socks5Reply (ctx : ProxyCtx) (t : τ) : Int × ProxyCtx × τ :=
  match T.recv t 4 with
  | (none, t) => (-1, ctx, t)
  | (some [ver, status, _, atyp], t) =>
      if ver ≠ 0x05 ∨ status ≠ 0x00 then (0, ctx, t)
      else
        let address := socks5Address T atyp t
        if address.1 then (1, { ctx with connected := true }, address.2) else (0, ctx, address.2)
  | (some _, t) => (0, ctx, t)

def socks5Request (host : Host) (ctx : ProxyCtx) (t : τ) : Option (Int × ProxyCtx × τ) :=
  (socks5Packet host ctx.port).map fun packet =>
    match T.send t packet with
    | (none, t) => (-1, ctx, t)
    | (some r, t) => if r ≠ packet.length then (0, ctx, t) else socks5Reply T ctx t

/-- `socks5_connect`; none if it writes past the end of its buffer. -/
def socks5Connect (host : Host) (ctx : ProxyCtx) (t : τ) : Option (Int × ProxyCtx × τ) :=
  -- the length for SOCKS addresses is only one byte
  if host.name.1.length = 255 + 1 then some (0, ctx, t)
  else
    match T.send t socks5Hello with
    | (none, t) => some (0, ctx, t)
    | (some r, t) =>
        if r ≠ 3 then some (0, ctx, t)
        else
          match T.recv t 2 with
          | (some [ver, method], t) =>
              if ver ≠ 0x05 ∨ method ≠ 0x00 then some (0, ctx, t) else socks5Request T host ctx t
          | (_, t) => some (0, ctx, t)

end Connector

section Dial

variable {τ : Type} (T : Transport τ) (name : CString) (port : UInt16) (t : τ)

def outcome (done : Int × ProxyCtx × τ) : Int × Bool × τ := (done.1, done.2.1.connected, done.2.2)

def bioOutcome (done : Int × ProxyBio.ProxyCtx × τ) : Int × Bool × τ :=
  (done.1, done.2.1.connected, done.2.2)

/-- The call of `socks5_connect` in proxy-bio.c once host and port are set, over
a transport that keeps what it is given to write. There is none if
BIO_proxy_set_host has refused the host. -/
def bioDial : Option (Int × Bool × τ × List (List UInt8)) :=
  let ctx := ProxyBio.setPort port (ProxyBio.setHost name ProxyBio.proxyNew).2
  ctx.host.map fun host => bioOutcome (ProxyBio.socks5Connect (logged T) host ctx (t, []))

def plan9Dial : Option (Int × Bool × τ × List (List UInt8)) :=
  let ctx := setPort port (setHost name proxyNew).2
  ctx.host.bind fun host => (socks5Connect (logged T) host ctx (t, [])).map outcome

def Agrees : Prop :=
  ∃ a b, bioDial T name port t = some a ∧ plan9Dial T name port t = some b ∧ a.1 = b.1 ∧
    a.2.2.2.flatten = b.2.2.2.flatten

end Dial

section Copy

variable {τ : Type} (T : Transport τ)

theorem skipAddress_eq (len : Nat) (t : τ) : skipAddress T len t = ProxyBio.skipAddress T len t := by
  induction len using Nat.strong_induction_on generalizing t with
  | _ len ih =>
      rw [skipAddress, ProxyBio.skipAddress]
      split_ifs with h
      · rfl
      · rcases T.recv t (min len (niMaxHost + 16)) with ⟨_ | _ | ⟨b, bs⟩, u⟩
        · rfl
        · rfl
        · exact ih _ (by omega) u

theorem socks5Address_eq (atyp : UInt8) (t : τ) :
    socks5Address T atyp t = ProxyBio.socks5Address T atyp t := by
  rw [socks5Address, ProxyBio.socks5Address]
  split_ifs
  · rcases T.recv t 1 with ⟨_ | _ | ⟨len, _ | ⟨b, bs⟩⟩, u⟩
    · rfl
    · rfl
    · exact skipAddress_eq T _ u
    · rfl
  · rcases T.recv t 6 with ⟨_ | buf, u⟩ <;> rfl
  · rfl

variable {host : Host} {bioHost : ProxyBio.Host} {ctx : ProxyCtx} {bioCtx : ProxyBio.ProxyCtx}
  (hhost : host.name = bioHost.name) (hport : ctx.port = bioCtx.port)
  (hconnected : ctx.connected = bioCtx.connected)

include hhost in
theorem socks5Packet_eq (port : UInt16) :
    socks5Packet host port = some (ProxyBio.socks5Packet bioHost port) := by
  have hlen := SocksEncoding.socks5Packet_length bioHost port
  have hshort := bioHost.short
  rw [ProxyBio.socks5Packet] at hlen ⊢
  rw [socks5Packet, hhost, if_pos (by omega)]

include hconnected in
theorem outcome_unconnected (r : Int) (t : τ) : outcome (r, ctx, t) = bioOutcome (r, bioCtx, t) := by
  rw [outcome, bioOutcome, hconnected]

include hhost hport hconnected

theorem socks5Request_outcome (t : τ) : (socks5Request T host ctx t).map outcome =
    some (bioOutcome (ProxyBio.socks5Request T bioHost bioCtx t)) := by
  have hsame := fun r t => outcome_unconnected (τ := τ) hconnected r t
  rw [socks5Request, hport, socks5Packet_eq hhost, Option.map_some, Option.map_some]
  refine congrArg some ?_
  simp only [ProxyBio.socks5Request]
  rcases T.send t (ProxyBio.socks5Packet bioHost bioCtx.port) with ⟨_ | r, u⟩
  · exact hsame (-1) u
  · dsimp only
    split_ifs with hr
    · exact hsame 0 u
    · rw [socks5Reply]
      rcases T.recv u 4 with
        ⟨_ | _ | ⟨ver, _ | ⟨status, _ | ⟨rsv, _ | ⟨atyp, _ | ⟨b, bs⟩⟩⟩⟩⟩, v⟩
      any_goals exact hsame _ v
      dsimp only
      rw [socks5Address_eq]
      split_ifs
      · exact hsame 0 v
      · rfl
      · exact hsame 0 _

theorem socks5Connect_outcome (h : host.name.1.length ≤ 256) (t : τ) :
    (socks5Connect T host ctx t).map outcome =
      some (bioOutcome (ProxyBio.socks5Connect T bioHost bioCtx t)) := by
  have hsame := fun r t => congrArg some (outcome_unconnected (τ := τ) hconnected r t)
  rw [socks5Connect, ProxyBio.socks5Connect, ← hhost]
  split_ifs with hlen hge
  · exact hsame 0 t
  · omega
  · omega
  · have hhello : ProxyBio.socks5Hello = socks5Hello := rfl
    have hlength : socks5Hello.length = 3 := rfl
    rw [hhello, hlength]
    rcases T.send t socks5Hello with ⟨_ | r, u⟩
    · exact hsame 0 u
    · dsimp only
      split_ifs
      · exact hsame 0 u
      · rcases T.recv u 2 with ⟨_ | _ | ⟨ver, _ | ⟨method, _ | ⟨b, bs⟩⟩⟩, v⟩
        any_goals exact hsame 0 v
        dsimp only
        split_ifs
        · exact hsame 0 v
        · exact socks5Request_outcome T hhost hport hconnected v

end Copy

section Long

variable {τ : Type} (T : Transport τ) {host : Host} {ctx : ProxyCtx} (t : τ)
  (log : List (List UInt8))

theorem socks5Reply_writes : (socks5Reply (logged T) ctx (t, log)).2.2.2 = log := by
  rw [socks5Reply, logged_recv]
  rcases T.recv t 4 with ⟨_ | _ | ⟨ver, _ | ⟨status, _ | ⟨rsv, _ | ⟨atyp, _ | ⟨b, bs⟩⟩⟩⟩⟩, v⟩
  any_goals rfl
  dsimp only
  rw [socks5Address_eq]
  split_ifs
  · rfl
  · exact SocksEncoding.socks5Address_writes T v log atyp
  · exact SocksEncoding.socks5Address_writes T v log atyp

theorem socks5Request_writes {done : Int × ProxyCtx × τ × List (List UInt8)}
    (h : socks5Request (logged T) host ctx (t, log) = some done) :
    ∃ packet, done.2.2.2 = log ++ [packet] := by
  obtain ⟨packet, -, rfl⟩ := Option.map_eq_some_iff.mp h
  refine ⟨packet, ?_⟩
  rw [logged_send]
  rcases T.send t packet with ⟨_ | r, u⟩
  · rfl
  · dsimp only
    split_ifs
    · rfl
    · exact socks5Reply_writes T u _

theorem socks5Connect_writes (hlong : 256 < host.name.1.length)
    {done : Int × ProxyCtx × τ × List (List UInt8)}
    (h : socks5Connect (logged T) host ctx (t, log) = some done) :
    ∃ ws, done.2.2.2 = log ++ socks5Hello :: ws := by
  rw [socks5Connect, if_neg hlong.ne', logged_send] at h
  rcases hs : T.send t socks5Hello with ⟨_ | r, u⟩
  · rw [hs] at h
    cases h
    exact ⟨[], rfl⟩
  · rw [hs] at h
    dsimp only at h
    split_ifs at h
    · cases h
      exact ⟨[], rfl⟩
    · rw [logged_recv] at h
      rcases hr : T.recv u 2 with ⟨_ | _ | ⟨ver, _ | ⟨method, _ | ⟨b, bs⟩⟩⟩, v⟩
      all_goals rw [hr] at h
      any_goals
        cases h
        exact ⟨[], rfl⟩
      dsimp only at h
      split_ifs at h
      · cases h
        exact ⟨[], rfl⟩
      · obtain ⟨packet, hp⟩ := socks5Request_writes T v _ h
        exact ⟨[packet], by rw [hp, List.append_assoc]; rfl⟩

end Long

section Agreement

variable {τ : Type} (T : Transport τ) {name : CString} (port : UInt16) (t : τ)

theorem short_of_le (h : name.1.length ≤ 256) : name.1.length < niMaxHost :=
  Nat.lt_of_le_of_lt h (by decide)

theorem bioDial_short (h : name.1.length < niMaxHost) : bioDial T name port t =
    some (bioOutcome (ProxyBio.socks5Connect (logged T) ⟨name, h⟩
      ⟨some ⟨name, h⟩, port, false, none⟩ (t, []))) := by
  rw [bioDial, ProxyBio.setHost, dif_pos h]
  rfl

theorem bioDial_long (h : niMaxHost ≤ name.1.length) : bioDial T name port t = none := by
  rw [bioDial, ProxyBio.setHost, dif_neg (Nat.not_lt.mpr h)]
  rfl

theorem plan9Dial_accepted (h : name.1.length ≠ niMaxHost) : plan9Dial T name port t =
    (socks5Connect (logged T) ⟨name, h⟩ ⟨some ⟨name, h⟩, port, false⟩ (t, [])).map outcome := by
  rw [plan9Dial, setHost, dif_pos h]
  rfl

theorem dials_same (h : name.1.length ≤ 256) : plan9Dial T name port t = bioDial T name port t := by
  have hshort := short_of_le h
  rw [bioDial_short T port t hshort, plan9Dial_accepted T port t hshort.ne]
  exact socks5Connect_outcome (logged T) rfl rfl rfl h (t, [])

/-- The copies agree on the hosts of at most 256 bytes, over any transport, and
on no other host: the check of the copy is for one length, and lets the longer
hosts pass. -/
theorem copies_agree_iff (T : Transport τ) (name : CString) (port : UInt16) (t : τ) :
    Agrees T name port t ↔ name.1.length ≤ 256 := by
  constructor
  · rintro ⟨a, b, ha, hb, -, hbytes⟩
    by_contra hlong
    by_cases hshort : name.1.length < niMaxHost
    · rw [bioDial_short T port t hshort, SocksEncoding.socks5Connect_long _ _ _ (by
        dsimp only
        omega)] at ha
      rw [plan9Dial_accepted T port t hshort.ne] at hb
      obtain ⟨done, hdone, rfl⟩ := Option.map_eq_some_iff.mp hb
      obtain ⟨ws, hws⟩ := socks5Connect_writes T t [] (Nat.not_le.mp hlong) hdone
      cases ha
      rw [outcome, bioOutcome] at hbytes
      dsimp only at hbytes
      rw [hws] at hbytes
      cases hbytes
    · rw [bioDial_long T port t (Nat.not_lt.mp hshort)] at ha
      cases ha
  · intro h
    have hbio := bioDial_short T port t (short_of_le h)
    exact ⟨_, _, hbio, (dials_same T port t h).trans hbio, rfl, rfl⟩

end Agreement

def longHost : CString :=
  ⟨List.replicate 257 97, fun h => absurd (List.eq_of_mem_replicate h) (by decide)⟩

def granting : Stream := ⟨[0x05, 0x00, 0x05, 0x00, 0x00, 0x01, 127, 0, 0, 1, 0, 80], []⟩

/-- A host of 257 bytes is refused by the one, and named to the proxy by the
other with the length 1. -/
theorem long_host_dialled : (bioDial stream longHost 80 granting).map (·.1) = some 0 ∧
    (plan9Dial stream longHost 80 granting).map (·.1) = some 1 ∧
    (plan9Dial stream longHost 80 granting).map (·.2.2.2) =
      some [socks5Hello, [0x05, 0x01, 0x00, 0x03, 1] ++ List.replicate 257 97 ++ [0, 80]] ∧
    ¬ Agrees stream longHost 80 granting := by
  have hbio : (bioDial stream longHost 80 granting).map (·.1) = some 0 := by decide +kernel
  have hplan9 : (plan9Dial stream longHost 80 granting).map (·.1) = some 1 := by decide +kernel
  refine ⟨hbio, hplan9, by decide +kernel, ?_⟩
  rintro ⟨a, b, ha, hb, hresult, -⟩
  rw [ha, Option.map_some] at hbio
  rw [hb, Option.map_some, ← hresult, hbio] at hplan9
  cases hplan9

end Tlsdate.ProxyPlan9
