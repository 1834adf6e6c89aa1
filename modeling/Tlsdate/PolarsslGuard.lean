import Tlsdate.ProxyGuard
import Tlsdate.ProxyPolarssl

namespace Tlsdate.PolarsslGuard

open ByteStream Dialogue ProxyPolarssl
open ProxyBio (Host Connector niMaxHost socks4aPacket socks5Hello socks5Packet httpRequest httpHost
  crlf cString statusCode socks5Address skipAddress sockGets skipHeader ioCode)
open ProxyGuard (shortHost granting)

/-- The caller's bytes reach the transport only after a handshake that succeeded
(`seen`), and a positive return value counts the bytes that the call moved. -/
def Honest (seen : Bool) (x : Exchange) : Prop :=
  (x.asked ≠ 0 → seen = true) ∧ (0 < x.result → x.result = x.moved.length)

def handshook (seen : Bool) (x : Exchange) : Bool := seen || x.handshake == some 1

def Guarded : Bool → List Exchange → Prop
  | _, [] => True
  | seen, x :: xs => Honest (handshook seen x) x ∧ Guarded (handshook seen x) xs

section Grant

variable {τ : Type} (T : Transport τ)

inductive Line : Nat → τ → List UInt8 → τ → Prop
  | newline {sz t s} : T.recv t 1 = (some [10], s) → Line (sz + 2) t [10] s
  | byte {sz t u c line s} : T.recv t 1 = (some [c], u) → c ≠ 10 → Line (sz + 1) u line s →
      Line (sz + 2) t (c :: line) s

inductive Header : τ → τ → Prop
  | done {t line s} : Line T 4096 t line s → cString line = crlf → Header t s
  | more {t line u s} : Line T 4096 t line u → cString line ≠ crlf → Header u s → Header t s

inductive Skipped : Nat → τ → τ → Prop
  | done {t} : Skipped 0 t t
  | more {len t c bs u s} : T.recv t (min (len + 1) (niMaxHost + 16)) = (some (c :: bs), u) →
      Skipped (len - bs.length) u s → Skipped (len + 1) t s

inductive Address : UInt8 → τ → τ → Prop
  | domain {t len u s} : T.recv t 1 = (some [len], u) → Skipped T (len.toNat + 2) u s →
      Address 0x03 t s
  | ipv4 {t buf s} : Heard T 6 t buf s → Address 0x01 t s
  | other {atyp t} : atyp ≠ 0x03 → atyp ≠ 0x01 → Address atyp t t

/-- The proxy takes the whole request and grants it, up to the state `s` of the
transport. -/
inductive Granted (host : Host) (port : UInt16) : Connector → τ → τ → Prop
  | socks4a {t t₁ reply s} : Told T (socks4aPacket host port) t () t₁ → Heard T 8 t₁ reply s →
      reply[1]? = some 0x5a → Granted host port .socks4a t s
  | socks5 {t t₁ t₂ t₃ t₄ method reply s} : host.name.1.length < 256 →
      Told T socks5Hello t () t₁ → Heard T 2 t₁ method t₂ →
      method[0]? = some 0x05 ∧ method[1]? = some 0x00 →
      Told T (socks5Packet host port) t₂ () t₃ → Heard T 4 t₃ reply t₄ →
      reply[0]? = some 0x05 ∧ reply[1]? = some 0x00 → Address T (reply.getD 3 0) t₄ s →
      Granted host port .socks5 t s
  | http {t t₁ t₂ t₃ t₄ status retcode s} : Told T (httpRequest host port) t () t₁ →
      Told T (httpHost host port) t₁ () t₂ → Told T crlf t₂ () t₃ → Line T 4096 t₃ status t₄ →
      statusCode status = some retcode → 200 ≤ retcode ∧ retcode ≤ 299 → Header T t₄ s →
      Granted host port .http t s

/-- A call on a context without a connection moves no bytes for its caller, and
the proxy does not grant its handshake. -/
def Sound (ctx : ProxyPolarsslCtx τ) (call : Call) : Prop :=
  ctx.connected = false → call.size = 0 ∧ ∀ c host, ctx.fConnect = some c → ctx.host = some host →
    ∀ s, ¬ Granted T host ctx.port c ctx.net s

end Grant

variable {τ : Type} {T : Transport τ} {fuel : Nat}

theorem sockGets_some {sz : Nat} {t s : τ} {line : List UInt8} :
    sockGets T sz t = (some line, s) ↔ Line T sz t line s := by
  constructor
  · intro h
    induction sz generalizing t line s with
    | zero => simp [sockGets] at h
    | succ sz ih =>
        rw [sockGets] at h
        split at h
        next c u hr =>
          split at h
          next => simp at h
          next hz =>
            obtain ⟨n, rfl⟩ := Nat.exists_eq_succ_of_ne_zero hz
            split at h
            next hc =>
              obtain ⟨rfl, rfl⟩ := by simpa using h
              subst hc
              exact .newline hr
            next hc =>
              obtain ⟨h₁, rfl⟩ := Prod.mk.inj h
              obtain ⟨rest, hrest, rfl⟩ := Option.map_eq_some_iff.mp h₁
              exact .byte hr hc (ih (Prod.ext hrest rfl))
        next => simp at h
  · intro h
    induction h with
    | newline hr => simp [sockGets, hr]
    | byte hr hc _ ih =>
        rw [sockGets, hr]
        simp [hc, ih]

theorem skipAddress_true {len : Nat} {t s : τ} :
    skipAddress T len t = (true, s) ↔ Skipped T len t s := by
  constructor
  · intro h
    induction len using Nat.strong_induction_on generalizing t with
    | h len ih =>
        rw [skipAddress] at h
        split at h
        next hz =>
          obtain ⟨-, rfl⟩ := Prod.mk.inj h
          subst hz
          exact .done
        next hz =>
          obtain ⟨n, rfl⟩ := Nat.exists_eq_succ_of_ne_zero hz
          split at h
          next => simp at h
          next => simp at h
          next c bs u hr =>
            have hn : n + 1 - min (n + 1) (bs.length + 1) = n - bs.length := by omega
            rw [Nat.succ_eq_add_one, hn] at h
            exact .more hr (ih (n - bs.length) (by omega) h)
  · intro h
    induction h with
    | done => rw [skipAddress, if_pos rfl]
    | @more len t c bs u s hr _ ih =>
        have hn : len + 1 - min (len + 1) (bs.length + 1) = len - bs.length := by omega
        rw [skipAddress, if_neg (Nat.succ_ne_zero len), hr]
        simpa only [hn] using ih

theorem socks5Address_true {atyp : UInt8} {t s : τ} :
    socks5Address T atyp t = (true, s) ↔ Address T atyp t s := by
  constructor
  · intro h
    rw [socks5Address] at h
    split at h
    next ha =>
      subst ha
      split at h
      next len u hr => exact .domain hr (skipAddress_true.mp h)
      next => simp at h
    next h₃ =>
      split at h
      next ha =>
        subst ha
        split at h
        next buf u hr =>
          obtain ⟨hl, rfl⟩ := Prod.mk.inj h
          exact .ipv4 ⟨hr, by simpa using hl⟩
        next => simp at h
      next h₁ =>
        obtain ⟨-, rfl⟩ := Prod.mk.inj h
        exact .other h₃ h₁
  · intro h
    cases h with
    | domain hr hs => simp [socks5Address, hr, skipAddress_true.mpr hs]
    | ipv4 hb => simp [socks5Address, hb.1, hb.2]
    | other h₃ h₁ => simp [socks5Address, h₃, h₁]

theorem skipHeader_true {t s : τ} (h : skipHeader T fuel t = some (true, s)) : Header T t s := by
  induction fuel generalizing t with
  | zero => cases h
  | succ fuel ih =>
      rw [skipHeader] at h
      split at h
      next => simp at h
      next line u hg =>
        split at h
        next hl =>
          obtain ⟨-, rfl⟩ := Prod.mk.inj (Option.some.inj h)
          exact .done (sockGets_some.mp hg) hl
        next hl => exact .more (sockGets_some.mp hg) hl (ih h)

theorem Header.skip {t s : τ} (hh : Header T t s) {r : Bool × τ} (h : skipHeader T fuel t = some r) :
    r = (true, s) := by
  induction hh generalizing fuel with
  | done hl hc =>
      cases fuel with
      | zero => cases h
      | succ fuel =>
          rw [skipHeader, sockGets_some.mpr hl] at h
          simpa [hc, eq_comm] using h
  | more hl hc _ ih =>
      cases fuel with
      | zero => cases h
      | succ fuel =>
          rw [skipHeader, sockGets_some.mpr hl] at h
          exact ih (by simpa [hc] using h)

theorem decides_getLine : Decides (getLine T) (Line T 4096) := by
  intro t x s h a u
  have hx : sockGets T 4096 t = (x, s) := Option.some.inj h
  rw [← sockGets_some, hx, Prod.mk.injEq, eq_comm (a := s)]

theorem decides_address (atyp : UInt8) : Decides (address T atyp) fun t _ s => Address T atyp t s := by
  intro t x s h a u
  obtain ⟨rfl, rfl⟩ := Prod.mk.inj (Option.some.inj h)
  change Address T atyp t u ↔ _
  rw [← socks5Address_true]
  rcases socks5Address T atyp t with ⟨b, v⟩
  cases b <;> simp [eq_comm]

theorem decides_header : Decides (header T fuel) fun t _ s => Header T t s := by
  intro t x s h a u
  obtain ⟨⟨b, v⟩, hs, he⟩ := Option.map_eq_some_iff.mp h
  obtain ⟨rfl, rfl⟩ := Prod.mk.inj he
  constructor
  · intro hh
    obtain ⟨rfl, rfl⟩ := Prod.mk.inj (hh.skip hs)
    exact ⟨rfl, rfl⟩
  · rintro ⟨hb, rfl⟩
    cases b with
    | false => simp at hb
    | true => exact skipHeader_true hs

theorem decides_talk (host : Host) (port : UInt16) (c : Connector) :
    Decides (talk T host port fuel c) fun t _ s => Granted T host port c t s := by
  cases c with
  | socks4a =>
      refine ((decides_tell T _).bind fun _ => (decides_hear T 8).bind fun buf =>
        decides_guard _).mono ?_
      intro t a s
      constructor
      · rintro ⟨_, t₁, ht, reply, _, hr, hok, rfl⟩
        exact .socks4a ht hr hok
      · intro hg
        cases hg with
        | socks4a ht hr hok => exact ⟨(), _, ht, _, _, hr, hok, rfl⟩
  | socks5 =>
      refine ((decides_guard _).bind fun _ => (decides_tell T _).bind fun _ =>
        (decides_hear T 2).bind fun method => (decides_guard _).bind fun _ =>
        (decides_tell T _).bind fun _ => (decides_hear T 4).bind fun reply =>
        (decides_guard _).bind fun _ => decides_address _).mono ?_
      intro t a s
      constructor
      · rintro ⟨_, _, ⟨hlen, rfl⟩, _, t₁, ht, method, _, hm, _, _, ⟨hok, rfl⟩, _, t₃, ht', reply, _,
          hr, _, _, ⟨hok', rfl⟩, ha⟩
        exact .socks5 hlen ht hm hok ht' hr hok' ha
      · intro hg
        cases hg with
        | socks5 hlen ht hm hok ht' hr hok' ha =>
            exact ⟨(), _, ⟨hlen, rfl⟩, (), _, ht, _, _, hm, (), _, ⟨hok, rfl⟩, (), _, ht', _, _, hr,
              (), _, ⟨hok', rfl⟩, ha⟩
  | http =>
      refine ((decides_tell T _).bind fun _ => (decides_tell T _).bind fun _ =>
        (decides_tell T _).bind fun _ => decides_getLine.bind fun status =>
        (decides_guard _).bind fun _ => decides_header).mono ?_
      intro t a s
      constructor
      · rintro ⟨_, _, h₁, _, _, h₂, _, _, h₃, status, _, hl, _, _, ⟨⟨retcode, hs, hok⟩, rfl⟩, hh⟩
        exact .http h₁ h₂ h₃ hl hs hok hh
      · intro hg
        cases hg with
        | http h₁ h₂ h₃ hl hs hok hh =>
            exact ⟨(), _, h₁, (), _, h₂, (), _, h₃, _, _, hl, (), _, ⟨⟨_, hs, hok⟩, rfl⟩, hh⟩

theorem connect_cases {ctx ctx' : ProxyPolarsslCtx τ} {r : Int}
    (h : connect T fuel ctx = some (r, ctx')) :
    ∃ c host, ctx.fConnect = some c ∧ ctx.host = some host ∧
      ((r = 1 ∧ ctx'.connected = true ∧ ∃ s, Granted T host ctx.port c ctx.net s) ∨
        (r = 0 ∧ ctx'.connected = ctx.connected ∧ ∀ s, ¬ Granted T host ctx.port c ctx.net s)) := by
  rw [connect] at h
  split at h
  next c host hc hhost =>
    refine ⟨c, host, hc, hhost, ?_⟩
    obtain ⟨⟨x, s⟩, htalk, he⟩ := Option.map_eq_some_iff.mp h
    have hd := decides_talk host ctx.port c ctx.net x s htalk
    by_cases hx : x = some ()
    · rw [if_pos hx] at he
      cases he
      exact Or.inl ⟨rfl, rfl, s, (hd () s).mpr ⟨hx, rfl⟩⟩
    · rw [if_neg hx] at he
      cases he
      exact Or.inr ⟨rfl, rfl, fun u hg => hx ((hd () u).mp hg).1⟩
  next => cases h

def Exact (io : Io τ) : Prop := ∀ t, 0 < (io t).1 → (io t).1 = (io t).2.1.length

theorem fSend_exact (data : List UInt8) : Exact (fSend T data) := by
  intro t hpos
  rcases hw : (T.write t data).1 with _ | n
  · simp [fSend, Transport.send, hw, ioCode] at hpos
  · have hn := n.isLt
    simp only [fSend, Transport.send, hw, ioCode, Option.map_some, Option.getD_some, List.length_take]
    omega

theorem fRecv_exact (len : Nat) : Exact (fRecv T len) := by
  intro t hpos
  rcases hr : (T.recv t len).1 with _ | bs
  · simp [fRecv, hr, ioCode] at hpos
  · simp [fRecv, hr, ioCode]

theorem transfer_sound {ctx ctx' : ProxyPolarsslCtx τ} {size : Nat} {io : Io τ} {x : Exchange}
    (hio : Exact io) (h : transfer T fuel size io ctx = some (x, ctx')) :
    ctx'.connected = handshook ctx.connected x ∧
      (Honest (handshook ctx.connected x) x ↔ (ctx.connected = false → size = 0 ∧
        ∀ c host, ctx.fConnect = some c → ctx.host = some host →
          ∀ s, ¬ Granted T host ctx.port c ctx.net s)) := by
  rw [transfer] at h
  split at h
  next hc =>
    cases h
    refine ⟨by simp [handshook, hc], ?_⟩
    simpa [finish, handshook, Honest, hc] using hio ctx.net
  next hc =>
    have hf : ctx.connected = false := Bool.eq_false_of_not_eq_true hc
    obtain ⟨⟨r, mid⟩, hcon, he⟩ := Option.map_eq_some_iff.mp h
    obtain ⟨c, host, hfc, hhost, ⟨rfl, hm, s, hg⟩ | ⟨rfl, hm, hg⟩⟩ := connect_cases hcon
    · cases he
      refine ⟨by simp [handshook, hm], ?_⟩
      constructor
      · rintro ⟨-, hr⟩
        simp at hr
      · intro hs
        exact absurd hg ((hs hf).2 c host hfc hhost s)
    · cases he
      refine ⟨by simp [handshook, hm], ?_⟩
      constructor
      · rintro ⟨hasked, -⟩ -
        refine ⟨?_, ?_⟩
        · by_contra hsize
          simpa [handshook, finish, hf] using hasked hsize
        · intro c' host' hc' hh'
          obtain rfl := Option.some.inj (hfc.symm.trans hc')
          obtain rfl := Option.some.inj (hhost.symm.trans hh')
          exact hg
      · intro hs
        exact ⟨fun ha => absurd (hs hf).1 ha, hio mid.net⟩

/-- `connected` tells whether a handshake has succeeded, and a call is honest
exactly on its condition. -/
theorem step_honest {ctx ctx' : ProxyPolarsslCtx τ} {call : Call} {o : List Exchange}
    (h : step T fuel ctx call = some (ctx', o)) :
    ∃ x, o = [x] ∧ ctx'.connected = handshook ctx.connected x ∧
      (Honest (handshook ctx.connected x) x ↔ Sound T ctx call) := by
  cases call with
  | send data =>
      obtain ⟨⟨x, c⟩, hd, he⟩ := Option.map_eq_some_iff.mp h
      cases he
      exact ⟨x, rfl, transfer_sound (fSend_exact data) hd⟩
  | recv len =>
      obtain ⟨⟨x, c⟩, hd, he⟩ := Option.map_eq_some_iff.mp h
      cases he
      exact ⟨x, rfl, transfer_sound (fRecv_exact len) hd⟩

theorem guarded_append (seen : Bool) (xs : List Exchange) (x : Exchange) :
    Guarded seen (xs ++ [x]) ↔
      Guarded seen xs ∧ Honest (handshook (xs.foldl handshook seen) x) x := by
  induction xs generalizing seen with
  | nil => simp [Guarded]
  | cons y xs ih => simp only [List.cons_append, Guarded, ih, List.foldl_cons, and_assoc]

/-- The proxy layer is honest exactly in the runs that ask it for nothing while
the proxy refuses: no handshake may be granted, since the call that makes it
returns 1 and has moved nothing. -/
theorem calls_guarded_iff {ctx₀ ctx : ProxyPolarsslCtx τ} {calls : List Call} {out : List Exchange}
    (h₀ : ctx₀.connected = false)
    (hr : Machine.Run (step T fuel) Machine.Free ctx₀ calls ctx out) :
    Guarded false out ↔ Machine.Run (step T fuel) (Sound T) ctx₀ calls ctx out := by
  refine hr.admitted_iff (Guarded false) (fun ctx out => ctx.connected = out.foldl handshook false)
    trivial h₀ ?_
  intro ctx call ctx' o out hi hs
  obtain ⟨x, rfl, hc, hx⟩ := step_honest hs
  rw [hi] at hc hx
  refine ⟨?_, ?_⟩
  · rw [hc, List.foldl_append]
    rfl
  · rw [guarded_append, hx]

def fresh (net : τ) : ProxyPolarsslCtx τ :=
  setPort 443 (setHost shortHost.name (setScheme "socks4" (init net)).2).2

def refusing : Stream := ⟨[0x00, 0x5b, 0, 0, 0, 0, 0, 0], []⟩

theorem calls_guarded_iff_refused : ∃ ctx out,
    Machine.Run (step stream 0) Machine.Free (fresh refusing) [.send []] ctx out ∧
    out = [⟨some 0, 0, [], 0⟩] ∧
    (Guarded false out ↔
      Machine.Run (step stream 0) (Sound stream) (fresh refusing) [.send []] ctx out) := by
  have hx : ∃ ctx out, Machine.exec (step stream 0) (fresh refusing) [.send []] = some (ctx, out) ∧
      out = [⟨some 0, 0, [], 0⟩] := ⟨_, _, rfl, rfl⟩
  obtain ⟨ctx, out, hx, ho⟩ := hx
  exact ⟨ctx, out, Machine.Run.of_exec hx, ho, calls_guarded_iff rfl (Machine.Run.of_exec hx)⟩

/-- A proxy that refuses gets the payload; one that grants does not, and the call
claims one byte of it. -/
theorem calls_unguarded : (¬ ∀ (τ : Type) (T : Transport τ) (fuel : Nat)
      (ctx₀ ctx : ProxyPolarsslCtx τ) (calls : List Call) (out : List Exchange),
      ctx₀.connected = false → Machine.Run (step T fuel) Machine.Free ctx₀ calls ctx out →
      Guarded false out) ∧
    (∃ ctx, Machine.Run (step stream 0) Machine.Free (fresh refusing) [.send [1, 2, 3]] ctx
      [⟨some 0, 3, [1, 2, 3], 3⟩]) ∧
    ∃ ctx, Machine.Run (step stream 0) Machine.Free (fresh granting) [.send [1, 2, 3]] ctx
      [⟨some 1, 0, [], 1⟩] := by
  have hleak : ∃ ctx, Machine.exec (step stream 0) (fresh refusing) [.send [1, 2, 3]] =
      some (ctx, [⟨some 0, 3, [1, 2, 3], 3⟩]) := ⟨_, rfl⟩
  have hlie : ∃ ctx, Machine.exec (step stream 0) (fresh granting) [.send [1, 2, 3]] =
      some (ctx, [⟨some 1, 0, [], 1⟩]) := ⟨_, rfl⟩
  obtain ⟨ctx, hleak⟩ := hleak
  obtain ⟨ctx', hlie⟩ := hlie
  refine ⟨?_, ⟨ctx, Machine.Run.of_exec hleak⟩, ctx', Machine.Run.of_exec hlie⟩
  intro h
  have hg := h Stream stream 0 (fresh refusing) ctx _ _ rfl (Machine.Run.of_exec hleak)
  exact absurd (hg.1.1 (by decide)) (by decide)

end Tlsdate.PolarsslGuard
