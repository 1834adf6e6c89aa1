import Tlsdate.ProxyBio

namespace Tlsdate.ProxyGuard

open ByteStream ProxyBio

/-- Payload passes only while `connected` is set and after a connect handler has
returned 1; `seen` says whether one has so far. -/
def Ordered : Bool → List Mark → Prop
  | _, [] => True
  | seen, .handshake r :: ms => Ordered (seen || r == 1) ms
  | seen, .written _ connected :: ms => (connected = true ∧ seen = true) ∧ Ordered seen ms
  | seen, .returned bytes connected :: ms =>
      (bytes ≠ [] → connected = true ∧ seen = true) ∧ Ordered seen ms

def Guarded (ms : List Mark) : Prop := Ordered false ms

def handshook (seen : Bool) (ms : List Mark) : Bool := seen || ms.contains (.handshake 1)

section Condition

variable {τ : Type} (T : Transport τ)

def failing {α : Type} (x : Option α × τ) (next : α → τ → Option τ) : Option τ :=
  match x with
  | (none, t) => some t
  | (some a, t) => next a t

def fully (line : List UInt8) (next : τ → Option τ) (n : Nat) (t : τ) : Option τ :=
  if n = line.length then next t else none

/-- The transport fails in an operation whose failure the handshake passes on:
the request or the reply of SOCKS4a, the connect request of SOCKS5 or the read
of the reply's first four bytes, one of the three writes of HTTP. -/
def breaks (c : Connector) (host : Host) (port : UInt16) (t : τ) : Option τ :=
  match c with
  | .socks4a => failing (T.send t (socks4aPacket host port))
      (fully (socks4aPacket host port) fun t => failing (T.recv t 8) fun _ _ => none)
  | .socks5 =>
      if host.name.1.length ≥ 256 then none
      else
        match T.send t socks5Hello with
        | (some n, t) => fully socks5Hello (fun t =>
            match T.recv t 2 with
            | (some reply, t) =>
                if reply = [0x05, 0x00] then
                  failing (T.send t (socks5Packet host port))
                    (fully (socks5Packet host port) fun t => failing (T.recv t 4) fun _ _ => none)
                else none
            | (none, _) => none) n t
        | (none, _) => none
  | .http => failing (T.send t (httpRequest host port))
      (fully (httpRequest host port) fun t => failing (T.send t (httpHost host port))
        (fully (httpHost host port) fun t => failing (T.send t crlf) fun _ _ => none))

/-- A handshake made for a write does not break; one made for a read does not,
unless the transport then delivers nothing to the read. -/
def Sound (p : Proxy τ) (call : Call) : Prop :=
  p.ctx.connected = false → ∀ c host, p.ctx.connect = some c → p.ctx.host = some host →
    match call with
    | .write buf => buf ≠ [] → breaks T c host p.ctx.port p.next = none
    | .read sz => ∀ t, breaks T c host p.ctx.port p.next = some t → (T.recv t sz).1.getD [] = []

end Condition

variable {τ : Type} {T : Transport τ} {fuel : Nat}

theorem ordered_append (seen : Bool) (ms ms' : List Mark) :
    Ordered seen (ms ++ ms') ↔ Ordered seen ms ∧ Ordered (handshook seen ms) ms' := by
  induction ms generalizing seen with
  | nil => simp [Ordered, handshook]
  | cons m ms ih =>
      cases m with
      | handshake r =>
          have hb : handshook (seen || r == 1) ms = handshook seen (.handshake r :: ms) := by
            simp [handshook, Bool.or_assoc, Bool.beq_eq_decide_eq, eq_comm]
          simp only [List.cons_append, Ordered, ih, hb]
      | written _ _ | returned _ _ =>
          simp only [List.cons_append, Ordered, ih, and_assoc]
          simp [handshook]

theorem sendLine_cases (T : Transport τ) (line : List UInt8) (t : τ) :
    (∃ t', sendLine T line t = .ok t' ∧ T.send t line = (some line.length, t')) ∨
      (∃ t', sendLine T line t = .error (-1, t') ∧ T.send t line = (none, t')) ∨
      ∃ n t', sendLine T line t = .error (0, t') ∧ T.send t line = (some n, t') ∧ n ≠ line.length := by
  rw [sendLine]
  rcases hs : T.send t line with ⟨_ | n, t'⟩
  · exact Or.inr (Or.inl ⟨t', rfl, rfl⟩)
  · by_cases hn : n = line.length
    · exact Or.inl ⟨t', by simp [hn], by rw [hn]⟩
    · exact Or.inr (Or.inr ⟨n, t', by simp [hn], rfl, hn⟩)

/-- A connect handler sets `connected` exactly when it returns 1, and returns -1
exactly when the transport breaks the handshake. -/
def Outcome (T : Transport τ) (c : Connector) (host : Host) (ctx : ProxyCtx) (t : τ)
    (done : Int × ProxyCtx × τ) : Prop :=
  (done.1 = 1 ∧ done.2.1 = { ctx with connected := true } ∧ breaks T c host ctx.port t = none) ∨
    (done.1 = 0 ∧ done.2.1 = ctx ∧ breaks T c host ctx.port t = none) ∨
    (done.1 = -1 ∧ done.2.1 = ctx ∧ breaks T c host ctx.port t = some done.2.2)

theorem socks4aConnect_outcome (host : Host) (ctx : ProxyCtx) (t : τ) :
    Outcome T .socks4a host ctx t (socks4aConnect T host ctx t) := by
  unfold Outcome socks4aConnect breaks
  rcases hs : T.send t (socks4aPacket host ctx.port) with ⟨_ | n, t₁⟩
  · simp [failing, hs]
  · by_cases hn : n = (socks4aPacket host ctx.port).length
    · rcases hr : T.recv t₁ 8 with ⟨_ | buf, t₂⟩
      · simp [failing, fully, hs, hn, hr]
      · by_cases hl : buf.length = 8
        · by_cases hc : buf[1]? = some 0x5a
          all_goals
            simp only [failing, fully, hs, hn, hr, hl, hc, ne_eq, not_true_eq_false, if_true, if_false]
            simp
        · simp [failing, fully, hs, hn, hr, hl]
    · simp [failing, fully, hs, hn]

theorem socks5Address_outcome (atyp : UInt8) (ctx : ProxyCtx) (t : τ) :
    let address := socks5Address T atyp t
    let done := if address.1 then ((1 : Int), { ctx with connected := true }, address.2)
      else (0, ctx, address.2)
    (done.1 = 1 ∧ done.2.1 = { ctx with connected := true }) ∨ (done.1 = 0 ∧ done.2.1 = ctx) := by
  intro address done
  cases h : address.1 <;> simp [done, h]

theorem socks5Request_outcome (host : Host) (ctx : ProxyCtx) (t : τ) :
    let broken := failing (T.send t (socks5Packet host ctx.port)) (fully (socks5Packet host ctx.port)
      fun t => failing (T.recv t 4) fun _ _ => none)
    let done := socks5Request T host ctx t
    (done.1 = 1 ∧ done.2.1 = { ctx with connected := true } ∧ broken = none) ∨
      (done.1 = 0 ∧ done.2.1 = ctx ∧ broken = none) ∨
      (done.1 = -1 ∧ done.2.1 = ctx ∧ broken = some done.2.2) := by
  unfold socks5Request
  rcases hs : T.send t (socks5Packet host ctx.port) with ⟨_ | n, t₁⟩
  · simp [failing, hs]
  · by_cases hn : n = (socks5Packet host ctx.port).length
    · rcases hr : T.recv t₁ 4 with ⟨_ | buf, t₂⟩
      · simp [failing, fully, hs, hn, hr]
      · simp only [failing, fully, hs, hn, hr, ne_eq, not_true_eq_false, if_true, if_false]
        split
        next => simp_all
        next ver status rsv atyp t₃ heq =>
          split
          next => simp
          next =>
            have := @socks5Address_outcome τ T atyp ctx t₃
            simpa using this
        next => simp
    · simp [failing, fully, hs, hn]

theorem socks5Connect_outcome (host : Host) (ctx : ProxyCtx) (t : τ) :
    Outcome T .socks5 host ctx t (socks5Connect T host ctx t) := by
  rw [Outcome, socks5Connect, breaks]
  by_cases hh : host.name.1.length ≥ 256
  · simp [hh]
  · simp only [hh, if_false]
    rcases hs : T.send t socks5Hello with ⟨_ | n, t₁⟩
    · simp
    · by_cases hn : n = socks5Hello.length
      · rcases hr : T.recv t₁ 2 with ⟨_ | buf, t₂⟩
        · simp [fully, hn, hr]
        · simp only [fully, hn, hr, ne_eq, not_true_eq_false, if_true, if_false]
          split
          next ver method t₃ heq =>
            simp only [Prod.mk.injEq, Option.some.injEq] at heq
            obtain ⟨rfl, rfl⟩ := heq
            by_cases hv : ver = 0x05 ∧ method = 0x00
            · obtain ⟨rfl, rfl⟩ := hv
              simpa using @socks5Request_outcome τ T host ctx t₂
            · have hrefused : ver ≠ 0x05 ∨ method ≠ 0x00 := by
                rwa [not_and_or] at hv
              have hne : [ver, method] ≠ [0x05, 0x00] := by simpa [not_and] using hv
              rw [if_pos hrefused, if_neg hne]
              simp
          next x t₃ hshape heq =>
            obtain ⟨rfl, rfl⟩ := Prod.mk.inj heq
            have hne : buf ≠ [0x05, 0x00] := fun he => hshape 0x05 0x00 (congrArg some he)
            rw [if_neg hne]
            simp
      · simp [fully, hn]

theorem httpReply_cases {ctx : ProxyCtx} {t : τ} {done : Int × ProxyCtx × τ}
    (h : httpReply T fuel ctx t = some done) :
    (done.1 = 1 ∧ done.2.1 = { ctx with connected := true }) ∨ (done.1 = 0 ∧ done.2.1 = ctx) := by
  rw [httpReply] at h
  split at h
  next => cases h; simp
  next =>
    split at h
    next => cases h; simp
    next =>
      split at h
      next => cases h; simp
      next =>
        obtain ⟨header, -, rfl⟩ := Option.map_eq_some_iff.mp h
        cases header.1 <;> simp

theorem httpConnect_outcome {host : Host} {ctx : ProxyCtx} {t : τ} {done : Int × ProxyCtx × τ}
    (h : httpConnect T fuel host ctx t = some done) : Outcome T .http host ctx t done := by
  rw [Outcome, breaks]
  rw [httpConnect] at h
  rcases sendLine_cases T (httpRequest host ctx.port) t with ⟨t₁, h₁, hs₁⟩ | ⟨t₁, h₁, hs₁⟩ |
    ⟨n, t₁, h₁, hs₁, hn⟩
  · rcases sendLine_cases T (httpHost host ctx.port) t₁ with ⟨t₂, h₂, hs₂⟩ | ⟨t₂, h₂, hs₂⟩ |
      ⟨n, t₂, h₂, hs₂, hn⟩
    · rcases sendLine_cases T crlf t₂ with ⟨t₃, h₃, hs₃⟩ | ⟨t₃, h₃, hs₃⟩ | ⟨n, t₃, h₃, hs₃, hn⟩
      · have hok : failing (T.send t (httpRequest host ctx.port)) (fully (httpRequest host ctx.port)
            fun t => failing (T.send t (httpHost host ctx.port)) (fully (httpHost host ctx.port)
              fun t => failing (T.send t crlf) fun _ _ => none)) = none := by
          simp [failing, fully, hs₁, hs₂, hs₃]
        simp only [hok, reduceCtorEq, and_false, or_false]
        simp only [h₁, h₂, h₃, bind, Except.bind] at h
        simpa using httpReply_cases h
      · simp only [h₁, h₂, h₃, bind, Except.bind, Option.some.injEq] at h
        subst h
        simp [failing, fully, hs₁, hs₂, hs₃]
      · simp only [h₁, h₂, h₃, bind, Except.bind, Option.some.injEq] at h
        subst h
        simp [failing, fully, hs₁, hs₂, hs₃]
    · simp only [h₁, h₂, bind, Except.bind, Option.some.injEq] at h
      subst h
      simp [failing, fully, hs₁, hs₂]
    · simp only [h₁, h₂, bind, Except.bind, Option.some.injEq] at h
      subst h
      simp [failing, fully, hs₁, hs₂, hn]
  · simp only [h₁, bind, Except.bind, Option.some.injEq] at h
    subst h
    simp [failing, hs₁]
  · simp only [h₁, bind, Except.bind, Option.some.injEq] at h
    subst h
    simp [failing, fully, hs₁, hn]

theorem connect_outcome {c : Connector} {host : Host} {ctx : ProxyCtx} {t : τ}
    {done : Int × ProxyCtx × τ} (h : connect T fuel c host ctx t = some done) :
    Outcome T c host ctx t done := by
  cases c with
  | socks4a => exact Option.some.inj h ▸ socks4aConnect_outcome host ctx t
  | socks5 => exact Option.some.inj h ▸ socks5Connect_outcome host ctx t
  | http => exact httpConnect_outcome h

theorem establish_cases {p p' : Proxy τ} {go : Bool} {ms : List Mark}
    (h : establish T fuel p = some (go, ms, p')) :
    (p.ctx.connected = true ∧ go = true ∧ ms = [] ∧ p' = p) ∨
      (p.ctx.connected = false ∧ ∃ c host, p.ctx.connect = some c ∧ p.ctx.host = some host ∧
        ((go = true ∧ ms = [.handshake 1] ∧ p'.ctx.connected = true ∧
            breaks T c host p.ctx.port p.next = none) ∨
          (go = false ∧ ms = [.handshake 0] ∧ p'.ctx.connected = false ∧
            breaks T c host p.ctx.port p.next = none) ∨
          (go = true ∧ ms = [.handshake (-1)] ∧ p'.ctx.connected = false ∧
            breaks T c host p.ctx.port p.next = some p'.next))) := by
  rw [establish] at h
  split at h
  next hc =>
    cases h
    exact Or.inl ⟨hc, rfl, rfl, rfl⟩
  next hc =>
    have hf : p.ctx.connected = false := Bool.eq_false_of_not_eq_true hc
    split at h
    next c host hcon hhost =>
      obtain ⟨⟨r, ctx, t⟩, hdone, he⟩ := Option.map_eq_some_iff.mp h
      refine Or.inr ⟨hf, c, host, hcon, hhost, ?_⟩
      rcases connect_outcome hdone with ⟨rfl, rfl, hb⟩ | ⟨rfl, rfl, hb⟩ | ⟨rfl, rfl, hb⟩
      · cases he
        exact Or.inl ⟨rfl, rfl, rfl, hb⟩
      · cases he
        exact Or.inr (Or.inl ⟨rfl, rfl, hf, hb⟩)
      · cases he
        exact Or.inr (Or.inr ⟨rfl, rfl, hf, hb⟩)
    next => cases h

/-- `connected` tells whether a connect handler has returned 1, and a call lets
payload pass without that exactly when the transport breaks its handshake. -/
theorem step_sound {p p' : Proxy τ} {call : Call} {o : List Mark}
    (hs : step T fuel p call = some (p', o)) :
    p'.ctx.connected = handshook p.ctx.connected o ∧
      (Ordered p.ctx.connected o ↔ Sound T p call) := by
  cases call with
  | write buf =>
      simp only [step, proxyWrite] at hs
      split at hs
      next hb =>
        cases hs
        exact ⟨by simp [handshook], by simp [Ordered, Sound, hb]⟩
      next hb =>
        obtain ⟨done, hd, he⟩ := Option.map_eq_some_iff.mp hs
        obtain ⟨⟨go, ms, q⟩, hg, rfl⟩ := Option.map_eq_some_iff.mp hd
        rcases establish_cases hg with ⟨hc, rfl, rfl, rfl⟩ | ⟨hc, c, host, hcon, hhost, hcases⟩
        · cases he
          simp [Ordered, Sound, handshook, hc]
        · rcases hcases with ⟨rfl, rfl, hq, hbr⟩ | ⟨rfl, rfl, hq, hbr⟩ | ⟨rfl, rfl, hq, hbr⟩ <;>
            cases he <;> simp [Ordered, Sound, handshook, hc, hcon, hhost, hq, hbr, hb]
  | read sz =>
      simp only [step, proxyRead] at hs
      obtain ⟨done, hd, he⟩ := Option.map_eq_some_iff.mp hs
      obtain ⟨⟨go, ms, q⟩, hg, rfl⟩ := Option.map_eq_some_iff.mp hd
      rcases establish_cases hg with ⟨hc, rfl, rfl, rfl⟩ | ⟨hc, c, host, hcon, hhost, hcases⟩
      · cases he
        simp [Ordered, Sound, handshook, hc]
      · rcases hcases with ⟨rfl, rfl, hq, hbr⟩ | ⟨rfl, rfl, hq, hbr⟩ | ⟨rfl, rfl, hq, hbr⟩ <;>
          cases he <;> simp [Ordered, Sound, handshook, hc, hcon, hhost, hq, hbr]

/-- Payload passes the proxy only after its handshake exactly in the runs whose
handshakes the transport does not break. -/
theorem payload_guarded_iff {p₀ p : Proxy τ} {calls : List Call} {marks : List Mark}
    (h₀ : p₀.ctx.connected = false)
    (hr : Machine.Run (step T fuel) Machine.Free p₀ calls p marks) :
    Guarded marks ↔ Machine.Run (step T fuel) (Sound T) p₀ calls p marks := by
  refine hr.admitted_iff Guarded (fun p marks => p.ctx.connected = handshook false marks)
    trivial (by simp [h₀, handshook]) ?_
  intro s call s' o out hi hs
  obtain ⟨hc, ho⟩ := step_sound hs
  rw [hi] at hc ho
  refine ⟨?_, ?_⟩
  · rw [hc]
    simp [handshook]
  · rw [Guarded, ordered_append, ho]
    rfl

def shortHost : Host := ⟨⟨[104], by decide⟩, by decide⟩

def socks4aProxy (next : τ) : Proxy τ :=
  ⟨setPort 443 (setHost shortHost.name (setType "socks4a" proxyNew).2).2, next⟩

def granting : Stream := ⟨[0x00, 0x5a, 0, 0, 0, 0, 0, 0], []⟩

theorem payload_guarded_iff_granted : ∃ p marks,
    Machine.Run (step stream 0) Machine.Free (socks4aProxy granting) [.write [1, 2, 3]] p marks ∧
    marks = [.handshake 1, .written [1, 2, 3] true] ∧
    (Guarded marks ↔
      Machine.Run (step stream 0) (Sound stream) (socks4aProxy granting) [.write [1, 2, 3]] p marks) := by
  have hx : ∃ p marks, Machine.exec (step stream 0) (socks4aProxy granting) [.write [1, 2, 3]] =
      some (p, marks) ∧ marks = [.handshake 1, .written [1, 2, 3] true] := ⟨_, _, rfl, rfl⟩
  obtain ⟨p, marks, hx, hm⟩ := hx
  exact ⟨p, marks, Machine.Run.of_exec hx, hm, payload_guarded_iff rfl (Machine.Run.of_exec hx)⟩

def flaky : Transport Bool where
  write failed bs :=
    bif failed then (some (Fin.last bs.length), true) else (none, true)
  read failed _ := (none, failed)

/-- The failed write of the request is -1, which the guard takes for success. -/
theorem payload_leaks : ¬ ∀ (τ : Type) (T : Transport τ) (fuel : Nat) (p₀ p : Proxy τ)
    (calls : List Call) (marks : List Mark), p₀.ctx.connected = false →
    Machine.Run (step T fuel) Machine.Free p₀ calls p marks → Guarded marks := by
  intro h
  have hx : ∃ p marks, Machine.exec (step flaky 0) (socks4aProxy false) [.write [1, 2, 3]] =
      some (p, marks) ∧ marks = [.handshake (-1), .written [1, 2, 3] false] := ⟨_, _, rfl, rfl⟩
  obtain ⟨p, marks, hx, rfl⟩ := hx
  have hg := h Bool flaky 0 (socks4aProxy false) p _ _ rfl (Machine.Run.of_exec hx)
  exact absurd hg.1.1 (by decide)

end Tlsdate.ProxyGuard
