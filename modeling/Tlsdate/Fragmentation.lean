import Tlsdate.ProxyGuard

namespace Tlsdate.Fragmentation

open ByteStream ProxyBio ProxyGuard

section Pieces

variable {τ : Type} (T : Transport τ) (host : Host) (port : UInt16)

def addressType : Option (List UInt8) → Option UInt8
  | some [ver, status, _, atyp] => if ver = 0x05 ∧ status = 0x00 then some atyp else none
  | _ => none

/-- What the fixed size reads of the answer to a SOCKS5 request get: the four
bytes up to the address type, and the six of an address with its port. The length
of a name is a single byte, and a name is read until it is complete. -/
def requestPieces (t : τ) : List (Option (List UInt8)) :=
  let sent := T.send t (socks5Packet host port)
  if sent.1 = some (socks5Packet host port).length then
    (T.recv sent.2 4).1 ::
      if addressType (T.recv sent.2 4).1 = some 0x01 then [(T.recv (T.recv sent.2 4).2 6).1] else []
  else []

/-- What the fixed size reads of a handshake get from the transport. A reply
over HTTP is read by single bytes. -/
def pieces (c : Connector) (t : τ) : List (Option (List UInt8)) :=
  match c with
  | .http => []
  | .socks4a =>
      let sent := T.send t (socks4aPacket host port)
      if sent.1 = some (socks4aPacket host port).length then [(T.recv sent.2 8).1] else []
  | .socks5 =>
      let sent := T.send t socks5Hello
      if host.name.1.length < 256 ∧ sent.1 = some socks5Hello.length then
        (T.recv sent.2 2).1 ::
          if (T.recv sent.2 2).1 = some [0x05, 0x00] then
            requestPieces T host port (T.recv sent.2 2).2
          else []
      else []

def outcome (view : τ → View) (done : Int × ProxyCtx × τ) : Int × List UInt8 :=
  (done.1, (view done.2.2).unread)

end Pieces

section Replies

variable {τ : Type} {T : Transport τ} {view : τ → View} {host : Host} {ctx : ProxyCtx} {t : τ}

theorem verdict_inj {a b : Bool} {l m : List UInt8} :
    ((if a then 1 else 0 : Int), l) = (if b then 1 else 0, m) ↔ (a, l) = (b, m) := by
  cases a <;> cases b <;> simp

def granted : Option (List UInt8) → Int
  | none => -1
  | some buf => if buf.length = 8 ∧ buf[1]? = some 0x5a then 1 else 0

theorem socks4aConnect_granted (hsent : (T.send t (socks4aPacket host ctx.port)).1 =
      some (socks4aPacket host ctx.port).length) :
    outcome view (socks4aConnect T host ctx t) =
      (granted (T.recv (T.send t (socks4aPacket host ctx.port)).2 8).1,
        (view (T.recv (T.send t (socks4aPacket host ctx.port)).2 8).2).unread) := by
  rw [socks4aConnect]
  rcases hs : T.send t (socks4aPacket host ctx.port) with ⟨n, u⟩
  rw [hs] at hsent
  obtain rfl : n = _ := hsent
  simp only [ne_eq, not_true_eq_false, if_false]
  rcases T.recv u 8 with ⟨_ | buf, v⟩
  · rfl
  · by_cases hlen : buf.length = 8
    · by_cases hcode : buf[1]? = some 0x5a
      · simp only [granted, hlen, hcode, not_true_eq_false, if_false, and_self, if_true]
        rfl
      · simp only [granted, hlen, hcode, not_true_eq_false, if_false, and_false]
        rfl
    · simp [outcome, granted, hlen]

theorem socks4aConnect_unsent (hsent : ¬ (T.send t (socks4aPacket host ctx.port)).1 =
      some (socks4aPacket host ctx.port).length) :
    outcome view (socks4aConnect T host ctx t) =
      (if (T.send t (socks4aPacket host ctx.port)).1 = none then -1 else 0,
        (view (T.send t (socks4aPacket host ctx.port)).2).unread) := by
  rw [socks4aConnect]
  rcases hs : T.send t (socks4aPacket host ctx.port) with ⟨_ | n, u⟩
  · rfl
  · rw [hs] at hsent
    have hn : n ≠ (socks4aPacket host ctx.port).length := fun h => hsent (congrArg some h)
    simp [outcome, hn]

theorem socks5Request_unsent (hsent : ¬ (T.send t (socks5Packet host ctx.port)).1 =
      some (socks5Packet host ctx.port).length) :
    outcome view (socks5Request T host ctx t) =
      (if (T.send t (socks5Packet host ctx.port)).1 = none then -1 else 0,
        (view (T.send t (socks5Packet host ctx.port)).2).unread) := by
  rw [socks5Request]
  rcases hs : T.send t (socks5Packet host ctx.port) with ⟨_ | n, u⟩
  · rfl
  · rw [hs] at hsent
    have hn : n ≠ (socks5Packet host ctx.port).length := fun h => hsent (congrArg some h)
    simp [outcome, hn]

theorem socks5Request_refused (hsent : (T.send t (socks5Packet host ctx.port)).1 =
      some (socks5Packet host ctx.port).length)
    (h : addressType (T.recv (T.send t (socks5Packet host ctx.port)).2 4).1 = none) :
    outcome view (socks5Request T host ctx t) =
      (if (T.recv (T.send t (socks5Packet host ctx.port)).2 4).1 = none then -1 else 0,
        (view (T.recv (T.send t (socks5Packet host ctx.port)).2 4).2).unread) := by
  rw [socks5Request]
  rcases hs : T.send t (socks5Packet host ctx.port) with ⟨n, u⟩
  rw [hs] at hsent h
  obtain rfl : n = _ := hsent
  simp only [ne_eq, not_true_eq_false, if_false]
  rcases hr : T.recv u 4 with ⟨_ | _ | ⟨ver, _ | ⟨status, _ | ⟨rsv, _ | ⟨atyp, _ | ⟨b, bs⟩⟩⟩⟩⟩, v⟩
  all_goals try rfl
  rw [hr] at h
  have hver : ver ≠ 0x05 ∨ status ≠ 0x00 := by
    rw [← not_and_or]
    intro hver
    rw [addressType, if_pos hver] at h
    cases h
  simp only [if_pos hver]
  rfl

theorem socks5Request_granted (hsent : (T.send t (socks5Packet host ctx.port)).1 =
      some (socks5Packet host ctx.port).length) {atyp : UInt8} {u : τ}
    (hu : (T.recv (T.send t (socks5Packet host ctx.port)).2 4).2 = u)
    (h : addressType (T.recv (T.send t (socks5Packet host ctx.port)).2 4).1 = some atyp) :
    outcome view (socks5Request T host ctx t) =
      (if (socks5Address T atyp u).1 then 1 else 0, (view (socks5Address T atyp u).2).unread) := by
  subst hu
  rw [socks5Request]
  rcases hs : T.send t (socks5Packet host ctx.port) with ⟨n, u⟩
  rw [hs] at hsent h
  obtain rfl : n = _ := hsent
  simp only [ne_eq, not_true_eq_false, if_false]
  rcases hr : T.recv u 4 with ⟨_ | _ | ⟨ver, _ | ⟨status, _ | ⟨rsv, _ | ⟨b, _ | ⟨c, bs⟩⟩⟩⟩⟩, v⟩
  all_goals rw [hr] at h
  all_goals try cases h
  rw [addressType] at h
  split_ifs at h with hver
  obtain rfl := Option.some.inj h
  have hgrant : ¬ (ver ≠ 0x05 ∨ status ≠ 0x00) := by simp [hver]
  simp only [if_neg hgrant]
  cases (socks5Address T b v).1 <;> rfl

theorem socks5Request_short (hsent : (T.send t (socks5Packet host ctx.port)).1 =
      some (socks5Packet host ctx.port).length) {bs : List UInt8}
    (hr : (T.recv (T.send t (socks5Packet host ctx.port)).2 4).1 = some bs)
    (hshort : bs.length ≠ 4) :
    (outcome view (socks5Request T host ctx t)).2 =
      (view (T.recv (T.send t (socks5Packet host ctx.port)).2 4).2).unread := by
  rw [socks5Request_refused hsent]
  rw [hr]
  rcases bs with _ | ⟨ver, _ | ⟨status, _ | ⟨rsv, _ | ⟨atyp, _ | ⟨b, bs⟩⟩⟩⟩⟩
  all_goals first | rfl | exact absurd rfl hshort

theorem socks5Connect_open (hsent : host.name.1.length < 256 ∧
      (T.send t socks5Hello).1 = some socks5Hello.length)
    (hopen : (T.recv (T.send t socks5Hello).2 2).1 = some [0x05, 0x00]) :
    socks5Connect T host ctx t = socks5Request T host ctx (T.recv (T.send t socks5Hello).2 2).2 := by
  obtain ⟨hname, hsent⟩ := hsent
  rw [socks5Connect, if_neg (Nat.not_le_of_lt hname)]
  rcases hs : T.send t socks5Hello with ⟨n, u⟩
  rw [hs] at hsent hopen
  obtain rfl : n = _ := hsent
  rcases hr : T.recv u 2 with ⟨r, v⟩
  rw [hr] at hopen
  obtain rfl : r = _ := hopen
  simp only [ne_eq, not_true_eq_false, if_false, hr, or_self]

theorem socks5Connect_closed (hsent : host.name.1.length < 256 ∧
      (T.send t socks5Hello).1 = some socks5Hello.length)
    (hclosed : (T.recv (T.send t socks5Hello).2 2).1 ≠ some [0x05, 0x00]) :
    outcome view (socks5Connect T host ctx t) =
      (0, (view (T.recv (T.send t socks5Hello).2 2).2).unread) := by
  obtain ⟨hname, hsent⟩ := hsent
  rw [socks5Connect, if_neg (Nat.not_le_of_lt hname)]
  rcases hs : T.send t socks5Hello with ⟨n, u⟩
  rw [hs] at hsent hclosed
  obtain rfl : n = _ := hsent
  simp only [ne_eq, not_true_eq_false, if_false]
  rcases hr : T.recv u 2 with ⟨_ | _ | ⟨ver, _ | ⟨method, _ | ⟨b, bs⟩⟩⟩, v⟩
  all_goals try rfl
  rw [hr] at hclosed
  have hver : ver ≠ 0x05 ∨ method ≠ 0x00 := by
    rw [← not_and_or]
    rintro ⟨rfl, rfl⟩
    exact hclosed rfl
  simp only [if_pos hver]
  rfl

theorem socks5Connect_short (hsent : host.name.1.length < 256 ∧
      (T.send t socks5Hello).1 = some socks5Hello.length) {bs : List UInt8}
    (hr : (T.recv (T.send t socks5Hello).2 2).1 = some bs) (hshort : bs.length ≠ 2) :
    (outcome view (socks5Connect T host ctx t)).2 =
      (view (T.recv (T.send t socks5Hello).2 2).2).unread := by
  rw [socks5Connect_closed hsent]
  rw [hr]
  rintro ⟨⟩
  exact hshort rfl

end Replies

variable {τ₁ τ₂ : Type} {T₁ : Transport τ₁} {T₂ : Transport τ₂}
  {accept : List (List UInt8) → List UInt8 → Option Nat} {eof : Option (List UInt8)}
  {view₁ : τ₁ → View} {view₂ : τ₂ → View} (h₁ : Fragments T₁ accept eof view₁)
  (h₂ : Fragments T₂ accept eof view₂) {t₁ : τ₁} {t₂ : τ₂} {host : Host} {ctx : ProxyCtx}

include h₁ in
theorem skipAddress_spec (len : Nat) (t : τ₁) :
    (skipAddress T₁ len t).1 = decide (len ≤ (view₁ t).unread.length) ∧
      view₁ (skipAddress T₁ len t).2 = ⟨(view₁ t).written, (view₁ t).unread.drop len⟩ := by
  induction len using Nat.strong_induction_on generalizing t with
  | _ len ih =>
      rw [skipAddress]
      split_ifs with h0
      · subst h0
        exact ⟨by simp, rfl⟩
      · by_cases ht : (view₁ t).unread = []
        · obtain ⟨hend, hv⟩ := h₁.recv_end ht (min len (niMaxHost + 16))
          have hshort : ¬ len ≤ (view₁ t).unread.length := by
            rw [ht, List.length_nil]
            omega
          have hdrop : (view₁ t).unread.drop len = (view₁ t).unread := by simp [ht]
          rw [decide_eq_false hshort, hdrop]
          obtain ⟨-, hr⟩ | ⟨-, hr⟩ := hend
          · rw [hr]
            exact ⟨rfl, hv⟩
          · rw [hr]
            exact ⟨rfl, hv⟩
        · obtain ⟨bs, rest, hne, hsplit, hr, hv⟩ :=
            h₁.piece t (min len (niMaxHost + 16)) (by rw [niMaxHost]; omega) ht
          have hlen := recv_length hr
          obtain ⟨b, bs, rfl⟩ := List.exists_cons_of_ne_nil hne
          rw [List.length_cons] at hlen
          have hmin : len - min len (bs.length + 1) = len - (bs.length + 1) := by omega
          have hle : len ≤ (b :: bs ++ rest).length ↔ len - (bs.length + 1) ≤ rest.length := by
            rw [List.length_append, List.length_cons]
            omega
          have hdrop : (b :: bs ++ rest).drop len = rest.drop (len - (bs.length + 1)) := by
            rw [List.drop_append, List.drop_eq_nil_of_le (by rw [List.length_cons]; omega)]
            rfl
          obtain ⟨hok, hview⟩ := ih (len - (bs.length + 1)) (by omega)
            (T₁.recv t (min len (niMaxHost + 16))).2
          rw [show T₁.recv t _ = (some (b :: bs), _) from Prod.ext hr rfl]
          rw [hv] at hok hview
          simp only [hmin, hsplit, hle, hdrop]
          exact ⟨hok, hview⟩

section One

include h₁

theorem skipAddress_le (len : Nat) (t : τ₁) :
    (view₁ (skipAddress T₁ len t).2).unread.length ≤ (view₁ t).unread.length := by
  rw [(skipAddress_spec h₁ len t).2, List.length_drop]
  exact Nat.sub_le ..

theorem socks5Address_le (atyp : UInt8) (t : τ₁) :
    (view₁ (socks5Address T₁ atyp t).2).unread.length ≤ (view₁ t).unread.length := by
  rw [socks5Address]
  split_ifs
  · have hle := h₁.recv_unread_le t Nat.one_pos
    rcases hr : T₁.recv t 1 with ⟨_ | _ | ⟨len, _ | ⟨b, bs⟩⟩, u⟩ <;> rw [hr] at hle
    · exact hle
    · exact hle
    · exact (skipAddress_le h₁ _ u).trans hle
    · exact hle
  · have hle := h₁.recv_unread_le t (show 0 < 6 by decide)
    rcases hr : T₁.recv t 6 with ⟨_ | buf, u⟩ <;> rw [hr] at hle <;> exact hle
  · exact Nat.le_refl _

theorem socks5Request_left (hsent : (T₁.send t₁ (socks5Packet host ctx.port)).1 =
      some (socks5Packet host ctx.port).length) :
    (outcome view₁ (socks5Request T₁ host ctx t₁)).2.length ≤
      (view₁ (T₁.recv (T₁.send t₁ (socks5Packet host ctx.port)).2 4).2).unread.length := by
  cases htype : addressType (T₁.recv (T₁.send t₁ (socks5Packet host ctx.port)).2 4).1 with
  | none =>
      rw [socks5Request_refused hsent htype]
  | some atyp =>
      rw [socks5Request_granted hsent rfl htype]
      exact socks5Address_le h₁ atyp _

theorem socks5Request_le (t : τ₁) :
    (outcome view₁ (socks5Request T₁ host ctx t)).2.length ≤ (view₁ t).unread.length := by
  have hview : (view₁ (T₁.send t (socks5Packet host ctx.port)).2).unread = (view₁ t).unread := by
    rw [(h₁.send t (socks5Packet host ctx.port)).2]
  have hread := h₁.recv_unread_le (T₁.send t (socks5Packet host ctx.port)).2 (show 0 < 4 by decide)
  rw [hview] at hread
  by_cases hsent : (T₁.send t (socks5Packet host ctx.port)).1 =
      some (socks5Packet host ctx.port).length
  · exact (socks5Request_left h₁ hsent).trans hread
  · rw [socks5Request_unsent hsent, hview]

theorem socks5Connect_left (hsent : host.name.1.length < 256 ∧
      (T₁.send t₁ socks5Hello).1 = some socks5Hello.length) :
    (outcome view₁ (socks5Connect T₁ host ctx t₁)).2.length ≤
      (view₁ (T₁.recv (T₁.send t₁ socks5Hello).2 2).2).unread.length := by
  by_cases hopen : (T₁.recv (T₁.send t₁ socks5Hello).2 2).1 = some [0x05, 0x00]
  · rw [socks5Connect_open hsent hopen]
    exact socks5Request_le h₁ _
  · rw [socks5Connect_closed hsent hopen]

theorem socks5Connect_unsent (hsent : ¬ (host.name.1.length < 256 ∧
      (T₁.send t₁ socks5Hello).1 = some socks5Hello.length)) :
    outcome view₁ (socks5Connect T₁ host ctx t₁) = (0, (view₁ t₁).unread) := by
  rw [socks5Connect]
  split_ifs with hname
  · rfl
  · have hview := congrArg View.unread (h₁.send t₁ socks5Hello).2
    rcases hs : T₁.send t₁ socks5Hello with ⟨_ | n, u⟩
    · rw [hs] at hview
      exact congrArg (Prod.mk 0) hview
    · rw [hs] at hsent hview
      have hn : n ≠ socks5Hello.length := fun h =>
        hsent ⟨Nat.lt_of_not_le hname, congrArg some h⟩
      simp only [if_pos hn]
      exact congrArg (Prod.mk 0) hview

theorem sockGets_takes (sz : Nat) {t u : τ₁} {line : List UInt8}
    (h : sockGets T₁ sz t = (some line, u)) :
    (view₁ u).unread.length < (view₁ t).unread.length := by
  induction sz generalizing t line with
  | zero => cases h
  | succ sz ih =>
      rw [sockGets] at h
      cases ht : (view₁ t).unread with
      | nil =>
          obtain ⟨⟨-, hr⟩ | ⟨-, hr⟩, -⟩ := h₁.recv_end ht 1 <;> rw [hr] at h <;> cases h
      | cons c cs =>
          obtain ⟨hr, hu⟩ := h₁.recv_byte ht
          have hlen : (view₁ (T₁.recv t 1).2).unread.length = cs.length := by rw [hu]
          rw [hr] at h
          simp only at h
          rw [List.length_cons, Nat.lt_succ_iff, ← hlen]
          split_ifs at h with hroom hline
          · cases h
          · obtain rfl := (Prod.mk.inj h).2
            exact Nat.le_refl _
          · obtain ⟨hrest, rfl⟩ := Prod.mk.inj h
            obtain ⟨rest, hrest, -⟩ := Option.map_eq_some_iff.mp hrest
            exact (ih (Prod.ext hrest rfl)).le

theorem skipHeader_returns (fuel : Nat) {t : τ₁} (ht : (view₁ t).unread.length < fuel) :
    ∃ done, skipHeader T₁ fuel t = some done := by
  induction fuel generalizing t with
  | zero => exact absurd ht (Nat.not_lt_zero _)
  | succ fuel ih =>
      rw [skipHeader]
      rcases hs : sockGets T₁ 4096 t with ⟨_ | line, u⟩
      · exact ⟨_, rfl⟩
      · have htakes := sockGets_takes h₁ 4096 hs
        simp only
        split_ifs
        · exact ⟨_, rfl⟩
        · exact ih (by omega)

theorem sendLine_unread {line : List UInt8} {t u : τ₁} (h : sendLine T₁ line t = .ok u) :
    (view₁ u).unread = (view₁ t).unread := by
  have hview := congrArg View.unread (h₁.send t line).2
  rw [sendLine] at h
  rcases hs : T₁.send t line with ⟨_ | n, w⟩ <;> rw [hs] at h hview
  · cases h
  · simp only at h
    split_ifs at h
    obtain rfl := Except.ok.inj h
    exact hview

theorem httpReply_returns {fuel : Nat} {t : τ₁} (ht : (view₁ t).unread.length < fuel) :
    ∃ done, httpReply T₁ fuel ctx t = some done := by
  rw [httpReply]
  rcases hs : sockGets T₁ 4096 t with ⟨_ | line, u⟩
  · exact ⟨_, rfl⟩
  · cases hcode : statusCode line with
    | none =>
        simp only [hcode]
        exact ⟨_, rfl⟩
    | some retcode =>
        simp only [hcode]
        split_ifs
        · exact ⟨_, rfl⟩
        · have htakes := sockGets_takes h₁ 4096 hs
          obtain ⟨done, hdone⟩ := skipHeader_returns h₁ fuel (htakes.trans ht)
          rw [hdone]
          exact ⟨_, rfl⟩

/-- Every handshake ends: a reply over HTTP has no more lines than bytes. -/
theorem connect_returns (host : Host) (ctx : ProxyCtx) {fuel : Nat} {t : τ₁}
    (ht : (view₁ t).unread.length < fuel) (c : Connector) :
    ∃ done, connect T₁ fuel c host ctx t = some done := by
  cases c with
  | socks4a => exact ⟨_, rfl⟩
  | socks5 => exact ⟨_, rfl⟩
  | http =>
      rw [connect, httpConnect]
      cases hu : sendLine T₁ (httpRequest host ctx.port) t with
      | error failed => exact ⟨_, rfl⟩
      | ok u =>
          cases hv : sendLine T₁ (httpHost host ctx.port) u with
          | error failed =>
              simp only [bind, Except.bind, hv]
              exact ⟨_, rfl⟩
          | ok v =>
              cases hw : sendLine T₁ crlf v with
              | error failed =>
                  simp only [bind, Except.bind, hv, hw]
                  exact ⟨_, rfl⟩
              | ok w =>
                  simp only [bind, Except.bind, hv, hw]
                  refine httpReply_returns h₁ ?_
                  rwa [sendLine_unread h₁ hw, sendLine_unread h₁ hv, sendLine_unread h₁ hu]

end One

section Same

include h₁ h₂

/-- A read of `n` bytes whose cuts decide what follows: a piece that is too short
ends the handshake, and the handshake never puts bytes back. -/
theorem recv_decides {ω : Type} {left : ω → List UInt8} {o₁ o₂ : ω} {P : Prop} {n : Nat}
    (hn : 0 < n) (hv : view₁ t₁ = view₂ t₂)
    (hsame : (T₁.recv t₁ n).1 = (T₂.recv t₂ n).1 →
      view₁ (T₁.recv t₁ n).2 = view₂ (T₂.recv t₂ n).2 → (o₁ = o₂ ↔ P))
    (hle₁ : (left o₁).length ≤ (view₁ (T₁.recv t₁ n).2).unread.length)
    (hle₂ : (left o₂).length ≤ (view₂ (T₂.recv t₂ n).2).unread.length)
    (hshort₁ : ∀ bs, (T₁.recv t₁ n).1 = some bs → bs.length ≠ n →
      left o₁ = (view₁ (T₁.recv t₁ n).2).unread)
    (hshort₂ : ∀ bs, (T₂.recv t₂ n).1 = some bs → bs.length ≠ n →
      left o₂ = (view₂ (T₂.recv t₂ n).2).unread) :
    o₁ = o₂ ↔ (T₁.recv t₁ n).1 = (T₂.recv t₂ n).1 ∧ P := by
  by_cases heq : (T₁.recv t₁ n).1 = (T₂.recv t₂ n).1
  · rw [hsame heq ((h₁.recv_same h₂ hv hn).mp heq)]
    exact (and_iff_right heq).symm
  · refine iff_of_false ?_ fun h => heq h.1
    rintro rfl
    obtain ⟨bs₁, bs₂, hr₁, hr₂, hne, hsum⟩ := h₁.recv_differ h₂ hv hn heq
    have hl₁ := recv_length hr₁
    have hl₂ := recv_length hr₂
    obtain hlt | hlt := Nat.lt_or_gt_of_ne hne
    · have hleft := congrArg List.length (hshort₁ bs₁ hr₁ (by omega))
      omega
    · have hleft := congrArg List.length (hshort₂ bs₂ hr₂ (by omega))
      omega

theorem skipAddress_same (hv : view₁ t₁ = view₂ t₂) (len : Nat) :
    (skipAddress T₁ len t₁).1 = (skipAddress T₂ len t₂).1 ∧
      view₁ (skipAddress T₁ len t₁).2 = view₂ (skipAddress T₂ len t₂).2 := by
  obtain ⟨hok₁, hv₁⟩ := skipAddress_spec h₁ len t₁
  obtain ⟨hok₂, hv₂⟩ := skipAddress_spec h₂ len t₂
  rw [hok₁, hok₂, hv₁, hv₂, hv]
  exact ⟨rfl, rfl⟩

theorem sockGets_same (hv : view₁ t₁ = view₂ t₂) (sz : Nat) :
    (sockGets T₁ sz t₁).1 = (sockGets T₂ sz t₂).1 ∧
      view₁ (sockGets T₁ sz t₁).2 = view₂ (sockGets T₂ sz t₂).2 := by
  induction sz generalizing t₁ t₂ with
  | zero => exact ⟨rfl, hv⟩
  | succ sz ih =>
      obtain ⟨hr, hu⟩ := h₁.recv_byte_same h₂ hv
      rw [sockGets, sockGets]
      rcases hs₁ : T₁.recv t₁ 1 with ⟨r, u₁⟩
      rcases hs₂ : T₂.recv t₂ 1 with ⟨r', u₂⟩
      rw [hs₁, hs₂] at hr hu
      obtain rfl : r = r' := hr
      rcases r with _ | _ | ⟨c, _ | ⟨b, bs⟩⟩
      · exact ⟨rfl, hu⟩
      · exact ⟨rfl, hu⟩
      · simp only
        split_ifs
        · exact ⟨rfl, hu⟩
        · exact ⟨rfl, hu⟩
        · obtain ⟨hline, hw⟩ := ih hu
          exact ⟨congrArg (fun line => line.map (c :: ·)) hline, hw⟩
      · exact ⟨rfl, hu⟩

theorem skipHeader_same (hv : view₁ t₁ = view₂ t₂) (fuel : Nat) :
    (skipHeader T₁ fuel t₁).map (Prod.map id view₁) =
      (skipHeader T₂ fuel t₂).map (Prod.map id view₂) := by
  induction fuel generalizing t₁ t₂ with
  | zero => rfl
  | succ fuel ih =>
      obtain ⟨hline, hu⟩ := sockGets_same h₁ h₂ hv 4096
      rw [skipHeader, skipHeader]
      rcases hs₁ : sockGets T₁ 4096 t₁ with ⟨line, u₁⟩
      rcases hs₂ : sockGets T₂ 4096 t₂ with ⟨line', u₂⟩
      rw [hs₁, hs₂] at hline hu
      obtain rfl : line = line' := hline
      cases line with
      | none => exact congrArg (fun v => some (false, v)) hu
      | some line =>
          simp only
          split_ifs
          · exact congrArg (fun v => some (true, v)) hu
          · exact ih hu

theorem sendLine_same (hv : view₁ t₁ = view₂ t₂) (line : List UInt8) :
    (∃ r u₁ u₂, sendLine T₁ line t₁ = .error (r, u₁) ∧ sendLine T₂ line t₂ = .error (r, u₂) ∧
        view₁ u₁ = view₂ u₂) ∨
      ∃ u₁ u₂, sendLine T₁ line t₁ = .ok u₁ ∧ sendLine T₂ line t₂ = .ok u₂ ∧
        view₁ u₁ = view₂ u₂ := by
  obtain ⟨hn, hu⟩ := h₁.send_same h₂ hv line
  rw [sendLine, sendLine]
  rcases hs₁ : T₁.send t₁ line with ⟨n, u₁⟩
  rcases hs₂ : T₂.send t₂ line with ⟨n', u₂⟩
  rw [hs₁, hs₂] at hn hu
  obtain rfl : n = n' := hn
  cases n with
  | none => exact Or.inl ⟨-1, u₁, u₂, rfl, rfl, hu⟩
  | some n =>
      simp only
      split_ifs
      · exact Or.inl ⟨0, u₁, u₂, rfl, rfl, hu⟩
      · exact Or.inr ⟨u₁, u₂, rfl, rfl, hu⟩

theorem httpReply_same (hv : view₁ t₁ = view₂ t₂) (fuel : Nat) :
    (httpReply T₁ fuel ctx t₁).map (outcome view₁) =
      (httpReply T₂ fuel ctx t₂).map (outcome view₂) := by
  obtain ⟨hline, hu⟩ := sockGets_same h₁ h₂ hv 4096
  rw [httpReply, httpReply]
  rcases hs₁ : sockGets T₁ 4096 t₁ with ⟨line, u₁⟩
  rcases hs₂ : sockGets T₂ 4096 t₂ with ⟨line', u₂⟩
  rw [hs₁, hs₂] at hline hu
  obtain rfl : line = line' := hline
  have hleft : (view₁ u₁).unread = (view₂ u₂).unread := congrArg View.unread hu
  cases line with
  | none => simp [outcome, hleft]
  | some line =>
      cases hcode : statusCode line with
      | none => simp [outcome, hcode, hleft]
      | some retcode =>
          simp only [hcode]
          split_ifs
          · simp [outcome, hleft]
          · have hheader := skipHeader_same h₁ h₂ hu fuel
            rcases hh₁ : skipHeader T₁ fuel u₁ with _ | ⟨ok, w₁⟩ <;>
              rcases hh₂ : skipHeader T₂ fuel u₂ with _ | ⟨ok', w₂⟩ <;> rw [hh₁, hh₂] at hheader
            · rfl
            · cases hheader
            · cases hheader
            · obtain ⟨hok, hw⟩ := Prod.mk.inj (Option.some.inj hheader)
              obtain rfl : ok = ok' := hok
              have hleft : (view₁ w₁).unread = (view₂ w₂).unread := congrArg View.unread hw
              cases ok <;> simp [outcome, hleft]

theorem httpConnect_same (hv : view₁ t₁ = view₂ t₂) (fuel : Nat) :
    (httpConnect T₁ fuel host ctx t₁).map (outcome view₁) =
      (httpConnect T₂ fuel host ctx t₂).map (outcome view₂) := by
  rw [httpConnect, httpConnect]
  obtain ⟨r, u₁, u₂, hl₁, hl₂, hu⟩ | ⟨u₁, u₂, hl₁, hl₂, hu⟩ :=
    sendLine_same h₁ h₂ hv (httpRequest host ctx.port)
  · simp [hl₁, hl₂, bind, Except.bind, outcome, hu]
  · obtain ⟨r, w₁, w₂, hm₁, hm₂, hw⟩ | ⟨w₁, w₂, hm₁, hm₂, hw⟩ :=
      sendLine_same h₁ h₂ hu (httpHost host ctx.port)
    · simp [hl₁, hl₂, hm₁, hm₂, bind, Except.bind, outcome, hw]
    · obtain ⟨r, x₁, x₂, hn₁, hn₂, hx⟩ | ⟨x₁, x₂, hn₁, hn₂, hx⟩ := sendLine_same h₁ h₂ hw crlf
      · simp [hl₁, hl₂, hm₁, hm₂, hn₁, hn₂, bind, Except.bind, outcome, hx]
      · simp only [hl₁, hl₂, hm₁, hm₂, hn₁, hn₂, bind, Except.bind]
        exact httpReply_same h₁ h₂ hx fuel

/-- A reply that decides by the piece alone what is returned. -/
theorem reply_iff {ω : Type} (answer : Option (List UInt8) → ω) (hv : view₁ t₁ = view₂ t₂) {n : Nat}
    (hn : 0 < n) : (answer (T₁.recv t₁ n).1, (view₁ (T₁.recv t₁ n).2).unread) =
      (answer (T₂.recv t₂ n).1, (view₂ (T₂.recv t₂ n).2).unread) ↔
        (T₁.recv t₁ n).1 = (T₂.recv t₂ n).1 := by
  have hiff := h₁.recv_same_unread h₂ hv hn
  constructor
  · intro h
    exact hiff.mpr (Prod.mk.inj h).2
  · intro h
    rw [h, hiff.mp h]

theorem socks5Address_iff (hv : view₁ t₁ = view₂ t₂) (atyp : UInt8) :
    ((socks5Address T₁ atyp t₁).1, (view₁ (socks5Address T₁ atyp t₁).2).unread) =
        ((socks5Address T₂ atyp t₂).1, (view₂ (socks5Address T₂ atyp t₂).2).unread) ↔
      (atyp = 0x01 → (T₁.recv t₁ 6).1 = (T₂.recv t₂ 6).1) := by
  rw [socks5Address, socks5Address]
  split_ifs with hname haddr
  · subst hname
    refine iff_of_true ?_ fun h => absurd h (by decide)
    obtain ⟨hr, hu⟩ := h₁.recv_byte_same h₂ hv
    rcases hs₁ : T₁.recv t₁ 1 with ⟨r, u₁⟩
    rcases hs₂ : T₂.recv t₂ 1 with ⟨r', u₂⟩
    rw [hs₁, hs₂] at hr hu
    obtain rfl : r = r' := hr
    have hleft : (view₁ u₁).unread = (view₂ u₂).unread := congrArg View.unread hu
    rcases r with _ | _ | ⟨len, _ | ⟨b, bs⟩⟩
    · exact congrArg (Prod.mk false) hleft
    · exact congrArg (Prod.mk false) hleft
    · obtain ⟨hok, hw⟩ := skipAddress_same h₁ h₂ hu (len.toNat + 2)
      exact Prod.ext hok (congrArg View.unread hw)
    · exact congrArg (Prod.mk false) hleft
  · have h := reply_iff h₁ h₂ (fun r => r.any fun buf => buf.length == 6) hv (show 0 < 6 by decide)
    rw [imp_iff_right haddr, ← h]
    rcases T₁.recv t₁ 6 with ⟨_ | buf, u₁⟩ <;> rcases T₂.recv t₂ 6 with ⟨_ | buf', u₂⟩ <;> rfl
  · exact iff_of_true (by rw [hv]) fun h => absurd h haddr

theorem socks4aConnect_iff (hv : view₁ t₁ = view₂ t₂) :
    outcome view₁ (socks4aConnect T₁ host ctx t₁) = outcome view₂ (socks4aConnect T₂ host ctx t₂) ↔
      pieces T₁ host ctx.port .socks4a t₁ = pieces T₂ host ctx.port .socks4a t₂ := by
  obtain ⟨hn, hu⟩ := h₁.send_same h₂ hv (socks4aPacket host ctx.port)
  simp only [pieces, ← hn]
  by_cases hsent : (T₁.send t₁ (socks4aPacket host ctx.port)).1 =
      some (socks4aPacket host ctx.port).length
  · rw [if_pos hsent, if_pos hsent, socks4aConnect_granted hsent,
      socks4aConnect_granted (hn ▸ hsent), List.cons.injEq, and_iff_left rfl]
    exact reply_iff h₁ h₂ granted hu (show 0 < 8 by decide)
  · rw [if_neg hsent, if_neg hsent, socks4aConnect_unsent hsent, socks4aConnect_unsent (hn ▸ hsent),
      hn, hu]
    exact iff_of_true rfl rfl

theorem socks5Request_iff (hv : view₁ t₁ = view₂ t₂) :
    outcome view₁ (socks5Request T₁ host ctx t₁) = outcome view₂ (socks5Request T₂ host ctx t₂) ↔
      requestPieces T₁ host ctx.port t₁ = requestPieces T₂ host ctx.port t₂ := by
  obtain ⟨hn, hu⟩ := h₁.send_same h₂ hv (socks5Packet host ctx.port)
  simp only [requestPieces, ← hn]
  by_cases hsent : (T₁.send t₁ (socks5Packet host ctx.port)).1 =
      some (socks5Packet host ctx.port).length
  · rw [if_pos hsent, if_pos hsent, List.cons.injEq]
    refine recv_decides h₁ h₂ (show 0 < 4 by decide) hu ?_ (socks5Request_left h₁ hsent)
      (socks5Request_left h₂ (hn ▸ hsent)) (fun _ => socks5Request_short hsent)
      (fun _ => socks5Request_short (hn ▸ hsent))
    intro hsame hw
    rw [← hsame]
    cases htype : addressType (T₁.recv (T₁.send t₁ (socks5Packet host ctx.port)).2 4).1 with
    | none =>
        rw [socks5Request_refused hsent htype, socks5Request_refused (hn ▸ hsent) (hsame ▸ htype),
          hw, hsame]
        exact iff_of_true rfl rfl
    | some atyp =>
        rw [socks5Request_granted hsent rfl htype,
          socks5Request_granted (hn ▸ hsent) rfl (hsame ▸ htype), verdict_inj,
          socks5Address_iff h₁ h₂ hw]
        by_cases hatyp : atyp = 0x01 <;> simp [hatyp]
  · rw [if_neg hsent, if_neg hsent, socks5Request_unsent hsent, socks5Request_unsent (hn ▸ hsent),
      hn, hu]
    exact iff_of_true rfl rfl

theorem socks5Connect_iff (hv : view₁ t₁ = view₂ t₂) :
    outcome view₁ (socks5Connect T₁ host ctx t₁) = outcome view₂ (socks5Connect T₂ host ctx t₂) ↔
      pieces T₁ host ctx.port .socks5 t₁ = pieces T₂ host ctx.port .socks5 t₂ := by
  obtain ⟨hn, hu⟩ := h₁.send_same h₂ hv socks5Hello
  simp only [pieces, ← hn]
  by_cases hsent : host.name.1.length < 256 ∧ (T₁.send t₁ socks5Hello).1 = some socks5Hello.length
  · rw [if_pos hsent, if_pos hsent, List.cons.injEq]
    refine recv_decides h₁ h₂ (show 0 < 2 by decide) hu ?_ (socks5Connect_left h₁ hsent)
      (socks5Connect_left h₂ (hn ▸ hsent)) (fun _ => socks5Connect_short hsent)
      (fun _ => socks5Connect_short (hn ▸ hsent))
    intro hsame hw
    rw [← hsame]
    by_cases hopen : (T₁.recv (T₁.send t₁ socks5Hello).2 2).1 = some [0x05, 0x00]
    · rw [socks5Connect_open hsent hopen, socks5Connect_open (hn ▸ hsent) (hsame ▸ hopen),
        if_pos hopen, if_pos hopen]
      exact socks5Request_iff h₁ h₂ hw
    · rw [socks5Connect_closed hsent hopen, socks5Connect_closed (hn ▸ hsent) (hsame ▸ hopen), hw,
        if_neg hopen, if_neg hopen]
      exact iff_of_true rfl rfl
  · rw [if_neg hsent, if_neg hsent, socks5Connect_unsent h₁ hsent,
      socks5Connect_unsent h₂ (hn ▸ hsent), hv]
    exact iff_of_true rfl rfl

/-- The cuts that change what a handshake comes to are those in a reply that is
read all at once. -/
theorem connect_fragments (host : Host) (ctx : ProxyCtx) (hv : view₁ t₁ = view₂ t₂) {fuel : Nat}
    (hfuel : (view₁ t₁).unread.length < fuel) (c : Connector) :
    ∃ done₁ done₂, connect T₁ fuel c host ctx t₁ = some done₁ ∧
      connect T₂ fuel c host ctx t₂ = some done₂ ∧
      (outcome view₁ done₁ = outcome view₂ done₂ ↔
        pieces T₁ host ctx.port c t₁ = pieces T₂ host ctx.port c t₂) := by
  obtain ⟨done₁, hd₁⟩ := connect_returns h₁ host ctx hfuel c
  obtain ⟨done₂, hd₂⟩ := connect_returns h₂ host ctx (hv ▸ hfuel) c
  refine ⟨done₁, done₂, hd₁, hd₂, ?_⟩
  cases c with
  | socks4a =>
      obtain rfl := Option.some.inj hd₁
      obtain rfl := Option.some.inj hd₂
      exact socks4aConnect_iff h₁ h₂ hv
  | socks5 =>
      obtain rfl := Option.some.inj hd₁
      obtain rfl := Option.some.inj hd₂
      exact socks5Connect_iff h₁ h₂ hv
  | http =>
      have hsame : (httpConnect T₁ fuel host ctx t₁).map (outcome view₁) =
          (httpConnect T₂ fuel host ctx t₂).map (outcome view₂) := httpConnect_same h₁ h₂ hv fuel
      rw [show httpConnect T₁ fuel host ctx t₁ = some done₁ from hd₁,
        show httpConnect T₂ fuel host ctx t₂ = some done₂ from hd₂] at hsame
      exact iff_of_true (Option.some.inj hsame) rfl

end Same

def plain : ProxyCtx := ⟨some shortHost, 443, false, some .socks4a⟩

def chatty : Stream × List (List UInt8) := ⟨⟨[0x00, 0x5a, 0, 0, 0, 0, 0, 0, 0x16], []⟩, []⟩

theorem connect_fragments_octets : ∃ done₁ done₂,
    connect (logged (capped 7 stream)) 10 .socks4a shortHost plain chatty = some done₁ ∧
    connect (logged (capped 15 stream)) 10 .socks4a shortHost plain chatty = some done₂ ∧
    outcome Stream.view done₁ = outcome Stream.view done₂ := by
  obtain ⟨done₁, done₂, hd₁, hd₂, hiff⟩ := connect_fragments (capped_fragments 7)
    (capped_fragments 15) shortHost plain rfl
    (show (Stream.view chatty).unread.length < 10 by decide) .socks4a
  exact ⟨done₁, done₂, hd₁, hd₂, hiff.mpr (by decide)⟩

/-- The same reply a byte at a time is refused, with its last eight bytes unread. -/
theorem chatty_refused :
    Fragments (logged (capped 7 stream)) (fun _ bs => some bs.length) (some []) Stream.view ∧
    Fragments (logged (capped 0 stream)) (fun _ bs => some bs.length) (some []) Stream.view ∧
    (connect (logged (capped 7 stream)) 10 .socks4a shortHost plain chatty).map
      (outcome Stream.view) = some (1, [0x16]) ∧
    (connect (logged (capped 0 stream)) 10 .socks4a shortHost plain chatty).map
      (outcome Stream.view) = some (0, [0x5a, 0, 0, 0, 0, 0, 0, 0x16]) :=
  ⟨capped_fragments 7, capped_fragments 0, rfl, rfl⟩

end Tlsdate.Fragmentation
