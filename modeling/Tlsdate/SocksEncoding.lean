import Tlsdate.BoundedBuffer
import Tlsdate.PacAgreement
import Tlsdate.ProxyPolarssl

namespace Tlsdate.SocksEncoding

open ByteStream BoundedBuffer ProxyBio
open PacProxy (strchr)

section Requests

variable (host : Host) (port : UInt16)

end Requests

variable (host : Host) (port : UInt16)

theorem networkPort_length : (networkPort port).length = 2 := rfl

theorem socks5Packet_length :
    (socks5Packet host port).length = 5 + host.name.1.length + 2 := by
  simp [socks5Packet, networkPort_length]
  omega

section Writes

variable {τ : Type} (T : Transport τ) {ctx : ProxyCtx} (t : τ) (log : List (List UInt8))

theorem skipAddress_writes (len : Nat) : (skipAddress (logged T) len (t, log)).2.2 = log := by
  induction len using Nat.strong_induction_on generalizing t with
  | _ len ih =>
      rw [skipAddress]
      split_ifs with h
      · rfl
      · rw [logged_recv]
        rcases hr : T.recv t (min len (niMaxHost + 16)) with ⟨_ | _ | ⟨b, bs⟩, u⟩
        · rfl
        · rfl
        · exact ih _ (by omega) u

theorem socks5Address_writes (atyp : UInt8) : (socks5Address (logged T) atyp (t, log)).2.2 = log := by
  rw [socks5Address]
  split_ifs
  · rw [logged_recv]
    rcases hr : T.recv t 1 with ⟨_ | _ | ⟨len, _ | ⟨b, bs⟩⟩, u⟩
    · rfl
    · rfl
    · exact skipAddress_writes T u log _
    · rfl
  · rw [logged_recv]
    rcases hr : T.recv t 6 with ⟨_ | buf, u⟩ <;> rfl
  · rfl

theorem socks5Request_writes : (ProxyBio.socks5Request (logged T) host ctx (t, log)).2.2.2 =
    log ++ [socks5Packet host ctx.port] := by
  simp only [ProxyBio.socks5Request, logged_send]
  rcases hs : T.send t (socks5Packet host ctx.port) with ⟨_ | r, u⟩
  · rfl
  · simp only [logged_recv]
    split_ifs
    · rfl
    · rcases hr : T.recv u 4 with ⟨_ | _ | ⟨ver, _ | ⟨status, _ | ⟨rsv, _ | ⟨atyp, _ | ⟨b, bs⟩⟩⟩⟩⟩, v⟩
      any_goals rfl
      simp only
      split_ifs
      · rfl
      · exact socks5Address_writes T v _ atyp
      · exact socks5Address_writes T v _ atyp

theorem socks5Connect_writes (h : host.name.1.length ≤ 255) :
    (socks5Connect (logged T) host ctx (t, log)).2.2.2 = log ++ [socks5Hello] ∨
      (socks5Connect (logged T) host ctx (t, log)).2.2.2 =
        log ++ [socks5Hello, socks5Packet host ctx.port] := by
  simp only [socks5Connect, if_neg (show ¬ host.name.1.length ≥ 256 by omega), logged_send]
  rcases hs : T.send t socks5Hello with ⟨_ | r, u⟩
  · exact Or.inl rfl
  · simp only [logged_recv]
    split_ifs
    · exact Or.inl rfl
    · rcases hr : T.recv u 2 with ⟨_ | _ | ⟨ver, _ | ⟨method, _ | ⟨b, bs⟩⟩⟩, v⟩
      any_goals exact Or.inl rfl
      simp only
      split_ifs
      · exact Or.inl rfl
      · refine Or.inr ?_
        rw [socks5Request_writes, List.append_assoc]
        rfl

theorem socks5Connect_long (h : 255 < host.name.1.length) :
    socks5Connect T host ctx t = (0, ctx, t) :=
  if_pos h

end Writes

section Polarssl

open Dialogue

variable {τ α β : Type} (T : Transport τ)

/-- Every run of the party returns, having written one of these sequences. -/
def Writes (m : Talk (τ × List (List UInt8)) α) (W : List (List UInt8) → Prop) : Prop :=
  ∀ t log, ∃ x s ws, m (t, log) = some (x, s, log ++ ws) ∧ W ws

theorem Writes.mono {m : Talk (τ × List (List UInt8)) α} {V W : List (List UInt8) → Prop}
    (hm : Writes m V) (h : ∀ ws, V ws → W ws) : Writes m W := by
  intro t log
  obtain ⟨x, s, ws, hrun, hV⟩ := hm t log
  exact ⟨x, s, ws, hrun, h ws hV⟩

theorem Writes.bind {m : Talk (τ × List (List UInt8)) α} {f : α → Talk (τ × List (List UInt8)) β}
    {w : List (List UInt8)} {W : List (List UInt8) → Prop} (hm : Writes m fun ws => ws = w)
    (hf : ∀ a, Writes (f a) W) :
    Writes (m >>= f) fun ws => ws = w ∨ ∃ ws', W ws' ∧ ws = w ++ ws' := by
  intro t log
  obtain ⟨x, s, ws, hm, rfl⟩ := hm t log
  cases x with
  | none => exact ⟨none, s, ws, bind_eq_some.mpr (Or.inl ⟨hm, rfl⟩), Or.inl rfl⟩
  | some a =>
      obtain ⟨y, u, ws', hf, hW⟩ := hf a s (log ++ ws)
      rw [List.append_assoc] at hf
      exact ⟨y, u, ws ++ ws', bind_eq_some.mpr (Or.inr ⟨a, _, hm, hf⟩), Or.inr ⟨ws', hW, rfl⟩⟩

theorem Writes.silent {m : Talk (τ × List (List UInt8)) α}
    {f : α → Talk (τ × List (List UInt8)) β} (hm : Writes m fun ws => ws = [])
    (hf : ∀ a, Writes (f a) fun ws => ws = []) : Writes (m >>= f) fun ws => ws = [] := by
  refine (hm.bind hf).mono fun ws h => ?_
  obtain rfl | ⟨_, rfl, rfl⟩ := h <;> rfl

end Polarssl

end Tlsdate.SocksEncoding
