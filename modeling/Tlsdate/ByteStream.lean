import Mathlib.Data.List.Basic

namespace Tlsdate.ByteStream

/-- A byte transport with a state of its own. An operation fails (none) or
moves at most as many bytes as it was asked to. -/
structure Transport (τ : Type) where
  write : τ → (bs : List UInt8) → Option (Fin (bs.length + 1)) × τ
  read : τ → (n : Nat) → Option { bs : List UInt8 // bs.length ≤ n } × τ

variable {τ : Type}

def Transport.send (T : Transport τ) (t : τ) (bs : List UInt8) : Option Nat × τ :=
  ((T.write t bs).1.map Fin.val, (T.write t bs).2)

def Transport.recv (T : Transport τ) (t : τ) (n : Nat) : Option (List UInt8) × τ :=
  ((T.read t n).1.map Subtype.val, (T.read t n).2)

structure Stream where
  input : List UInt8
  output : List UInt8

def stream : Transport Stream where
  write s bs := (some (Fin.last bs.length), ⟨s.input, s.output ++ bs⟩)
  read s n := (some ⟨s.input.take n, List.length_take_le n s.input⟩, ⟨s.input.drop n, s.output⟩)

theorem stream_send (s : Stream) (bs : List UInt8) :
    stream.send s bs = (some bs.length, ⟨s.input, s.output ++ bs⟩) := rfl

theorem stream_recv (s : Stream) (n : Nat) :
    stream.recv s n = (some (s.input.take n), ⟨s.input.drop n, s.output⟩) := rfl

theorem stream_recv_append (bs rest out : List UInt8) :
    stream.recv ⟨bs ++ rest, out⟩ bs.length = (some bs, ⟨rest, out⟩) := by
  simp [stream_recv]

def logged (T : Transport τ) : Transport (τ × List (List UInt8)) where
  write s bs := ((T.write s.1 bs).1, (T.write s.1 bs).2, s.2 ++ [bs])
  read s n := ((T.read s.1 n).1, (T.read s.1 n).2, s.2)

theorem logged_send (T : Transport τ) (s : τ × List (List UInt8)) (bs : List UInt8) :
    (logged T).send s bs = ((T.send s.1 bs).1, (T.send s.1 bs).2, s.2 ++ [bs]) := rfl

theorem logged_recv (T : Transport τ) (s : τ × List (List UInt8)) (n : Nat) :
    (logged T).recv s n = ((T.recv s.1 n).1, (T.recv s.1 n).2, s.2) := rfl

theorem send_le {T : Transport τ} {t t' : τ} {bs : List UInt8} {n : Nat}
    (h : T.send t bs = (some n, t')) : n ≤ bs.length := by
  obtain ⟨r, -, rfl⟩ := Option.map_eq_some_iff.mp (congrArg Prod.fst h)
  exact Nat.le_of_lt_succ r.isLt

def taken (T : Transport τ) : Transport (τ × List UInt8) where
  write s bs :=
    ((T.write s.1 bs).1, (T.write s.1 bs).2,
      s.2 ++ bs.take (((T.write s.1 bs).1.map Fin.val).getD 0))
  read s n := ((T.read s.1 n).1, (T.read s.1 n).2, s.2)

theorem taken_send (T : Transport τ) (s : τ × List UInt8) (bs : List UInt8) :
    (taken T).send s bs = ((T.send s.1 bs).1, (T.send s.1 bs).2,
      s.2 ++ bs.take ((T.send s.1 bs).1.getD 0)) := rfl

/-- What `input` still holds is read piece by piece, however it is cut; after
that every read fails or returns nothing. -/
structure Delivers (T : Transport τ) (input : τ → List UInt8) : Prop where
  piece : ∀ t n, 0 < n → input t ≠ [] →
    ∃ bs, bs ≠ [] ∧ (T.recv t n).1 = some bs ∧ input t = bs ++ input (T.recv t n).2
  ended : ∀ t n, input t = [] → (T.recv t n).1.getD [] = [] ∧ input (T.recv t n).2 = []

theorem recv_length {T : Transport τ} {t : τ} {n : Nat} {bs : List UInt8}
    (h : (T.recv t n).1 = some bs) : bs.length ≤ n := by
  obtain ⟨piece, -, rfl⟩ := Option.map_eq_some_iff.mp h
  exact piece.2

theorem read_nothing {r : Option (List UInt8)} (h : r.getD [] = []) : r = none ∨ r = some [] := by
  cases r with
  | none => exact Or.inl rfl
  | some bs => exact Or.inr (congrArg some h)

theorem Delivers.recv_ended {T : Transport τ} {input : τ → List UInt8} (h : Delivers T input)
    {t : τ} (ht : input t = []) (n : Nat) :
    ∃ t', T.recv t n = (none, t') ∨ T.recv t n = (some [], t') := by
  refine ⟨(T.recv t n).2, ?_⟩
  obtain hr | hr := read_nothing (h.ended t n ht).1
  · exact Or.inl (Prod.ext hr rfl)
  · exact Or.inr (Prod.ext hr rfl)

theorem Delivers.recv_piece {T : Transport τ} {input : τ → List UInt8} (h : Delivers T input)
    {t : τ} (ht : input t ≠ []) {n : Nat} (hn : 0 < n) :
    ∃ b bs t', T.recv t n = (some (b :: bs), t') ∧ bs.length + 1 ≤ n ∧
      input t = b :: bs ++ input t' := by
  obtain ⟨bs, hne, hr, hin⟩ := h.piece t n hn ht
  obtain ⟨b, bs, rfl⟩ := List.exists_cons_of_ne_nil hne
  exact ⟨b, bs, (T.recv t n).2, Prod.ext hr rfl, recv_length hr, hin⟩

theorem stream_delivers : Delivers stream Stream.input where
  piece s n hn hs := by
    refine ⟨s.input.take n, ?_, rfl, (List.take_append_drop n s.input).symm⟩
    simp [hs, Nat.ne_of_gt hn]
  ended s n hs := by
    simp [stream_recv, hs]

@[ext] structure View where
  written : List (List UInt8)
  unread : List UInt8

/-- A connection to a peer that takes a write as `accept` says of all the writes
before it, and whose stream arrives in pieces of any length before it ends in
`eof`. -/
structure Fragments (T : Transport τ) (accept : List (List UInt8) → List UInt8 → Option Nat)
    (eof : Option (List UInt8)) (view : τ → View) : Prop where
  send : ∀ t bs, (T.send t bs).1 = accept (view t).written bs ∧
    view (T.send t bs).2 = ⟨(view t).written ++ [bs], (view t).unread⟩
  piece : ∀ t n, 0 < n → (view t).unread ≠ [] → ∃ bs rest, bs ≠ [] ∧
    (view t).unread = bs ++ rest ∧ (T.recv t n).1 = some bs ∧
    view (T.recv t n).2 = ⟨(view t).written, rest⟩
  ended : ∀ t n, (view t).unread = [] → (T.recv t n).1 = eof ∧ view (T.recv t n).2 = view t
  eof_empty : eof.getD [] = []

def capped (k : Nat) (T : Transport τ) : Transport τ where
  write := T.write
  read t n :=
    ((T.read t (min n (k + 1))).1.map fun bs => ⟨bs.1, Nat.le_trans bs.2 (Nat.min_le_left ..)⟩,
      (T.read t (min n (k + 1))).2)

theorem capped_recv (k : Nat) (T : Transport τ) (t : τ) (n : Nat) :
    (capped k T).recv t n = T.recv t (min n (k + 1)) := by
  rw [Transport.recv, Transport.recv, capped, Option.map_map]
  rfl

def Stream.view (s : Stream × List (List UInt8)) : View := ⟨s.2, s.1.input⟩

theorem capped_fragments (k : Nat) : Fragments (logged (capped k stream))
    (fun _ bs => some bs.length) (some []) Stream.view where
  send s bs := ⟨rfl, rfl⟩
  piece s n hn hs := by
    rw [logged_recv, capped_recv, stream_recv]
    have hmin : min n (k + 1) ≠ 0 := by omega
    refine ⟨s.1.input.take (min n (k + 1)), s.1.input.drop (min n (k + 1)), ?_,
      (List.take_append_drop ..).symm, rfl, rfl⟩
    rw [ne_eq, List.take_eq_nil_iff]
    exact fun h => h.elim hmin hs
  ended s n hs := by
    rw [logged_recv, capped_recv, stream_recv]
    have hinput : s.1.input = [] := hs
    simp [Stream.view, hinput]
  eof_empty := rfl

section Peers

variable {τ₁ τ₂ : Type} {T₁ : Transport τ₁} {T₂ : Transport τ₂}
  {accept : List (List UInt8) → List UInt8 → Option Nat} {eof : Option (List UInt8)}
  {view₁ : τ₁ → View} {view₂ : τ₂ → View}

theorem Fragments.recv_end (h : Fragments T₁ accept eof view₁) {t : τ₁}
    (ht : (view₁ t).unread = []) (n : Nat) :
    (eof = none ∧ T₁.recv t n = (none, (T₁.recv t n).2) ∨
      eof = some [] ∧ T₁.recv t n = (some [], (T₁.recv t n).2)) ∧
      view₁ (T₁.recv t n).2 = view₁ t := by
  obtain ⟨hr, hv⟩ := h.ended t n ht
  refine ⟨?_, hv⟩
  obtain he | he := read_nothing h.eof_empty
  · exact Or.inl ⟨he, Prod.ext (hr.trans he) rfl⟩
  · exact Or.inr ⟨he, Prod.ext (hr.trans he) rfl⟩

theorem Fragments.recv_byte (h : Fragments T₁ accept eof view₁) {t : τ₁} {c : UInt8}
    {cs : List UInt8} (ht : (view₁ t).unread = c :: cs) :
    T₁.recv t 1 = (some [c], (T₁.recv t 1).2) ∧
      view₁ (T₁.recv t 1).2 = ⟨(view₁ t).written, cs⟩ := by
  obtain ⟨bs, rest, hne, hsplit, hr, hv⟩ := h.piece t 1 Nat.one_pos (by simp [ht])
  have hlen := recv_length hr
  obtain ⟨b, rfl⟩ := List.length_eq_one_iff.mp
    (Nat.le_antisymm hlen (List.length_pos_of_ne_nil hne))
  rw [ht] at hsplit
  obtain ⟨rfl, rfl⟩ := List.cons.inj hsplit
  exact ⟨Prod.ext hr rfl, hv⟩

theorem Fragments.recv_unread_le (h : Fragments T₁ accept eof view₁) (t : τ₁) {n : Nat}
    (hn : 0 < n) : (view₁ (T₁.recv t n).2).unread.length ≤ (view₁ t).unread.length := by
  by_cases ht : (view₁ t).unread = []
  · exact Nat.le_of_eq (congrArg (fun v => v.unread.length) (h.ended t n ht).2)
  · obtain ⟨bs, rest, -, hsplit, -, hv⟩ := h.piece t n hn ht
    rw [hv, hsplit, List.length_append]
    exact Nat.le_add_left ..

theorem Fragments.send_same (h₁ : Fragments T₁ accept eof view₁)
    (h₂ : Fragments T₂ accept eof view₂) {t₁ : τ₁} {t₂ : τ₂} (hv : view₁ t₁ = view₂ t₂)
    (bs : List UInt8) : (T₁.send t₁ bs).1 = (T₂.send t₂ bs).1 ∧
      view₁ (T₁.send t₁ bs).2 = view₂ (T₂.send t₂ bs).2 := by
  rw [(h₁.send t₁ bs).1, (h₂.send t₂ bs).1, (h₁.send t₁ bs).2, (h₂.send t₂ bs).2, hv]
  exact ⟨rfl, rfl⟩

theorem Fragments.recv_written (h : Fragments T₁ accept eof view₁) (t : τ₁) {n : Nat}
    (hn : 0 < n) : (view₁ (T₁.recv t n).2).written = (view₁ t).written := by
  by_cases ht : (view₁ t).unread = []
  · rw [(h.ended t n ht).2]
  · obtain ⟨bs, rest, -, -, -, hv⟩ := h.piece t n hn ht
    rw [hv]

/-- Two connections that agree go on agreeing exactly if they cut alike. -/
theorem Fragments.recv_same (h₁ : Fragments T₁ accept eof view₁)
    (h₂ : Fragments T₂ accept eof view₂) {t₁ : τ₁} {t₂ : τ₂} (hv : view₁ t₁ = view₂ t₂) {n : Nat}
    (hn : 0 < n) : (T₁.recv t₁ n).1 = (T₂.recv t₂ n).1 ↔
      view₁ (T₁.recv t₁ n).2 = view₂ (T₂.recv t₂ n).2 := by
  by_cases ht : (view₁ t₁).unread = []
  · obtain ⟨hr₁, hu₁⟩ := h₁.ended t₁ n ht
    obtain ⟨hr₂, hu₂⟩ := h₂.ended t₂ n (hv ▸ ht)
    rw [hr₁, hr₂, hu₁, hu₂]
    exact iff_of_true rfl hv
  · obtain ⟨bs₁, rest₁, -, hsplit₁, hr₁, hu₁⟩ := h₁.piece t₁ n hn ht
    obtain ⟨bs₂, rest₂, -, hsplit₂, hr₂, hu₂⟩ := h₂.piece t₂ n hn (hv ▸ ht)
    rw [hr₁, hr₂, hu₁, hu₂, hv]
    rw [hv, hsplit₂] at hsplit₁
    constructor
    · intro h
      obtain rfl := Option.some.inj h
      rw [List.append_cancel_left hsplit₁]
    · intro h
      obtain rfl := (View.mk.inj h).2
      rw [List.append_cancel_right hsplit₁]

theorem Fragments.recv_same_unread (h₁ : Fragments T₁ accept eof view₁)
    (h₂ : Fragments T₂ accept eof view₂) {t₁ : τ₁} {t₂ : τ₂} (hv : view₁ t₁ = view₂ t₂) {n : Nat}
    (hn : 0 < n) : (T₁.recv t₁ n).1 = (T₂.recv t₂ n).1 ↔
      (view₁ (T₁.recv t₁ n).2).unread = (view₂ (T₂.recv t₂ n).2).unread := by
  rw [h₁.recv_same h₂ hv hn, View.ext_iff, h₁.recv_written t₁ hn, h₂.recv_written t₂ hn, hv]
  exact and_iff_right rfl

theorem Fragments.recv_byte_same (h₁ : Fragments T₁ accept eof view₁)
    (h₂ : Fragments T₂ accept eof view₂) {t₁ : τ₁} {t₂ : τ₂} (hv : view₁ t₁ = view₂ t₂) :
    (T₁.recv t₁ 1).1 = (T₂.recv t₂ 1).1 ∧ view₁ (T₁.recv t₁ 1).2 = view₂ (T₂.recv t₂ 1).2 := by
  have hsame : (T₁.recv t₁ 1).1 = (T₂.recv t₂ 1).1 := by
    cases ht : (view₁ t₁).unread with
    | nil => rw [(h₁.ended t₁ 1 ht).1, (h₂.ended t₂ 1 (hv ▸ ht)).1]
    | cons c cs => rw [(h₁.recv_byte ht).1, (h₂.recv_byte (hv ▸ ht)).1]
  exact ⟨hsame, (h₁.recv_same h₂ hv Nat.one_pos).mp hsame⟩

theorem Fragments.recv_differ (h₁ : Fragments T₁ accept eof view₁)
    (h₂ : Fragments T₂ accept eof view₂) {t₁ : τ₁} {t₂ : τ₂} (hv : view₁ t₁ = view₂ t₂) {n : Nat}
    (hn : 0 < n) (hne : (T₁.recv t₁ n).1 ≠ (T₂.recv t₂ n).1) :
    ∃ bs₁ bs₂, (T₁.recv t₁ n).1 = some bs₁ ∧ (T₂.recv t₂ n).1 = some bs₂ ∧
      bs₁.length ≠ bs₂.length ∧
      (view₁ (T₁.recv t₁ n).2).unread.length + bs₁.length =
        (view₂ (T₂.recv t₂ n).2).unread.length + bs₂.length := by
  by_cases ht : (view₁ t₁).unread = []
  · rw [(h₁.ended t₁ n ht).1, (h₂.ended t₂ n (hv ▸ ht)).1] at hne
    exact absurd rfl hne
  · obtain ⟨bs₁, rest₁, -, hsplit₁, hr₁, hu₁⟩ := h₁.piece t₁ n hn ht
    obtain ⟨bs₂, rest₂, -, hsplit₂, hr₂, hu₂⟩ := h₂.piece t₂ n hn (hv ▸ ht)
    rw [hv, hsplit₂] at hsplit₁
    refine ⟨bs₁, bs₂, hr₁, hr₂, fun hlen => hne ?_, ?_⟩
    · rw [hr₁, hr₂, (List.append_inj hsplit₁ hlen.symm).1]
    · have hsum := congrArg List.length hsplit₁
      rw [List.length_append, List.length_append] at hsum
      rw [hu₁, hu₂]
      change rest₁.length + bs₁.length = rest₂.length + bs₂.length
      omega

end Peers

end Tlsdate.ByteStream
