import Tlsdate.BoundedBuffer
import Tlsdate.HttpDate
import Tlsdate.PacProxy

namespace Tlsdate.DateReader

open ByteStream BoundedBuffer HttpDate
open ProxyBio (cString cString_nul crlf ascii)
open PacProxy (strstr strstr_cons_some strstr_some strstr_append strstr_skip)

def maxHttpHeadersSize : Nat := 8192

section Reader

variable {τ : Type} (T : Transport τ)

def memmem (hay needle : List UInt8) : Option Nat := (strstr needle hay).map fun p => p.1.length

def findDateLine (buf : List UInt8) : Option (Nat × Nat) := do
  let dateline ← memmem buf dateHeader
  let endofline ← memmem (buf.drop (dateline + 2)) crlf
  return (dateline, dateline + 2 + endofline)

/-- The loop of `read_http_date_from_bio`. A store outside of the buffer has no
result. -/
def readLoop (bufLen : Nat) (buf : Buffer UInt8 maxHttpHeadersSize) (t : τ) :
    Option ((Int × Option UInt32) × τ) :=
  if bufLen < maxHttpHeadersSize - 1 then
    match T.recv t (maxHttpHeadersSize - bufLen - 1) with
    | (none, t) | (some [], t) => some ((0, none), t)
    | (some (b :: bs), t) => do
        let buf ← store bufLen (b :: bs) buf
        let buf ← store (bufLen + (bs.length + 1)) [0] buf
        match findDateLine (buf.1.take (bufLen + (bs.length + 1))) with
        | none => readLoop (bufLen + (bs.length + 1)) buf t
        | some (dateline, endofline) => do
            let buf ← store endofline [0] buf
            return (handleDateLine (cString (buf.1.drop dateline)), t)
  else some ((-2, none), t)
termination_by maxHttpHeadersSize - bufLen

def readHttpDateFromBio (buf : Buffer UInt8 maxHttpHeadersSize) (t : τ) :
    Option ((Int × Option UInt32) × τ) :=
  readLoop T 0 buf t

end Reader

def dateLineOf (response : List UInt8) : Option (List UInt8) := do
  let header ← strstr dateHeader response
  let value ← strstr crlf header.2
  return dateHeader ++ value.1

def verdict (response : List UInt8) : Int × Option UInt32 :=
  match dateLineOf (response.take (maxHttpHeadersSize - 1)) with
  | some line => handleDateLine (cString line)
  | none => if maxHttpHeadersSize - 1 ≤ response.length then (-2, none) else (0, none)

theorem dateLineOf_append {xs line : List UInt8} (h : dateLineOf xs = some line)
    (ys : List UInt8) : dateLineOf (xs ++ ys) = some line := by
  obtain ⟨⟨before, rest⟩, hheader, h⟩ := Option.bind_eq_some_iff.mp h
  obtain ⟨⟨value, after⟩, hvalue, h⟩ := Option.bind_eq_some_iff.mp h
  rw [dateLineOf, strstr_append hheader, Option.bind_eq_bind, Option.bind_some,
    strstr_append hvalue]
  exact h

theorem memmem_endofline {xs before rest : List UInt8}
    (h : strstr dateHeader xs = some (before, rest)) :
    memmem (xs.drop (before.length + 2)) crlf = (strstr crlf rest).map fun p => 6 + p.1.length := by
  have hdrop : xs.drop (before.length + 2) = ascii "Date: " ++ rest := by
    rw [strstr_some h, List.drop_length_add_append]
    rfl
  have hskip := strstr_skip (c := 13) (w := ascii "Date: ") (by decide) [10] rest
  rw [memmem, hdrop, crlf, hskip, Option.map_map]
  congr 1
  funext p
  rw [Function.comp_apply, List.length_append]
  rfl

theorem findDateLine_cases (xs : List UInt8) :
    (findDateLine xs = none ∧ dateLineOf xs = none) ∨
      ∃ before value after, xs = before ++ (dateHeader ++ (value ++ (crlf ++ after))) ∧
        findDateLine xs = some (before.length, before.length + (8 + value.length)) ∧
        dateLineOf xs = some (dateHeader ++ value) := by
  cases h : strstr dateHeader xs with
  | none => exact Or.inl ⟨by simp [findDateLine, memmem, h], by simp [dateLineOf, h]⟩
  | some found =>
      obtain ⟨before, rest⟩ := found
      have he := memmem_endofline h
      have hfind : findDateLine xs =
          (strstr crlf rest).map fun p => (before.length, before.length + (8 + p.1.length)) := by
        rw [findDateLine, memmem, h, Option.map_some, Option.bind_eq_bind, Option.bind_some, he]
        cases strstr crlf rest with
        | none => rfl
        | some p =>
            have hsum : before.length + 2 + (6 + p.1.length) = before.length + (8 + p.1.length) := by
              omega
            exact congrArg (fun e => some (before.length, e)) hsum
      cases hv : strstr crlf rest with
      | none => exact Or.inl ⟨by rw [hfind, hv]; rfl, by simp [dateLineOf, h, hv]⟩
      | some p =>
          obtain ⟨value, after⟩ := p
          refine Or.inr ⟨before, value, after, ?_, by rw [hfind, hv]; rfl, ?_⟩
          · rw [strstr_some h, strstr_some hv]
          · rw [dateLineOf, h, Option.bind_eq_bind, Option.bind_some, hv]
            rfl

section Run

variable {τ : Type} {T : Transport τ} {input : τ → List UInt8}

theorem verdict_of_found {xs ys line : List UInt8} (hn : xs.length ≤ maxHttpHeadersSize - 1)
    (h : dateLineOf xs = some line) : verdict (xs ++ ys) = handleDateLine (cString line) := by
  have hpre : xs <+: (xs ++ ys).take (maxHttpHeadersSize - 1) :=
    List.prefix_take_iff.mpr ⟨List.prefix_append xs ys, hn⟩
  obtain ⟨zs, hzs⟩ := hpre
  rw [verdict, ← hzs, dateLineOf_append h]

theorem terminated_line {buf : Buffer UInt8 maxHttpHeadersSize} {before value after : List UInt8}
    (h : Begins buf (before ++ (dateHeader ++ (value ++ (crlf ++ after))))) :
    ∃ buf', store (before.length + (8 + value.length)) [0] buf = some buf' ∧
      cString (buf'.1.drop before.length) = cString (dateHeader ++ value) := by
  have hline : Begins buf (before ++ (dateHeader ++ value)) := by
    refine List.IsPrefix.trans ⟨crlf ++ after, ?_⟩ h
    simp only [List.append_assoc]
  have hlen : (before ++ (dateHeader ++ value)).length = before.length + (8 + value.length) := by
    rw [List.length_append, List.length_append]
    rfl
  have hroom := h.length_le
  rw [List.length_append, List.length_append, List.length_append, List.length_append] at hroom
  have hcrlf : crlf.length = 2 := rfl
  have hheader : dateHeader.length = 8 := rfl
  obtain ⟨buf', hs, rest, hrest⟩ := hline.store [0] (by
    rw [hlen, List.length_singleton]
    omega)
  rw [hlen] at hs
  refine ⟨buf', hs, ?_⟩
  rw [← hrest, List.append_assoc, List.append_assoc, List.drop_left, List.singleton_append,
    cString_nul]

theorem stored_piece {w : List UInt8} {buf : Buffer UInt8 maxHttpHeadersSize} (hb : Begins buf w)
    (b : UInt8) (bs : List UInt8) (hroom : w.length + (bs.length + 1) ≤ maxHttpHeadersSize - 1) :
    ∃ buf₁ buf₂, store w.length (b :: bs) buf = some buf₁ ∧
      store (w.length + (bs.length + 1)) [0] buf₁ = some buf₂ ∧ Begins buf₂ (w ++ b :: bs) := by
  have hfits : w.length + (bs.length + 1) + 1 ≤ maxHttpHeadersSize := by
    rw [maxHttpHeadersSize] at hroom ⊢
    omega
  have hlen : (w ++ b :: bs).length = w.length + (bs.length + 1) := List.length_append
  obtain ⟨buf₁, hs₁, hb₁⟩ := hb.store (b :: bs) ((Nat.le_succ _).trans hfits)
  obtain ⟨buf₂, hs₂, hb₂⟩ := hb₁.store [0] (by rwa [hlen, List.length_singleton])
  rw [hlen] at hs₂
  exact ⟨buf₁, buf₂, hs₁, hs₂, (List.prefix_append _ _).trans hb₂⟩

theorem verdict_one {response : List UInt8} (h : (verdict response).1 = 1) :
    ∃ t, verdict response = (1, some t) := by
  rw [verdict] at h ⊢
  split at h
  · exact handleDateLine_one h
  · split_ifs at h <;> exact absurd h (by decide)

/-- No store is outside of the buffer, whatever is read. -/
theorem readLoop_isSome (T : Transport τ) {w : List UInt8} {buf : Buffer UInt8 maxHttpHeadersSize}
    {t : τ} (hb : Begins buf w) (hw : w.length ≤ maxHttpHeadersSize - 1) :
    (readLoop T w.length buf t).isSome = true := by
  induction hk : maxHttpHeadersSize - 1 - w.length using Nat.strong_induction_on
    generalizing w buf t with
  | _ k ih =>
      rw [readLoop]
      split_ifs with hlt
      · cases hr : T.recv t (maxHttpHeadersSize - w.length - 1) with
        | mk piece t' =>
            match piece with
            | none => rfl
            | some [] => rfl
            | some (b :: bs) =>
                have hbs := recv_length (congrArg Prod.fst hr)
                rw [List.length_cons] at hbs
                have hlen : (w ++ b :: bs).length = w.length + (bs.length + 1) := List.length_append
                have hroom : w.length + (bs.length + 1) ≤ maxHttpHeadersSize - 1 := by omega
                obtain ⟨buf₁, buf₂, hs₁, hs₂, hb'⟩ := stored_piece hb b bs hroom
                have htake := hb'.take_eq
                rw [hlen] at htake
                simp only [hs₁, hs₂, htake, Option.bind_eq_bind, Option.bind_some]
                obtain ⟨hf, -⟩ | ⟨before, value, after, hxs, hf, -⟩ := findDateLine_cases (w ++ b :: bs)
                · rw [hf, ← hlen]
                  exact ih _ (by omega) hb' (hlen.trans_le hroom) rfl
                · obtain ⟨buf₃, hs₃, -⟩ := terminated_line (hxs ▸ hb')
                  rw [hf]
                  simp only [hs₃, Option.bind_some]
                  rfl
      · rfl

/-- What is read so far holds no date line; the verdict is that on all of it and
what is still to be read. -/
theorem readLoop_verdict (h : Delivers T input) {w : List UInt8}
    {buf : Buffer UInt8 maxHttpHeadersSize} {t : τ} (hb : Begins buf w)
    (hw : w.length ≤ maxHttpHeadersSize - 1) (hnone : dateLineOf w = none) :
    ∃ t', readLoop T w.length buf t = some (verdict (w ++ input t), t') := by
  induction hk : maxHttpHeadersSize - 1 - w.length using Nat.strong_induction_on
    generalizing w buf t with
  | _ k ih =>
      rw [readLoop]
      split_ifs with hlt
      · by_cases hin : input t = []
        · have hverdict : verdict (w ++ input t) = (0, none) := by
            rw [verdict, hin, List.append_nil, List.take_of_length_le hw, hnone,
              if_neg (Nat.not_le.mpr hlt)]
          obtain ⟨t', hr | hr⟩ := h.recv_ended hin (maxHttpHeadersSize - w.length - 1)
          · exact ⟨t', by rw [hr, hverdict]⟩
          · exact ⟨t', by rw [hr, hverdict]⟩
        · obtain ⟨b, bs, t', hr, hbs, hsplit⟩ :=
            h.recv_piece hin (show 0 < maxHttpHeadersSize - w.length - 1 by omega)
          have hlen : (w ++ b :: bs).length = w.length + (bs.length + 1) := List.length_append
          have hroom : w.length + (bs.length + 1) ≤ maxHttpHeadersSize - 1 := by omega
          obtain ⟨buf₁, buf₂, hs₁, hs₂, hb'⟩ := stored_piece hb b bs hroom
          have htake := hb'.take_eq
          rw [hlen] at htake
          rw [hr, hsplit, ← List.append_assoc]
          simp only [hs₁, hs₂, htake, Option.bind_eq_bind, Option.bind_some]
          obtain ⟨hf, hnone'⟩ | ⟨before, value, after, hxs, hf, hsome⟩ :=
            findDateLine_cases (w ++ b :: bs)
          · rw [hf]
            rw [← hlen]
            exact ih _ (by omega) hb' (hlen.trans_le hroom) hnone' rfl
          · obtain ⟨buf₃, hs₃, hline⟩ := terminated_line (hxs ▸ hb')
            refine ⟨t', ?_⟩
            rw [hf, verdict_of_found (hlen.trans_le hroom) hsome, ← hline]
            simp only [hs₃, Option.bind_some]
            rfl
      · have htake : (w ++ input t).take (maxHttpHeadersSize - 1) = w := by
          rw [List.take_append_of_le_length (Nat.not_lt.mp hlt), List.take_of_length_le hw]
        have hlong : maxHttpHeadersSize - 1 ≤ (w ++ input t).length := by
          rw [List.length_append]
          omega
        exact ⟨t, by rw [verdict, htake, hnone, if_pos hlong]⟩

theorem readHttpDateFromBio_isSome (T : Transport τ) (buf : Buffer UInt8 maxHttpHeadersSize)
    (t : τ) : (readHttpDateFromBio T buf t).isSome = true :=
  readLoop_isSome T (begins_nil buf) (Nat.zero_le _)

theorem readHttpDateFromBio_verdict (h : Delivers T input)
    (buf : Buffer UInt8 maxHttpHeadersSize) (t : τ) :
    ∃ t', readHttpDateFromBio T buf t = some (verdict (input t), t') :=
  readLoop_verdict h (begins_nil buf) (Nat.zero_le _) rfl

def response : List UInt8 :=
  ascii "HTTP/1.1 200 OK\r\nDate: Sun, 06 Nov 1994 08:49:37 GMT\r\n\r\n"

theorem response_read : ∃ s, readHttpDateFromBio stream (fill 0) ⟨response, []⟩ =
    some ((1, some 784111777), s) := by
  have hverdict : verdict response = (1, some 784111777) := by decide +kernel
  have h := readHttpDateFromBio_verdict stream_delivers (fill 0) ⟨response, []⟩
  rwa [hverdict] at h

end Run

end Tlsdate.DateReader
