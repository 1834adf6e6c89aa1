import Mathlib.Data.List.TakeWhile
import Tlsdate.BoundedBuffer
import Tlsdate.PacAgreement

namespace Tlsdate.HostportCopy

open BoundedBuffer PacProxy PacAgreement
open ProxyBio (CString cString cString_nul isDigit)

variable {n : Nat}

/-- The loop of `get_valid_hostport`: `out` points at the byte `i` of the buffer,
and `len` is what is counted down. Nothing is left of a run that stores past the
end. -/
def copyLoop : Bool → Nat → Nat → List UInt8 → Buffer UInt8 n → Option (Bool × Buffer UInt8 n)
  | _, _, i, [], out | _, 0, i, _, out => (store i [0] out).map fun out => (true, out)
  | host, len + 1, i, c :: cs, out => do
      let out ← store i [c] out
      if host && (isAlnum c || c == 45 || c == 46) then copyLoop true len (i + 1) cs out
      else if host && c == 58 then copyLoop false len (i + 1) cs out
      else if !host && isDigit c then copyLoop false len (i + 1) cs out
      else (store i [0] out).map fun out => (false, out)

/-- `get_valid_hostport` with a buffer of `n` bytes, byte by byte. -/
def getValidHostport (hostport : CString) (out : Buffer UInt8 n) :
    Option (Bool × Buffer UInt8 n) := do
  let out ← store 0 [0] out
  match hostport.1 with
  | [] => some (false, out)
  | c :: cs =>
      if isAlnum c then
        let out ← store 0 [c] out
        copyLoop true n 1 cs out
      else some (false, out)

def outcome : Option (Bool × Buffer UInt8 n) → Copied
  | none => .overrun
  | some (false, _) => .invalid
  | some (true, out) => .valid (cString out.1)

def prepend (w : List UInt8) (r : Copied) : Copied := w.foldr Copied.cons r

theorem prepend_append (w : List UInt8) (c : UInt8) (r : Copied) :
    prepend (w ++ [c]) r = prepend w (r.cons c) := by
  simp [prepend]

theorem prepend_invalid (w : List UInt8) : prepend w .invalid = .invalid := by
  induction w with
  | nil => rfl
  | cons c w ih => rw [prepend, List.foldr_cons, ← prepend, ih, Copied.cons]

theorem prepend_overrun (w : List UInt8) : prepend w .overrun = .overrun := by
  induction w with
  | nil => rfl
  | cons c w ih => rw [prepend, List.foldr_cons, ← prepend, ih, Copied.cons]

theorem prepend_valid (w out : List UInt8) : prepend w (.valid out) = .valid (w ++ out) := by
  induction w with
  | nil => rfl
  | cons c w ih => rw [prepend, List.foldr_cons, ← prepend, ih, Copied.cons, List.cons_append]

theorem begins_cString {out : Buffer UInt8 n} {w : List UInt8} (h : Begins out (w ++ [0]))
    (hw : (0 : UInt8) ∉ w) : cString out.1 = w := by
  obtain ⟨rest, hrest⟩ := h
  rw [← hrest, List.append_assoc, List.singleton_append, cString_nul, ProxyBio.cString]
  refine List.takeWhile_eq_self_iff.mpr fun c hc => bne_iff_ne.mpr fun h0 => ?_
  exact hw (h0 ▸ hc)

theorem outcome_end {out : Buffer UInt8 n} {w : List UInt8} (h : Begins out w)
    (hw : (0 : UInt8) ∉ w) : outcome ((store w.length [0] out).map fun out => (true, out)) =
      if w.length < n then .valid w else .overrun := by
  split_ifs with hn
  · obtain ⟨out', ho, hb⟩ := h.store [0] hn
    rw [ho, Option.map_some, outcome, begins_cString hb hw]
  · rw [store_none (Nat.lt_succ_of_le (Nat.not_lt.mp hn))]
    rfl

theorem outcome_invalid {out : Buffer UInt8 n} {w : List UInt8} {c : UInt8}
    (h : Begins out (w ++ [c])) :
    outcome ((store w.length [0] out).map fun out => (false, out)) = .invalid := by
  have hw : Begins out w := (List.prefix_append w [c]).trans h
  have hn : (w ++ [c]).length ≤ n := h.length_le
  obtain ⟨out', ho, -⟩ := hw.store [0] (by simpa using hn)
  rw [ho]
  rfl

theorem copyLoop_outcome {host : Bool} {len : Nat} {cs w : List UInt8} {out : Buffer UInt8 n}
    (h : Begins out w) (hw : (0 : UInt8) ∉ w) (hcs : (0 : UInt8) ∉ cs) :
    outcome (copyLoop host len w.length cs out) = prepend w (copyRest n host len w.length cs) := by
  induction cs generalizing host len w out with
  | nil =>
      have hend := outcome_end h hw
      cases len <;> rw [copyLoop, copyRest, hend] <;> split_ifs <;>
        simp [prepend_valid, prepend_overrun]
  | cons c cs ih =>
      cases len with
      | zero =>
          simp only [copyLoop, copyRest, outcome_end h hw]
          split_ifs <;> simp [prepend_valid, prepend_overrun]
      | succ len =>
          rw [copyLoop, copyRest]
          by_cases hn : n ≤ w.length
          · rw [if_pos hn, store_none (Nat.lt_succ_of_le hn), prepend_overrun]
            rfl
          · obtain ⟨out', ho, hb⟩ := h.store [c] (Nat.not_le.mp hn)
            have hw' : (0 : UInt8) ∉ w ++ [c] := by
              intro h0
              obtain h0 | h0 := List.mem_append.mp h0
              · exact hw h0
              · exact hcs (List.mem_cons.mpr (Or.inl (List.mem_singleton.mp h0)))
            have ih' (host' : Bool) : outcome (copyLoop host' len (w.length + 1) cs out') =
                prepend w ((copyRest n host' len (w.length + 1) cs).cons c) := by
              have hrest : outcome (copyLoop host' len (w ++ [c]).length cs out') =
                  prepend (w ++ [c]) (copyRest n host' len (w ++ [c]).length cs) :=
                ih hb hw' fun h0 => hcs (List.mem_cons_of_mem _ h0)
              rwa [prepend_append, List.length_append, List.length_singleton] at hrest
            rw [if_neg hn, ho, Option.bind_eq_bind, Option.bind_some]
            split_ifs
            · exact ih' true
            · exact ih' false
            · exact ih' false
            · rw [outcome_invalid hb, prepend_invalid]

theorem getValidHostport_outcome (hostport : CString) (out : Buffer UInt8 n) (hn : 1 ≤ n) :
    outcome (getValidHostport hostport out) = PacProxy.getValidHostport hostport.1 n := by
  obtain ⟨hostport, h0⟩ := hostport
  obtain ⟨out₀, ho, -⟩ := (begins_nil out).store [0] hn
  rw [List.length_nil] at ho
  rw [getValidHostport, ho, Option.bind_eq_bind, Option.bind_some]
  cases hostport with
  | nil => rfl
  | cons c cs =>
      obtain ⟨out₁, ho₁, hb⟩ := (begins_nil out₀).store [c] hn
      rw [List.length_nil] at ho₁
      rw [PacProxy.getValidHostport]
      simp only [ho₁, Option.bind_some]
      split_ifs
      · have hc : (0 : UInt8) ∉ [c] := fun h => h0 (List.mem_cons.mpr (Or.inl (by simpa using h)))
        exact copyLoop_outcome hb hc fun h => h0 (List.mem_cons_of_mem _ h)
      · rfl

/-- Every store of the run is inside the buffer, and the string that a
successful run leaves there is the whole of `hostport`. -/
def CopiedWhole (hostport : CString) (out : Buffer UInt8 n) : Prop :=
  ∃ valid out', getValidHostport hostport out = some (valid, out') ∧
    (valid = true → cString out'.1 = hostport.1)

theorem getValidHostport_whole (hostport : CString) (out : Buffer UInt8 n) (hn : 1 ≤ n) :
    CopiedWhole hostport out ↔
      ¬ (n ≤ hostport.1.length ∧ HostPort (hostport.1.take n)) := by
  have ho := getValidHostport_outcome hostport out hn
  rw [← getValidHostport_overrun hn, ← ho, CopiedWhole]
  cases hrun : getValidHostport hostport out with
  | none => simp [outcome]
  | some done =>
      obtain ⟨valid, out'⟩ := done
      cases valid with
      | false => exact iff_of_true ⟨false, out', rfl, nofun⟩ nofun
      | true =>
          rw [hrun] at ho
          have hwhole := (getValidHostport_valid.mp ho.symm).1
          exact iff_of_true ⟨true, out', rfl, fun _ => hwhole⟩ nofun

theorem nul_notMem_letters (k : Nat) : (0 : UInt8) ∉ List.replicate k 97 := by
  simp [List.mem_replicate]

def letters (k : Nat) : CString := ⟨List.replicate k 97, nul_notMem_letters k⟩

theorem isHost_letters (k : Nat) : IsHost (List.replicate (k + 1) 97) where
  first := ⟨97, rfl, by decide⟩
  chars c hc := by
    rw [List.eq_of_mem_replicate hc]
    decide

theorem letters_length (k : Nat) : (letters k).1.length = k := List.length_replicate

theorem longest_whole :
    CopiedWhole (letters (hostportSize - 1)) (fill 0 : Buffer UInt8 hostportSize) := by
  refine (getValidHostport_whole _ _ (by decide)).mpr fun h => ?_
  have hl := h.1
  rw [letters_length] at hl
  exact absurd hl (by decide)

theorem letters_overrun :
    ¬ CopiedWhole (letters hostportSize) (fill 0 : Buffer UInt8 hostportSize) := by
  rintro ⟨valid, out', hrun, -⟩
  have hhost : HostPort ((letters hostportSize).1.take hostportSize) := by
    rw [List.take_of_length_le (letters_length _).le]
    exact .host (isHost_letters 262)
  have hover : PacProxy.getValidHostport (letters hostportSize).1 hostportSize = .overrun :=
    overrun_hostport.mpr ⟨(letters_length _).ge, hhost⟩
  rw [← getValidHostport_outcome _ (fill 0) (by decide), hrun] at hover
  cases valid <;> cases hover

end Tlsdate.HostportCopy
