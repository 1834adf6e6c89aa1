import Mathlib.Data.List.TakeWhile

namespace Tlsdate.StrtokR

variable {α : Type} [DecidableEq α] (nul : α) (delim : List α)

def charAt (mem : List α) (p : Nat) : α := mem.getD p nul

def strspn (mem : List α) (p : Nat) : Nat :=
  ((mem.drop p).takeWhile fun c => c != nul && delim.contains c).length

def strcspn (mem : List α) (p : Nat) : Nat :=
  ((mem.drop p).takeWhile fun c => c != nul && !delim.contains c).length

structure Scan (α : Type) where
  token : Option Nat
  save : Nat
  mem : List α

/-- `strtok_r` goes on at the save pointer if it is given no string. It ends the
token in place. -/
def strtokR (s : Option Nat) (save : Nat) (mem : List α) : Scan α :=
  let start := s.getD save
  let token := start + strspn nul delim mem start
  if charAt nul mem token = nul then ⟨none, token, mem⟩
  else
    let stop := token + strcspn nul delim mem token
    if charAt nul mem stop = nul then ⟨some token, stop, mem⟩
    else ⟨some token, stop + 1, mem.set stop nul⟩

def Skipped (xs : List α) : Prop := ∀ c ∈ xs, c ≠ nul ∧ c ∈ delim

def Word (xs : List α) : Prop := ∀ c ∈ xs, c ≠ nul ∧ c ∉ delim

section Stretches

variable {nul : α} {delim : List α} {xs before after : List α} {e : α}

theorem charAt_append {α : Type} (nul e : α) (before after : List α) :
    charAt nul (before ++ e :: after) before.length = e := by
  simp [charAt]

theorem set_append_cell {α : Type} (before after : List α) (e x : α) :
    (before ++ e :: after).set before.length x = before ++ x :: after := by
  simp

theorem scan_append {α : Type} {p : α → Bool} {xs before after : List α} {e : α}
    (hxs : ∀ c ∈ xs, p c = true) (he : p e = false) :
    (((before ++ (xs ++ e :: after)).drop before.length).takeWhile p).length = xs.length := by
  have hstop : (e :: after).takeWhile p = [] := by
    rw [List.takeWhile_cons, he]
    rfl
  rw [List.drop_left, List.takeWhile_append_of_pos hxs, hstop, List.append_nil]

theorem strspn_append (hxs : Skipped nul delim xs) (he : e = nul ∨ e ∉ delim) :
    strspn nul delim (before ++ (xs ++ e :: after)) before.length = xs.length := by
  refine scan_append (fun c hc => by simpa using hxs c hc) ?_
  rcases he with rfl | he
  · simp
  · simp [he]

theorem strcspn_append (hxs : Word nul delim xs) (he : e = nul ∨ e ∈ delim) :
    strcspn nul delim (before ++ (xs ++ e :: after)) before.length = xs.length := by
  refine scan_append (fun c hc => by simpa using hxs c hc) ?_
  rcases he with rfl | he
  · simp
  · simp [he]

end Stretches

section Strings

variable {nul : α} (delim : List α) {label : List α}

theorem stretch {α : Type} (p : α → Bool) (s : List α) : ∃ xs rest, s = xs ++ rest ∧
    (∀ c ∈ xs, p c = true) ∧ ∀ e ∈ rest.head?, p e = false := by
  induction s with
  | nil => exact ⟨[], [], rfl, by simp, by simp⟩
  | cons c s ih =>
      cases hc : p c with
      | false => exact ⟨[], c :: s, rfl, by simp, by simpa using hc⟩
      | true =>
          obtain ⟨xs, rest, hs, hxs, hrest⟩ := ih
          exact ⟨c :: xs, rest, congrArg (c :: ·) hs, List.forall_mem_cons.mpr ⟨hc, hxs⟩, hrest⟩

theorem first_word (h : nul ∉ label) : ∃ xs word rest, label = xs ++ word ++ rest ∧
    Skipped nul delim xs ∧ Word nul delim word ∧ (word = [] → rest = []) ∧
    ∀ e ∈ rest.head?, e ∈ delim := by
  obtain ⟨xs, r, rfl, hxs, hr⟩ := stretch (fun c => decide (c ∈ delim)) label
  obtain ⟨word, rest, rfl, hword, hrest⟩ := stretch (fun c => decide (c ∉ delim)) r
  refine ⟨xs, word, rest, (List.append_assoc ..).symm, fun c hc => ⟨?_, ?_⟩, fun c hc => ⟨?_, ?_⟩,
    ?_, ?_⟩
  · rintro rfl
    exact h (List.mem_append_left _ hc)
  · simpa using hxs c hc
  · rintro rfl
    exact h (List.mem_append_right _ (List.mem_append_left _ hc))
  · simpa using hword c hc
  · rintro rfl
    cases rest with
    | nil => rfl
    | cons e rest =>
        have hin : e ∈ delim := by simpa using hrest e rfl
        have hout : e ∉ delim := by simpa using hr e rfl
        exact absurd hin hout
  · intro e he
    simpa using hrest e he

end Strings

section Calls

variable {nul : α} {delim : List α} {xs : List α} {e : α} {s : Option Nat} (save : Nat)
  (before after : List α)

theorem strtokR_end (hs : s.getD save = before.length) (hxs : Skipped nul delim xs) :
    strtokR nul delim s save (before ++ xs ++ nul :: after) =
      ⟨none, (before ++ xs).length, before ++ xs ++ nul :: after⟩ := by
  have hspan : strspn nul delim (before ++ xs ++ nul :: after) before.length = xs.length := by
    rw [List.append_assoc]
    exact strspn_append hxs (Or.inl rfl)
  have hend := charAt_append nul nul (before ++ xs) after
  rw [List.length_append] at hend
  simp only [strtokR, hs, hspan, hend, if_true, List.length_append]

theorem strtokR_token {c : α} {word : List α} (hs : s.getD save = before.length)
    (hxs : Skipped nul delim xs) (hword : Word nul delim (c :: word)) (he : e = nul ∨ e ∈ delim) :
    ∃ save', (e = nul → save' = (before ++ xs ++ c :: word).length) ∧
      strtokR nul delim s save (before ++ xs ++ c :: word ++ e :: after) =
        ⟨some (before ++ xs).length, save', before ++ xs ++ c :: word ++ nul :: after⟩ := by
  obtain ⟨hc, hcd⟩ := hword c (List.mem_cons_self ..)
  have hspan : strspn nul delim (before ++ xs ++ c :: word ++ e :: after) before.length =
      xs.length := by
    rw [List.append_assoc, List.append_assoc]
    exact strspn_append hxs (Or.inr hcd)
  have hfirst : charAt nul (before ++ xs ++ c :: word ++ e :: after) (before ++ xs).length = c := by
    rw [List.append_assoc]
    exact charAt_append ..
  have hcspan : strcspn nul delim (before ++ xs ++ c :: word ++ e :: after) (before ++ xs).length =
      (c :: word).length := by
    rw [List.append_assoc]
    exact strcspn_append hword he
  have hstop : charAt nul (before ++ xs ++ c :: word ++ e :: after)
      (before ++ xs ++ c :: word).length = e := charAt_append ..
  have hset := set_append_cell (before ++ xs ++ c :: word) after e nul
  rw [List.length_append] at hfirst hcspan
  rw [List.length_append, List.length_append] at hstop hset
  simp only [strtokR, hs, hspan, hfirst, if_neg hc, hcspan, hstop, List.length_append]
  split_ifs with h
  · exact ⟨_, fun _ => rfl, by rw [h]⟩
  · exact ⟨before.length + xs.length + (c :: word).length + 1, fun h' => absurd h' h, by rw [hset]⟩

theorem ne_delim {α : Type} {nul c : α} {delim : List α} (hc : c ≠ nul) (hcd : c ∉ delim) :
    c ≠ charAt nul delim 0 := by
  cases delim with
  | nil => exact hc
  | cons d delim =>
      rintro rfl
      exact hcd (List.mem_cons_self ..)

end Calls

end Tlsdate.StrtokR
