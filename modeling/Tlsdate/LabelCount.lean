import Tlsdate.StrtokR
import Tlsdate.Wildcard

namespace Tlsdate.LabelCount

open StrtokR
open ProxyBio (CString ascii)
open Wildcard (Bytes dot labels labels_cons labels_cons_dot labels_ne_nil dnsLabelCount_label
  dnsLabelCount_dots)

/-- The loop of `dns_label_count`: one more label for each turn, until there is
no further token. The fuel bounds the turns, and none is one that it does not
see the end of. -/
def countLoop (delim : Bytes) : Nat → Nat → Bytes → UInt32 → Option UInt32
  | 0, _, _, _ => none
  | fuel + 1, saveptr, labelTmp, labelCount =>
      let scan := strtokR 0 delim none saveptr labelTmp
      if scan.token.isSome then countLoop delim fuel scan.save scan.mem (labelCount + 1)
      else some (labelCount + 1)

/-- `dns_label_count`. The first token is assigned to the save pointer, over
what `strtok_r` has stored there. -/
def dnsLabelCount (fuel : Nat) (label delim : Bytes) : Option UInt32 :=
  let labelTmp := label ++ [0]
  let scan := strtokR 0 delim (some 0) 0 labelTmp
  match scan.token with
  | none => some 0
  | some saveptr =>
      let labelCount := if charAt 0 scan.mem saveptr ≠ charAt 0 delim 0 then 1 else 0
      countLoop delim fuel saveptr scan.mem labelCount

def nonEmptyLabels (label : Bytes) : Nat := ((labels label).filter (· ≠ [])).length

section Count

variable {delim xs word after : Bytes} {c : UInt8}

theorem countLoop_word (hword : Word 0 delim (c :: word)) (fuel : Nat) (n : UInt32) :
    countLoop delim (fuel + 2) xs.length (xs ++ c :: word ++ 0 :: after) n = some (n + 1 + 1) := by
  have hnone : Skipped (0 : UInt8) delim [] := by simp [Skipped]
  obtain ⟨save, hsave, hagain⟩ :=
    strtokR_token _ xs after (s := none) (e := 0) rfl hnone hword (Or.inl rfl)
  have hend := strtokR_end _ (xs ++ c :: word) after (s := none) rfl hnone
  rw [List.append_nil] at hsave hagain hend
  rw [countLoop, hagain, hsave rfl]
  simp only [Option.isSome_some, if_true, countLoop, hend, Option.isSome_none, if_false,
    Bool.false_eq_true]

theorem dnsLabelCount_word (hxs : Skipped 0 delim xs) (hword : Word 0 delim (c :: word))
    {rest : Bytes} (hrest : ∀ e ∈ rest.head?, e ∈ delim) (fuel : Nat) :
    dnsLabelCount (fuel + 2) (xs ++ c :: word ++ rest) delim = some 3 := by
  obtain ⟨e, after, hcopy, he⟩ : ∃ e after, rest ++ [0] = e :: after ∧ (e = 0 ∨ e ∈ delim) := by
    cases rest with
    | nil => exact ⟨0, [], rfl, Or.inl rfl⟩
    | cons e rest => exact ⟨e, rest ++ [0], rfl, Or.inr (hrest e rfl)⟩
  obtain ⟨save, -, hfirst⟩ := strtokR_token 0 [] after (s := some 0) rfl hxs hword he
  have hchar : charAt 0 (xs ++ c :: word ++ 0 :: after) xs.length = c := by
    rw [List.append_assoc]
    exact charAt_append ..
  have hne : c ≠ charAt 0 delim 0 := by
    obtain ⟨hc, hcd⟩ := hword c (List.mem_cons_self ..)
    exact ne_delim hc hcd
  rw [List.nil_append] at hfirst
  rw [dnsLabelCount, List.append_assoc, hcopy, hfirst]
  simp only [hchar, if_pos hne]
  exact countLoop_word hword fuel 1

theorem dnsLabelCount_end (hxs : Skipped 0 delim xs) (fuel : Nat) :
    dnsLabelCount fuel xs delim = some 0 := by
  have hend := strtokR_end 0 [] [] (s := some 0) rfl hxs
  rw [List.nil_append] at hend
  rw [dnsLabelCount, hend]

end Count

theorem nonEmptyLabels_cons {c : UInt8} (hc : c ≠ dot) (s : Bytes) :
    nonEmptyLabels (c :: s) ≠ 0 := by
  obtain ⟨l, ls, hs⟩ := List.exists_cons_of_ne_nil (labels_ne_nil s)
  simp [nonEmptyLabels, labels_cons hc, hs]

theorem nonEmptyLabels_zero_iff (s : Bytes) : nonEmptyLabels s = 0 ↔ ∀ c ∈ s, c = dot := by
  induction s with
  | nil => exact iff_of_true rfl (by simp)
  | cons c s ih =>
      by_cases hc : c = dot
      · have hcons : nonEmptyLabels (dot :: s) = nonEmptyLabels s := by
          simp [nonEmptyLabels, labels_cons_dot]
        rw [hc, hcons, ih, List.forall_mem_cons]
        exact (and_iff_right rfl).symm
      · refine iff_of_false (nonEmptyLabels_cons hc s) fun h => hc ?_
        exact h c (List.mem_cons_self ..)

/-- The count always ends, and is right if there are no labels or three of them. -/
theorem dnsLabelCount_counts (label : CString) :
    ∃ n : UInt32, (∀ fuel, 2 ≤ fuel → dnsLabelCount fuel label.1 [dot] = some n) ∧
      n.toNat = Wildcard.dnsLabelCount label.1 ∧
      (n.toNat = nonEmptyLabels label.1 ↔
        nonEmptyLabels label.1 = 0 ∨ nonEmptyLabels label.1 = 3) := by
  obtain ⟨xs, word, rest, hlabel, hxs, hword, hempty, hrest⟩ := first_word [dot] label.2
  cases word with
  | nil =>
      rw [hempty rfl, List.append_nil, List.append_nil] at hlabel
      have hdots : ∀ c ∈ label.1, c = dot := fun c hc => by
        rw [hlabel] at hc
        exact List.mem_singleton.mp (hxs c hc).2
      refine ⟨0, fun fuel _ => ?_, ?_, ?_⟩
      · rw [hlabel]
        exact dnsLabelCount_end hxs fuel
      · rw [dnsLabelCount_dots hdots]
        rfl
      · have hzero := (nonEmptyLabels_zero_iff label.1).mpr hdots
        exact iff_of_true hzero.symm (Or.inl hzero)
  | cons c word =>
      have hmem : c ∈ label.1 := by
        rw [hlabel]
        simp
      have hc : c ≠ dot := fun h => (hword c (List.mem_cons_self ..)).2 (List.mem_singleton.mpr h)
      refine ⟨3, fun fuel hfuel => ?_, ?_, ?_⟩
      · obtain ⟨k, rfl⟩ := Nat.exists_eq_add_of_le' hfuel
        rw [hlabel]
        exact dnsLabelCount_word hxs hword hrest k
      · rw [dnsLabelCount_label hmem hc]
        rfl
      · have hne : nonEmptyLabels label.1 ≠ 0 := fun h =>
          hc ((nonEmptyLabels_zero_iff label.1).mp h c hmem)
        rw [or_iff_right hne]
        exact eq_comm

theorem two_labels_counted : dnsLabelCount 2 (ascii "*.com") [dot] = some 3 ∧
    nonEmptyLabels (ascii "*.com") = 2 := by
  decide +kernel
end Tlsdate.LabelCount
