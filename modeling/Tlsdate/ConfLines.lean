import Mathlib.Data.List.TakeWhile
import Tlsdate.ConfFile

namespace Tlsdate.ConfLines

open LinePieces ConfFile
open ProxyBio (ascii cString isSpace skipSpace)

variable {f buf w s : List UInt8} {es : List ConfEntry} {e : ConfEntry}

theorem confParse_nil : confParse [] = [] := by
  rw [confParse]
  rfl

theorem confParse_cons {p r : List UInt8} (hf : f ≠ [])
    (h : piece 10 (confMaxLine - 1) f = (p, r)) :
    confParse f = (confEntry p).toList ++ confParse r := by
  have hgets : fgets confMaxLine f = some (p, r) := by rw [fgets, if_neg hf, h]
  rw [confParse]
  split
  next hnone =>
    rw [hgets] at hnone
    cases hnone
  next hsome =>
    rw [hgets] at hsome
    cases hsome
    rfl

theorem confParse_pieces (f : List UInt8) :
    confParse f = (pieces 10 (confMaxLine - 2) f).filterMap confEntry := by
  by_cases hf : f = []
  · subst hf
    rw [confParse_nil, pieces_nil, List.filterMap_nil]
  · obtain ⟨p, r, hp⟩ : ∃ p r, piece 10 (confMaxLine - 1) f = (p, r) := ⟨_, _, rfl⟩
    have hpiece : piece 10 (confMaxLine - 2 + 1) f = (p, r) := hp
    have hshorter : r.length < f.length := by
      have hlen := piece_shorter 10 (confMaxLine - 2) hf
      rwa [hpiece] at hlen
    rw [confParse_cons hf hp, pieces_cons hf r hpiece, confParse_pieces r, List.filterMap_cons]
    cases confEntry p <;> rfl
termination_by f.length

theorem confParse_append (hw : (10 : UInt8) ∉ w) (f : List UInt8) :
    confParse (w ++ 10 :: f) = confParse (w ++ [10]) ++ confParse f := by
  rw [confParse_pieces, pieces_append hw, List.filterMap_append, ← confParse_pieces f,
    ← confParse_pieces (w ++ [10])]

theorem confParse_line (hw : (10 : UInt8) ∉ w) (hlen : (w ++ [10]).length ≤ confMaxLine - 1)
    (f : List UInt8) : confParse (w ++ 10 :: f) = (confEntry (w ++ [10])).toList ++ confParse f := by
  have hn : w.length ≤ 16382 := by
    rw [List.length_append] at hlen
    exact Nat.le_of_succ_le_succ hlen
  exact confParse_cons (by simp) (piece_line hw hn f)

section Entries

/-- Blank, or with '#' for the first character that is not blank. -/
def skipped (line : List UInt8) : Bool := (line.find? fun c => !isSpace c).all (· == 35)

theorem find_eq_head_skipSpace (s : List UInt8) :
    (s.find? fun c => !isSpace c) = (skipSpace s).head? := by
  rw [skipSpace]
  induction s with
  | nil => rfl
  | cons c s ih =>
      rw [List.find?_cons, List.dropWhile_cons]
      cases hc : isSpace c with
      | true => simpa using ih
      | false => rfl

theorem isIgnoredLine_skipSpace (s : List UInt8) : isIgnoredLine (skipSpace s) = skipped s := by
  rw [skipped, find_eq_head_skipSpace, isIgnoredLine]
  cases skipSpace s <;> rfl

theorem skipped_begins (hs : skipped s = true) (h : w <+: s) : skipped w = true := by
  obtain ⟨rest, rfl⟩ := h
  rw [skipped, List.find?_append] at hs
  rw [skipped]
  cases hw : w.find? fun c => !isSpace c with
  | none => rfl
  | some c =>
      rw [hw] at hs
      exact hs

theorem stripNewlines_begins (buf : List UInt8) : stripNewlines (cString buf) <+: buf :=
  ((List.takeWhile_prefix _).trans (List.takeWhile_prefix _)).trans (List.takeWhile_prefix _)

theorem lineStart_skipped (h : skipped buf = true) : isIgnoredLine (lineStart buf) = true := by
  rw [lineStart, isIgnoredLine_skipSpace]
  exact skipped_begins h (stripNewlines_begins buf)

theorem confEntry_ignored (h : isIgnoredLine (lineStart buf) = true) : confEntry buf = none :=
  if_pos h

theorem strtok_word {delim key rest : List UInt8} (hne : key ≠ [])
    (hkey : ∀ c ∈ key, delim.contains c = false)
    (hrest : ∀ c ∈ rest.head?, delim.contains c = true) :
    strtok delim (key ++ rest) = some (key, rest.tail) := by
  obtain ⟨c, key', rfl⟩ := List.exists_cons_of_ne_nil hne
  have hdrop : ((c :: key') ++ rest).dropWhile delim.contains = (c :: key') ++ rest := by
    rw [List.cons_append, List.dropWhile_cons, hkey c List.mem_cons_self]
    rfl
  have htoken : ∀ x ∈ c :: key', (fun x => !delim.contains x) x = true := fun x hx => by
    simp only [hkey x hx, Bool.not_false]
  have htake : rest.takeWhile (fun c => !delim.contains c) = [] := by
    cases rest with
    | nil => rfl
    | cons x rest =>
        rw [List.takeWhile_cons, hrest x rfl]
        rfl
  have hstop : rest.dropWhile (fun c => !delim.contains c) = rest := by
    cases rest with
    | nil => rfl
    | cons x rest =>
        rw [List.dropWhile_cons, hrest x rfl]
        rfl
  rw [strtok, hdrop]
  simp only [List.cons_append]
  rw [← List.cons_append, List.takeWhile_append_of_pos htoken, htake, List.append_nil,
    List.dropWhile_append_of_pos htoken, hstop]

theorem strtok_rest (hs : s ≠ []) : strtok [] s = some (s, []) := by
  have h := @strtok_word [] s [] hs (fun _ _ => rfl) (by simp)
  rwa [List.append_nil] at h

theorem confEntry_isSome (buf : List UInt8) :
    (confEntry buf).isSome = !isIgnoredLine (lineStart buf) := by
  rw [confEntry]
  cases hi : isIgnoredLine (lineStart buf) with
  | true => rfl
  | false =>
      obtain ⟨c, hc, hspace⟩ : ∃ c ∈ (lineStart buf).head?, isSpace c = false := by
        rw [lineStart, isIgnoredLine_skipSpace, skipped] at hi
        rw [lineStart, ← find_eq_head_skipSpace]
        cases hfind : (stripNewlines (cString buf)).find? fun c => !isSpace c with
        | none => simp [hfind] at hi
        | some c => exact ⟨c, rfl, by simpa using List.find?_some hfind⟩
      obtain ⟨rest, hstart⟩ := List.head?_eq_some_iff.mp hc
      have hblank : (ascii " \t").contains c = false := by
        by_contra h
        have hmem : c ∈ ascii " \t" := by simpa using h
        have hall : ∀ c ∈ ascii " \t", isSpace c = true := by decide +kernel
        rw [hall c hmem] at hspace
        cases hspace
      rw [if_neg Bool.false_ne_true, strtok, hstart, List.dropWhile_cons, hblank]
      rfl

end Entries

section Layout

def Blank (w : List UInt8) : Prop := ∀ c ∈ w, c = 32 ∨ c = 9

def Ending (w : List UInt8) : Prop := w = [10] ∨ w = [13, 10]

structure IsKey (key : List UInt8) : Prop where
  ne : key ≠ []
  chars : ∀ c ∈ key, c ∉ ([32, 9, 13, 10, 0] : List UInt8)
  head : ∀ c ∈ key.head?, c ≠ 35 ∧ isSpace c = false

structure IsValue (value : List UInt8) : Prop where
  ne : value ≠ []
  chars : ∀ c ∈ value, c ∉ ([13, 10, 0] : List UInt8)
  head : ∀ c ∈ value.head?, isSpace c = false

inductive EntryLine : ConfEntry → List UInt8 → Prop
  | key {key indent ending : List UInt8} : IsKey key → Blank indent → Ending ending →
      EntryLine ⟨key, none⟩ (indent ++ (key ++ ending))
  | pair {key value indent gap ending : List UInt8} : IsKey key → IsValue value → Blank indent → Blank gap →
      gap ≠ [] → Ending ending →
      EntryLine ⟨key, some value⟩ (indent ++ (key ++ ((gap ++ value) ++ ending)))

/-- The files that write these entries, one in each line, with blank and comment
lines in between. A carriage return at the end of a comment belongs to its text. -/
inductive Layout : List ConfEntry → List UInt8 → Prop
  | done : Layout [] []
  | entry {e : ConfEntry} {es : List ConfEntry} {line f : List UInt8} : EntryLine e line →
      line.length ≤ confMaxLine - 1 → Layout es f → Layout (e :: es) (line ++ f)
  | blank {es : List ConfEntry} {w f : List UInt8} : (∀ c ∈ w, isSpace c = true) →
      (10 : UInt8) ∉ w → Layout es f → Layout es (w ++ 10 :: f)
  | comment {es : List ConfEntry} {indent text f : List UInt8} :
      (∀ c ∈ indent, isSpace c = true) → (10 : UInt8) ∉ indent → (10 : UInt8) ∉ text →
      (indent ++ 35 :: text ++ [10]).length ≤ confMaxLine - 1 → Layout es f →
      Layout es (indent ++ 35 :: text ++ 10 :: f)

variable {key value indent gap rest ending : List UInt8}

theorem Blank.isSpace (h : Blank w) : ∀ c ∈ w, isSpace c = true := by
  intro c hc
  obtain rfl | rfl := h c hc <;> rfl

theorem Blank.delim (h : Blank w) : ∀ c ∈ w, (ascii " \t").contains c = true := by
  intro c hc
  obtain rfl | rfl := h c hc <;> rfl

theorem skipSpace_append (hw : ∀ c ∈ w, isSpace c = true) (hs : ∀ c ∈ s.head?, isSpace c = false) :
    skipSpace (w ++ s) = s := by
  rw [skipSpace, List.dropWhile_append_of_pos hw]
  cases s with
  | nil => rfl
  | cons c s => rw [List.dropWhile_cons, hs c rfl, if_neg Bool.false_ne_true]

theorem lineStart_text (hw : ∀ c ∈ w, c ∉ ([13, 10, 0] : List UInt8))
    (hending : ∀ c ∈ ending.head?, c = 10 ∨ c = 13) : lineStart (w ++ ending) = skipSpace w := by
  have hne (c : UInt8) (hc : c ∈ w) : (c != 0) = true ∧ (c != 10) = true ∧ (c != 13) = true := by
    have h := hw c hc
    simp only [List.mem_cons, List.not_mem_nil, or_false, not_or] at h
    exact ⟨bne_iff_ne.mpr h.2.2, bne_iff_ne.mpr h.2.1, bne_iff_ne.mpr h.1⟩
  have hstop : stripNewlines (cString ending) = [] := by
    cases ending with
    | nil => rfl
    | cons c ending => obtain rfl | rfl := hending c rfl <;> rfl
  rw [stripNewlines, cString] at hstop
  rw [lineStart, stripNewlines, cString, List.takeWhile_append_of_pos fun c hc => (hne c hc).1,
    List.takeWhile_append_of_pos fun c hc => (hne c hc).2.1,
    List.takeWhile_append_of_pos fun c hc => (hne c hc).2.2, hstop, List.append_nil]

theorem Ending.head (h : Ending ending) : ∀ c ∈ ending.head?, c = 10 ∨ c = 13 := by
  obtain rfl | rfl := h <;> simp

theorem confEntry_key (hkey : IsKey key) (hindent : Blank indent)
    (hchars : ∀ c ∈ rest, c ∉ ([13, 10, 0] : List UInt8))
    (hrest : ∀ c ∈ rest.head?, c = 32 ∨ c = 9) (hending : ∀ c ∈ ending.head?, c = 10 ∨ c = 13) :
    confEntry (indent ++ (key ++ (rest ++ ending))) =
      some ⟨key, (strtok [] rest.tail).map fun p => skipSpace p.1⟩ := by
  obtain ⟨c, key', rfl⟩ := List.exists_cons_of_ne_nil hkey.ne
  obtain ⟨hcomment, hspace⟩ := hkey.head c rfl
  have htext : ∀ x ∈ indent ++ (c :: key' ++ rest), x ∉ ([13, 10, 0] : List UInt8) := by
    intro x hx
    simp only [List.mem_append] at hx
    obtain hx | hx | hx := hx
    · obtain rfl | rfl := hindent x hx <;> decide
    · exact fun hmem => hkey.chars x hx (List.mem_cons_of_mem _ (List.mem_cons_of_mem _ hmem))
    · exact hchars x hx
  have hstart : lineStart (indent ++ (c :: key' ++ (rest ++ ending))) = c :: key' ++ rest := by
    rw [← List.append_assoc (c :: key'), ← List.append_assoc indent, lineStart_text htext hending]
    refine skipSpace_append hindent.isSpace ?_
    rintro _ ⟨rfl⟩
    exact hspace
  have hignored : isIgnoredLine (c :: key' ++ rest) = false := by
    simp [isIgnoredLine, hcomment]
  have hdelim : ∀ x ∈ c :: key', (ascii " \t").contains x = false := by
    intro x hx
    by_contra h
    have hmem : x ∈ ascii " \t" := by simpa using h
    have hall : ∀ x ∈ ascii " \t", x ∈ ([32, 9, 13, 10, 0] : List UInt8) := by decide +kernel
    exact hkey.chars x hx (hall x hmem)
  have hblank : ∀ x ∈ rest.head?, (ascii " \t").contains x = true := by
    intro x hx
    obtain rfl | rfl := hrest x hx <;> rfl
  rw [confEntry, hstart, hignored, if_neg Bool.false_ne_true,
    strtok_word hkey.ne hdelim hblank, Option.map_some]

theorem confEntry_pair (hkey : IsKey key) (hvalue : IsValue value) (hindent : Blank indent)
    (hgap : Blank gap) (hne : gap ≠ []) (hending : Ending ending) :
    confEntry (indent ++ (key ++ ((gap ++ value) ++ ending))) = some ⟨key, some value⟩ := by
  obtain ⟨c, gap', rfl⟩ := List.exists_cons_of_ne_nil hne
  have hchars : ∀ x ∈ c :: gap' ++ value, x ∉ ([13, 10, 0] : List UInt8) := by
    intro x hx
    obtain hx | hx := List.mem_append.mp hx
    · obtain rfl | rfl := hgap x hx <;> decide
    · exact hvalue.chars x hx
  have hrest : ∀ x ∈ (c :: gap' ++ value).head?, x = 32 ∨ x = 9 := by
    rintro _ ⟨rfl⟩
    exact hgap _ List.mem_cons_self
  have hblanks : ∀ x ∈ gap', isSpace x = true := fun x hx =>
    hgap.isSpace x (List.mem_cons_of_mem _ hx)
  have hvalued : gap' ++ value ≠ [] := List.append_ne_nil_of_right_ne_nil _ hvalue.ne
  rw [confEntry_key hkey hindent hchars hrest hending.head, List.cons_append, List.tail_cons,
    strtok_rest hvalued, Option.map_some, skipSpace_append hblanks hvalue.head]

theorem EntryLine.confEntry (h : EntryLine e w) : ConfFile.confEntry w = some e := by
  cases h with
  | key hkey hindent hending =>
      exact @confEntry_key _ _ [] _ hkey hindent (by simp) (by simp) hending.head
  | pair hkey hvalue hindent hgap hne hending =>
      exact confEntry_pair hkey hvalue hindent hgap hne hending

theorem EntryLine.split (h : EntryLine e w) : ∃ text, (10 : UInt8) ∉ text ∧ w = text ++ [10] := by
  have hkey {key : List UInt8} (h : IsKey key) : (10 : UInt8) ∉ key := fun hmem =>
    h.chars 10 hmem (by decide)
  have hvalue {value : List UInt8} (h : IsValue value) : (10 : UInt8) ∉ value := fun hmem =>
    h.chars 10 hmem (by decide)
  have hblank {w : List UInt8} (h : Blank w) : (10 : UInt8) ∉ w := fun hmem => by
    obtain h | h := h 10 hmem <;> exact absurd h (by decide)
  have hended {w ending : List UInt8} (hw : (10 : UInt8) ∉ w) (h : Ending ending) :
      ∃ text, (10 : UInt8) ∉ text ∧ w ++ ending = text ++ [10] := by
    obtain rfl | rfl := h
    · exact ⟨w, hw, rfl⟩
    · exact ⟨w ++ [13], by simp [hw], by simp⟩
  cases h with
  | key hk hindent hending =>
      rw [← List.append_assoc]
      exact hended (by simp [hkey hk, hblank hindent]) hending
  | pair hk hv hindent hgap hne hending =>
      rw [← List.append_assoc, ← List.append_assoc]
      exact hended (by simp [hkey hk, hvalue hv, hblank hindent, hblank hgap]) hending

theorem skipped_blank (h : ∀ c ∈ w, isSpace c = true) : skipped w = true := by
  have hnone : w.find? (fun c => !isSpace c) = none :=
    List.find?_eq_none.mpr fun c hc => by simp [h c hc]
  rw [skipped, hnone]
  rfl

theorem skipped_comment (h : ∀ c ∈ indent, isSpace c = true) (text : List UInt8) :
    skipped (indent ++ 35 :: text) = true := by
  have hnone : indent.find? (fun c => !isSpace c) = none :=
    List.find?_eq_none.mpr fun c hc => by simp [h c hc]
  rw [skipped, List.find?_append, hnone]
  rfl

theorem confParse_space (h : ∀ c ∈ s, isSpace c = true) : confParse s = [] := by
  rw [confParse_pieces, List.filterMap_eq_nil_iff]
  intro p hp
  refine confEntry_ignored (lineStart_skipped (skipped_blank fun c hc => ?_))
  exact h c (mem_of_mem_pieces hp hc)

/-- The entries that are read from a file are those that it writes, in their order. -/
theorem confParse_layout (h : Layout es f) : confParse f = es := by
  induction h with
  | done => exact confParse_nil
  | @entry e es line f hline hlen _ ih =>
      obtain ⟨text, htext, rfl⟩ := hline.split
      rw [List.append_assoc, List.singleton_append, confParse_line htext hlen, hline.confEntry, ih]
      rfl
  | @blank es w f hw hlf _ ih =>
      have hspace : ∀ c ∈ w ++ [10], isSpace c = true := by
        intro c hc
        obtain hc | hc := List.mem_append.mp hc
        · exact hw c hc
        · obtain rfl := List.mem_singleton.mp hc
          rfl
      rw [confParse_append hlf, confParse_space hspace, ih, List.nil_append]
  | @comment es indent text f hindent hlf htext hlen _ ih =>
      have hskipped : skipped (indent ++ 35 :: text ++ [10]) = true := by
        rw [List.append_assoc]
        exact skipped_comment hindent _
      rw [confParse_line (by simp [hlf, htext]) hlen, confEntry_ignored (lineStart_skipped hskipped),
        ih]
      rfl

def pairLine : List UInt8 :=
  ascii "  " ++ (ascii "foo" ++ ((ascii "   " ++ ascii "bar baz quxx") ++ [13, 10]))

def keyLine : List UInt8 := [] ++ (ascii "leap" ++ [10])

def sampleFile : List UInt8 :=
  [] ++ 35 :: ascii " sample" ++ 10 :: (ascii " " ++ 10 :: (pairLine ++ (keyLine ++ [])))

theorem sampleFile_layout :
    Layout [⟨ascii "foo", some (ascii "bar baz quxx")⟩, ⟨ascii "leap", none⟩] sampleFile := by
  have hpair : EntryLine ⟨ascii "foo", some (ascii "bar baz quxx")⟩ pairLine :=
    .pair ⟨by decide +kernel, by decide +kernel, by decide +kernel⟩ ⟨by decide +kernel, by decide +kernel, by decide +kernel⟩
      (by rw [Blank]; decide +kernel) (by rw [Blank]; decide +kernel) (by decide +kernel) (Or.inr rfl)
  have hkey : EntryLine ⟨ascii "leap", none⟩ keyLine :=
    .key ⟨by decide +kernel, by decide +kernel, by decide +kernel⟩ (by rw [Blank]; decide +kernel) (Or.inl rfl)
  exact .comment (by decide +kernel) (by decide +kernel) (by decide +kernel) (by decide +kernel)
    (.blank (by decide +kernel) (by decide +kernel) (.entry hpair (by decide +kernel) (.entry hkey (by decide +kernel) .done)))

theorem confParse_layout_sample : confParse sampleFile =
    [⟨ascii "foo", some (ascii "bar baz quxx")⟩, ⟨ascii "leap", none⟩] :=
  confParse_layout sampleFile_layout

end Layout

end Tlsdate.ConfLines
