import Mathlib.Data.List.Flatten
import Tlsdate.ConfLines

namespace Tlsdate.ConfSkips

open Options LinePieces ConfFile ConfLines
open ProxyBio (ascii isSpace skipSpace)

/-- The pieces of 16383 bytes, or less at its end, that a line is read in. -/
abbrev linePieces (line : List UInt8) : List (List UInt8) := pieces 10 (confMaxLine - 2) line

theorem confParse_lines (f : List UInt8) : confParse f = (lines 10 f).flatMap confParse := by
  rw [confParse_pieces, pieces_lines, List.filterMap_flatMap]
  exact List.flatMap_congr fun line _ => (confParse_pieces line).symm

theorem confEntry_none (buf : List UInt8) :
    confEntry buf = none ↔ isIgnoredLine (lineStart buf) = true := by
  rw [← Option.isNone_iff_eq_none, ← Option.not_isSome, confEntry_isSome, Bool.not_not]

theorem confParse_eq_nil (line : List UInt8) :
    confParse line = [] ↔ ∀ p ∈ linePieces line, isIgnoredLine (lineStart p) = true := by
  simp only [confParse_pieces, List.filterMap_eq_nil_iff, confEntry_none]

section Comments

def others (f : List UInt8) : List (List UInt8) := (lines 10 f).filter fun line => !skipped line

/-- What is loaded from a file are the entries of these lines. -/
structure Ignores (strerror : String) (named : Option String) (f : List UInt8) (c : Settings) :
    Prop where
  entries : confParse f = (others f).flatMap confParse
  settings : loadConf strerror named (some f) c = loadEntries ((others f).flatMap confParse) c

/-- There is text in another line, and none in any further piece that a comment
or a blank line is read in. -/
structure Clean (f : List UInt8) : Prop where
  text : ∃ line ∈ others f, ∃ p ∈ linePieces line, isIgnoredLine (lineStart p) = false
  comments : ∀ line ∈ lines 10 f, skipped line = true →
    ∀ p ∈ linePieces line, isIgnoredLine (lineStart p) = true

theorem flatMap_filter_iff {α β : Type} (keep : α → Bool) (g : α → List β) (xs : List α) :
    xs.flatMap g = (xs.filter keep).flatMap g ↔ ∀ x ∈ xs, keep x = false → g x = [] := by
  have hle (xs : List α) : ((xs.filter keep).flatMap g).length ≤ (xs.flatMap g).length :=
    (List.filter_sublist.flatMap g).length_le
  induction xs with
  | nil => simp
  | cons x xs ih =>
      rw [List.flatMap_cons, List.forall_mem_cons]
      refine Iff.trans ?_ (and_congr_right fun _ => ih)
      cases hx : keep x with
      | true =>
          rw [List.filter_cons_of_pos hx, List.flatMap_cons, List.append_cancel_left_eq]
          simp
      | false =>
          rw [List.filter_cons_of_neg (by simp [hx])]
          constructor
          · intro h
            have hlen := congrArg List.length h
            rw [List.length_append] at hlen
            have hnil : g x = [] := List.eq_nil_of_length_eq_zero (by have := hle xs; omega)
            rw [hnil, List.nil_append] at h
            exact ⟨fun _ => hnil, h⟩
          · rintro ⟨hnil, h⟩
            rw [hnil rfl, List.nil_append, h]

theorem loadEntries_nil (c : Settings) : loadEntries [] c = .ok c := by
  rw [loadEntries]

/-- Comments and blank lines contribute nothing to what is loaded in the clean
files exactly. -/
theorem loadConf_ignores (strerror : String) (named : Option String) (f : List UInt8)
    (c : Settings) : Ignores strerror named f c ↔ Clean f := by
  have hentries : confParse f = (others f).flatMap confParse ↔ ∀ line ∈ lines 10 f,
      skipped line = true → ∀ p ∈ linePieces line, isIgnoredLine (lineStart p) = true := by
    rw [confParse_lines, others, flatMap_filter_iff]
    simp only [Bool.not_eq_false', confParse_eq_nil]
  have htext : (others f).flatMap confParse ≠ [] ↔
      ∃ line ∈ others f, ∃ p ∈ linePieces line, isIgnoredLine (lineStart p) = false := by
    simp only [ne_eq, List.flatMap_eq_nil_iff, confParse_eq_nil, not_forall, exists_prop,
      Bool.not_eq_true]
  constructor
  · rintro ⟨he, hs⟩
    refine ⟨htext.mp fun hnil => ?_, hentries.mp he⟩
    rw [loadConf, loadParsed, he, hnil, if_pos rfl, loadEntries_nil] at hs
    cases hs
  · rintro ⟨ht, hc⟩
    have he := hentries.mpr hc
    refine ⟨he, ?_⟩
    rw [loadConf, loadParsed, he, if_neg (htext.mpr ht)]

def longComment : List UInt8 := (35 :: List.replicate 16382 120) ++ (ascii "dry-run" ++ 10 :: [])

theorem lf_notMem_comment (k : Nat) : (10 : UInt8) ∉ 35 :: List.replicate k 120 := by
  simp [List.mem_replicate]

theorem skipped_hash (text : List UInt8) : skipped (35 :: text) = true :=
  skipped_comment (List.forall_mem_nil _) text

theorem longComment_entries :
    confParse longComment = [⟨ascii "dry-run", none⟩] ∧ others longComment = [] := by
  have hfirst := lf_notMem_comment 16382
  have hlen : (35 :: List.replicate 16382 (120 : UInt8)).length = 16382 + 1 := by
    rw [List.length_cons, List.length_replicate]
  have hcut : isIgnoredLine (lineStart (35 :: List.replicate 16382 120)) = true :=
    lineStart_skipped (skipped_hash _)
  have hentry : confEntry (ascii "dry-run" ++ [10]) = some ⟨ascii "dry-run", none⟩ := by
    decide +kernel
  constructor
  · rw [longComment, confParse_pieces]
    change (pieces 10 16382 _).filterMap confEntry = _
    rw [pieces_full hfirst hlen, pieces_line (by decide) (by decide), pieces_nil,
      List.filterMap_cons, confEntry_ignored hcut, List.filterMap_cons, hentry]
    rfl
  · have hline : (10 : UInt8) ∉ (35 :: List.replicate 16382 120) ++ ascii "dry-run" := fun h =>
      (List.mem_append.mp h).elim hfirst (by decide)
    have hskipped : ¬ (!skipped ((35 :: List.replicate 16382 120) ++ ascii "dry-run" ++ [10])) := by
      rw [List.cons_append, List.cons_append, skipped_hash]
      decide
    rw [others, longComment, ← List.append_assoc, lines_line hline, lines, List.filter_eq_nil_iff]
    intro line hmem
    rwa [List.mem_singleton.mp hmem]

/-- The end of a long comment is an option, and a comment alone is an error. -/
theorem comments_loaded :
    (∀ strerror named c,
      loadConf strerror named (some longComment) c = .ok { c with opts.dryRun := true } ∧
        ¬ Ignores strerror named longComment c) ∧
    ∀ strerror named c,
      loadConf strerror named (some (ascii "#\n")) c =
          .error ("can't parse config file: " ++ strerror) ∧
        ¬ Ignores strerror named (ascii "#\n") c := by
  obtain ⟨hentries, hothers⟩ := longComment_entries
  have hnone : confParse (ascii "#\n") = [] ∧ others (ascii "#\n") = [] := by decide +kernel
  have hkey : ascii "dry-run" ≠ ascii "source" := by decide
  refine ⟨fun strerror named c => ⟨?_, fun h => ?_⟩, fun strerror named c => ⟨?_, fun h => ?_⟩⟩
  · rw [loadConf, loadParsed, hentries, if_neg (List.cons_ne_nil _ _), loadEntries, if_neg hkey,
      loadEntries_nil]
    rfl
  · have he := h.entries
    rw [hentries, hothers] at he
    cases he
  · rw [loadConf, loadParsed, hnone.1, if_pos rfl]
  · have hs := h.settings
    rw [loadConf, loadParsed, hnone.1, hnone.2, if_pos rfl, List.flatMap_nil, loadEntries_nil] at hs
    cases hs

end Comments

section Blanks

inductive Switch
  | shouldSyncHwclock
  | shouldLoadDisk
  | shouldSaveDisk
  | shouldNetlink
  | dryRun
  | verbose
  | leap
  deriving DecidableEq, Repr

def Switch.key : Switch → List UInt8
  | .shouldSyncHwclock => ascii "should-sync-hwclock"
  | .shouldLoadDisk => ascii "should-load-disk"
  | .shouldSaveDisk => ascii "should-save-disk"
  | .shouldNetlink => ascii "should-netlink"
  | .dryRun => ascii "dry-run"
  | .verbose => ascii "verbose"
  | .leap => ascii "leap"

def Switch.isOn (c : Settings) : Switch → Bool
  | .shouldSyncHwclock => c.opts.shouldSyncHwclock
  | .shouldLoadDisk => c.opts.shouldLoadDisk
  | .shouldSaveDisk => c.opts.shouldSaveDisk
  | .shouldNetlink => c.opts.shouldNetlink
  | .dryRun => c.opts.dryRun
  | .verbose => c.verbose
  | .leap => c.opts.leap

theorem loadOption_switch (b : Switch) (value : Option (List UInt8)) (c : Settings) :
    b.isOn (loadOption ⟨b.key, value⟩ c) = switchedOn value := by
  cases b <;> rfl

def Ended (ending : List UInt8) : Prop := ending = [] ∨ Ending ending

def Bare (key w : List UInt8) : Prop :=
  key.length ≤ confMaxLine - 1 ∧ (w.length ≤ 1 ∨ confMaxLine - 2 ≤ key.length)

variable {key w ending : List UInt8}

theorem Ended.chars (h : Ended ending) : ∀ c ∈ ending, c = 10 ∨ c = 13 := by
  obtain rfl | rfl | rfl := h <;> simp

theorem Ended.lf (h : Ended ending) {text : List UInt8} (htext : (10 : UInt8) ∉ text) :
    (10 : UInt8) ∉ (text ++ ending).dropLast := by
  obtain rfl | rfl | rfl := h
  · rw [List.append_nil]
    exact fun hmem => htext ((List.dropLast_sublist text).subset hmem)
  · rwa [List.dropLast_concat]
  · have hsplit : text ++ [13, 10] = (text ++ [13]) ++ [10] := by simp
    rw [hsplit, List.dropLast_concat]
    simp [htext]

theorem isKey_take (h : IsKey key) (n : Nat) : IsKey (key.take (n + 1)) := by
  obtain ⟨c, key', rfl⟩ := List.exists_cons_of_ne_nil h.ne
  rw [List.take_succ_cons]
  refine ⟨List.cons_ne_nil _ _, fun x hx => ?_, h.head⟩
  rw [← List.take_succ_cons] at hx
  exact h.chars x (List.mem_of_mem_take hx)

theorem confParse_take {line : List UInt8} (hlf : (10 : UInt8) ∉ line.dropLast) (hne : line ≠ []) :
    confParse line = (confEntry (line.take (confMaxLine - 1))).toList ++
      confParse (line.drop (confMaxLine - 1)) :=
  confParse_cons hne (piece_take hlf _)

theorem blanks_lf (hkey : IsKey key) (hw : Blank w) (hending : Ended ending) :
    (10 : UInt8) ∉ (key ++ (w ++ ending)).dropLast := by
  rw [← List.append_assoc]
  refine hending.lf fun hmem => ?_
  obtain hmem | hmem := List.mem_append.mp hmem
  · exact hkey.chars 10 hmem (by decide)
  · obtain h | h := hw 10 hmem <;> exact absurd h (by decide)

theorem strtok_blanks {gap : List UInt8} (hgap : Blank gap) :
    (strtok [] gap.tail).map (fun p => skipSpace p.1) =
      if gap.length ≤ 1 then none else some [] := by
  match gap, hgap with
  | [], _ => rfl
  | [_], _ => rfl
  | _ :: x :: gap, hgap =>
      have hspace : ∀ y ∈ x :: gap, isSpace y = true := fun y hy =>
        hgap.isSpace y (List.mem_cons_of_mem _ hy)
      have hskip := skipSpace_append hspace (s := []) (by simp)
      rw [List.append_nil] at hskip
      rw [List.tail_cons, strtok_rest (List.cons_ne_nil _ _), Option.map_some, hskip, if_neg]
      simp

theorem confParse_blanks (hkey : IsKey key) (hw : Blank w) (hending : Ended ending)
    (hlen : key.length ≤ confMaxLine - 1) : confParse (key ++ (w ++ ending)) =
      [⟨key, if (w.take (confMaxLine - 1 - key.length)).length ≤ 1 then none else some []⟩] := by
  have hrest : ∀ c ∈ (key ++ (w ++ ending)).drop (confMaxLine - 1), isSpace c = true := by
    intro c hc
    rw [List.drop_append, List.drop_of_length_le hlen, List.nil_append] at hc
    obtain hc | hc := List.mem_append.mp (List.mem_of_mem_drop hc)
    · exact hw.isSpace c hc
    · obtain rfl | rfl := hending.chars c hc <;> rfl
  have htake : (key ++ (w ++ ending)).take (confMaxLine - 1) =
      [] ++ (key ++ (w.take (confMaxLine - 1 - key.length) ++
        ending.take (confMaxLine - 1 - key.length - w.length))) := by
    rw [List.take_append, List.take_of_length_le hlen, List.take_append, List.nil_append]
  generalize confMaxLine - 1 - key.length = m at *
  have hblank : Blank (w.take m) := fun c hc => hw c (List.mem_of_mem_take hc)
  have hchars : ∀ c ∈ w.take m, c ∉ ([13, 10, 0] : List UInt8) := by
    intro c hc
    obtain rfl | rfl := hblank c hc <;> decide
  have hend : ∀ c ∈ (ending.take (m - w.length)).head?, c = 10 ∨ c = 13 := fun c hc =>
    hending.chars c (List.mem_of_mem_take (List.mem_of_mem_head? hc))
  rw [confParse_take (blanks_lf hkey hw hending) (by simp [hkey.ne]), htake, confParse_space hrest,
    confEntry_key hkey (by simp [Blank]) hchars (fun c hc => hblank c (List.mem_of_mem_head? hc)) hend,
    strtok_blanks hblank]
  rfl

theorem bare_iff (hlen : key.length ≤ confMaxLine - 1) :
    (w.take (confMaxLine - 1 - key.length)).length ≤ 1 ↔ Bare key w := by
  have hmax : confMaxLine = 16384 := rfl
  rw [Bare, List.length_take]
  omega

theorem confParse_cut (hkey : IsKey key) (hw : Blank w) (hending : Ended ending)
    (hlen : confMaxLine - 1 < key.length) :
    ∃ es, confParse (key ++ (w ++ ending)) = ⟨key.take (confMaxLine - 1), none⟩ :: es := by
  have htake : (key ++ (w ++ ending)).take (confMaxLine - 1) =
      [] ++ (key.take (confMaxLine - 1) ++ ([] ++ [])) := by
    rw [List.take_append_of_le_length hlen.le]
    simp
  have hentry : confEntry ([] ++ (key.take (confMaxLine - 1) ++ ([] ++ []))) =
      some ⟨key.take (confMaxLine - 1), none⟩ :=
    confEntry_key (isKey_take hkey 16382) (by simp [Blank]) (by simp) (by simp) (by simp)
  rw [confParse_take (blanks_lf hkey hw hending) (by simp [hkey.ne]), htake, hentry]
  exact ⟨_, rfl⟩

theorem key_short (b : Switch) : b.key.length ≤ confMaxLine - 1 := by
  cases b <;> decide

theorem key_ne_source (b : Switch) : b.key ≠ ascii "source" := by
  cases b <;> decide

/-- A key with blanks after it is an option without a value, and switched on if
it is boolean, exactly if it is bare. -/
theorem confParse_noValue (hkey : IsKey key) (hw : Blank w) (hending : Ended ending) :
    (confParse (key ++ (w ++ ending)) = [⟨key, none⟩] ↔ Bare key w) ∧
      ∀ b : Switch, key = b.key → ∀ strerror named c,
        (∃ c', loadConf strerror named (some (key ++ (w ++ ending))) c = .ok c' ∧ b.isOn c' = true) ↔
          Bare key w := by
  by_cases hlen : key.length ≤ confMaxLine - 1
  · rw [confParse_blanks hkey hw hending hlen, ← bare_iff hlen]
    refine ⟨?_, ?_⟩
    · split_ifs with hbare
      · exact iff_of_true rfl hbare
      · exact iff_of_false (by simp) hbare
    · rintro b rfl strerror named c
      rw [loadConf, loadParsed, confParse_blanks hkey hw hending hlen,
        if_neg (List.cons_ne_nil _ _), loadEntries, if_neg (key_ne_source b), loadEntries_nil]
      split_ifs with hbare
      · exact iff_of_true ⟨_, rfl, loadOption_switch b none c⟩ hbare
      · refine iff_of_false ?_ hbare
        rintro ⟨c', hload, hon⟩
        cases hload
        rw [loadOption_switch] at hon
        exact absurd hon (by decide)
  · have hbare : ¬ Bare key w := fun h => hlen h.1
    refine ⟨iff_of_false (fun h => ?_) hbare, ?_⟩
    · obtain ⟨es, hcut⟩ := confParse_cut hkey hw hending (Nat.not_le.mp hlen)
      obtain ⟨hentry, -⟩ := List.cons.inj (hcut.symm.trans h)
      have hlength : (key.take (confMaxLine - 1)).length = key.length :=
        congrArg (fun e => e.key.length) hentry
      rw [List.length_take] at hlength
      omega
    · rintro b rfl
      exact absurd (key_short b) hlen

theorem dryRun_isKey : IsKey (ascii "dry-run") :=
  ⟨by decide, by decide +kernel, by decide +kernel⟩

theorem dryRun_blank :
    confParse (ascii "dry-run" ++ ([32] ++ [10])) = [⟨ascii "dry-run", none⟩] :=
  (confParse_noValue dryRun_isKey (by simp [Blank]) (Or.inr (Or.inl rfl))).1.mpr
    ⟨by decide, by decide⟩

/-- With two blanks the value is an empty string, and the option is off. -/
theorem dryRun_off : confParse (ascii "dry-run  \n") = [⟨ascii "dry-run", some []⟩] ∧
    ∀ strerror named c, loadConf strerror named (some (ascii "dry-run  \n")) c =
      .ok { c with opts.dryRun := false } := by
  have hparse : confParse (ascii "dry-run  \n") = [⟨ascii "dry-run", some []⟩] := by
    decide +kernel
  have hkey : ascii "dry-run" ≠ ascii "source" := by decide
  refine ⟨hparse, fun strerror named c => ?_⟩
  rw [loadConf, loadParsed, hparse, if_neg (List.cons_ne_nil _ _), loadEntries, if_neg hkey,
    loadEntries_nil]
  rfl

end Blanks

end Tlsdate.ConfSkips
