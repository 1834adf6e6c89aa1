import Tlsdate.ProxyBio
import Mathlib.Data.List.TakeWhile

namespace Tlsdate.Wildcard

open ProxyBio (ascii)

abbrev Bytes := List UInt8

def dot : UInt8 := 46

def star : UInt8 := 42

def minLabelCount : Nat := 3

/-- `strtok_r` with the delimiter ".": the token that it returns, as the caller
finds it terminated, and the string at the new save pointer. -/
def strtok (s : Bytes) : Option (Bytes × Bytes) :=
  let s := s.dropWhile (· == dot)
  if s = [] then none else some (s.takeWhile (· != dot), (s.dropWhile (· != dot)).drop 1)

/-- The loop of `dns_label_count` from the save pointer on; `fuel` bounds the
tokens, of which there are no more than bytes. -/
def countLabels : Nat → Bytes → Nat
  | 0, _ => 0
  | fuel + 1, saveptr =>
      1 + match strtok saveptr with
        | none => 0
        | some (_, rest) => countLabels fuel rest

/-- `dns_label_count` assigns the first token to the save pointer, and so finds
that token again. -/
def dnsLabelCount (label : Bytes) : Nat :=
  match strtok label with
  | none => 0
  | some (token, _) => (if token.head? = some dot then 0 else 1) + countLabels (label.length + 1) token

/-- `strsep (&s, ".")`: the label, and the string that is left, which is NULL
after the last one. -/
def strsep (s : Bytes) : Bytes × Option Bytes :=
  (s.takeWhile (· != dot), match s.dropWhile (· != dot) with
    | [] => none
    | _ :: rest => some rest)

def tolower (c : UInt8) : UInt8 := if 65 ≤ c ∧ c ≤ 90 then c + 32 else c

def strcaseeq (s t : Bytes) : Bool := s.map tolower == t.map tolower

/-- The loop over the labels: `ok` and `wildcard_encountered` as it leaves them.
A string pointer that has become NULL ends it. -/
def matchLabels (labelCount : Nat) : Nat → Option Bytes → Option Bytes → Bool → Bool × Bool
  | fuel + 1, some certWildCard, some hostname, wildcardEncountered =>
      let wildcardLabel := strsep certWildCard
      let expectedLabel := strsep hostname
      if expectedLabel.2.isSome && wildcardLabel.2.isSome then
        if wildcardLabel.1.head? = some star ∧ wildcardEncountered = false then
          if labelCount ≤ minLabelCount then
            matchLabels labelCount fuel wildcardLabel.2 expectedLabel.2 true
          else (false, true)
        else
          (strcaseeq expectedLabel.1 wildcardLabel.1 && decide (labelCount ≥ minLabelCount),
            wildcardEncountered)
      else (false, wildcardEncountered)
  | _, _, _, wildcardEncountered => (false, wildcardEncountered)

def checkWildcardMatch (origHostname origCertWildCard : Bytes) : Nat :=
  let labelCount := dnsLabelCount origCertWildCard
  let done :=
    if dot ∈ origCertWildCard ∧ dot ∈ origHostname ∧ labelCount ≤ minLabelCount ∧
        origCertWildCard.head? = some star then
      matchLabels labelCount (origCertWildCard.length + 1) (some origCertWildCard)
        (some origHostname) false
    else (false, false)
  if done.2 && done.1 && decide (labelCount ≥ minLabelCount) then 1 else 0

def labels (s : Bytes) : List Bytes := s.splitOn dot

def dotFree (s : Bytes) : Prop := dot ∉ s

/-- The match that is meant: the certificate names "*." and a suffix of two
labels, and the host is a label before the same suffix, up to case. -/
def Matches (h p : Bytes) : Prop :=
  ∃ a b l t, a ≠ [] ∧ dotFree a ∧ b ≠ [] ∧ dotFree b ∧ l ≠ [] ∧ dotFree l ∧
    p = [star, dot] ++ (a ++ [dot] ++ b) ∧ h = l ++ [dot] ++ t ∧
    strcaseeq t (a ++ [dot] ++ b) = true

/-- The second labels agree behind a first label that begins with a wildcard;
there is a third label on both sides. -/
def Accepted (h p : Bytes) (w a b l c d : Bytes) (bs ds : List Bytes) : Prop :=
  labels p = w :: a :: b :: bs ∧ labels h = l :: c :: d :: ds ∧ w.head? = some star ∧
    strcaseeq c a = true

theorem labels_strsep (s : Bytes) :
    labels s = (strsep s).1 :: ((strsep s).2.map labels).getD [] := by
  induction s with
  | nil => rfl
  | cons c s ih =>
      by_cases hc : c = dot
      · subst hc
        simp [labels, strsep, List.splitOn_cons_eq_if_modifyHead]
      · have hlabels : labels (c :: s) = (labels s).modifyHead (c :: ·) := by
          simp [labels, List.splitOn_cons_eq_if_modifyHead, hc]
        have hsep : strsep (c :: s) = (c :: (strsep s).1, (strsep s).2) := by
          simp [strsep, hc]
        rw [hlabels, ih, hsep]
        rfl

theorem labels_ne_nil (s : Bytes) : labels s ≠ [] := List.splitOn_ne_nil dot s

theorem strsep_some {s l r : Bytes} (h : strsep s = (l, some r)) : labels s = l :: labels r := by
  rw [labels_strsep, h]
  rfl

theorem strtok_dotFree {c : UInt8} {t : Bytes} (hc : c ≠ dot) (ht : dotFree t) :
    strtok (c :: t) = some (c :: t, []) := by
  have hne : ∀ x ∈ t, (x != dot) = true := fun x hx => by
    rw [bne_iff_ne]
    rintro rfl
    exact ht hx
  have htake : t.takeWhile (· != dot) = t := List.takeWhile_eq_self_iff.mpr hne
  have hdrop : t.dropWhile (· != dot) = [] := List.dropWhile_eq_nil_iff.mpr hne
  simp [strtok, hc, htake, hdrop]

theorem dnsLabelCount_label {s : Bytes} {c : UInt8} (hmem : c ∈ s) (hc : c ≠ dot) :
    dnsLabelCount s = 3 := by
  have hstop : s.dropWhile (· == dot) ≠ [] := fun h => hc (by
    simpa using List.dropWhile_eq_nil_iff.mp h c hmem)
  obtain ⟨d, t, hdrop⟩ := List.exists_cons_of_ne_nil hstop
  have hd : d ≠ dot := by
    have hhead := List.head?_dropWhile_not (· == dot) s
    simpa [hdrop] using hhead
  have htoken : strtok s = some (d :: t.takeWhile (· != dot), (t.dropWhile (· != dot)).drop 1) := by
    simp [strtok, hdrop, hd]
  have hfree : dotFree (t.takeWhile (· != dot)) := fun hm => by
    have := List.mem_takeWhile_imp hm
    simp at this
  have hagain := strtok_dotFree hd hfree
  have hend : strtok [] = none := rfl
  obtain ⟨n, hn⟩ := Nat.exists_eq_succ_of_ne_zero (List.length_pos_of_mem hmem).ne'
  simp [dnsLabelCount, htoken, hn, countLabels, hagain, hend, hd]

theorem dnsLabelCount_dots {s : Bytes} (h : ∀ c ∈ s, c = dot) : dnsLabelCount s = 0 := by
  have hdrop : s.dropWhile (· == dot) = [] := by
    rw [List.dropWhile_eq_nil_iff]
    exact fun c hc => beq_iff_eq.mpr (h c hc)
  simp [dnsLabelCount, strtok, hdrop]

theorem dnsLabelCount_eq {s : Bytes} (h : s.head? = some star) : dnsLabelCount s = 3 :=
  dnsLabelCount_label (List.mem_of_mem_head? h) (by decide)

theorem strsep_isSome (s : Bytes) : (strsep s).2.isSome = true ↔ dot ∈ s := by
  induction s with
  | nil => simp [strsep]
  | cons c s ih =>
      by_cases hc : c = dot
      · simp [strsep, hc]
      · have hsep : (strsep (c :: s)).2 = (strsep s).2 := by simp [strsep, hc]
        rw [hsep, ih, List.mem_cons, eq_comm]
        simp [hc]

theorem strsep_head {s : Bytes} {c : UInt8} (hc : c ≠ dot) :
    (strsep s).1.head? = some c ↔ s.head? = some c := by
  cases s with
  | nil => rfl
  | cons d s =>
      by_cases hd : d = dot
      · subst hd
        simp [strsep, hc.symm]
      · simp [strsep, hd]

theorem matchLabels_some {fuel : Nat} {p h w l p' h' : Bytes} {enc : Bool}
    (hp : strsep p = (w, some p')) (hh : strsep h = (l, some h')) :
    matchLabels 3 (fuel + 1) (some p) (some h) enc =
      if w.head? = some star ∧ enc = false then matchLabels 3 fuel (some p') (some h') true
      else (strcaseeq l w, enc) := by
  simp [matchLabels, hp, hh, minLabelCount]

theorem matchLabels_none {fuel : Nat} {p h : Bytes} {enc : Bool} (hd : ¬ (dot ∈ p ∧ dot ∈ h)) :
    matchLabels 3 (fuel + 1) (some p) (some h) enc = (false, enc) := by
  have hnone : ((strsep h).2.isSome && (strsep p).2.isSome) = false := by
    by_contra hs
    rw [Bool.not_eq_false, Bool.and_eq_true, strsep_isSome, strsep_isSome] at hs
    exact hd hs.symm
  simp [matchLabels, hnone]

theorem strsep_dot {s : Bytes} (h : dot ∈ s) : ∃ l r, strsep s = (l, some r) := by
  obtain ⟨r, hr⟩ := Option.isSome_iff_exists.mp ((strsep_isSome s).mpr h)
  exact ⟨(strsep s).1, r, by rw [← hr]⟩

theorem labels_length {s l m : Bytes} {ls : List Bytes} (h : labels s = l :: m :: ls) : dot ∈ s := by
  by_contra hd
  rw [labels, List.splitOn_eq_singleton hd] at h
  cases h

theorem Accepted.first {h p w a b l c d : Bytes} {bs ds : List Bytes}
    (hacc : Accepted h p w a b l c d bs ds) : p.head? = some star ∧ dot ∈ p ∧ dot ∈ h := by
  obtain ⟨hp, hh, hw, -⟩ := hacc
  refine ⟨?_, labels_length hp, labels_length hh⟩
  rw [labels_strsep] at hp
  rw [← strsep_head (show star ≠ dot by decide), (List.cons.inj hp).1]
  exact hw

theorem checkWildcardMatch_eq {h p : Bytes} (hstar : p.head? = some star) (hp : dot ∈ p)
    (hh : dot ∈ h) : checkWildcardMatch h p =
      if ((matchLabels 3 (p.length + 1) (some p) (some h) false).2 &&
        (matchLabels 3 (p.length + 1) (some p) (some h) false).1) = true then 1 else 0 := by
  simp [checkWildcardMatch, dnsLabelCount_eq hstar, hstar, hp, hh, minLabelCount]

theorem checkWildcardMatch_zero {h p : Bytes}
    (hno : ¬ (p.head? = some star ∧ dot ∈ p ∧ dot ∈ h)) : checkWildcardMatch h p = 0 := by
  have hno' : ¬ (dot ∈ p ∧ dot ∈ h ∧ dnsLabelCount p ≤ minLabelCount ∧ p.head? = some star) :=
    fun hall => hno ⟨hall.2.2.2, hall.1, hall.2.1⟩
  simp only [checkWildcardMatch, if_neg hno']
  rfl

theorem checkWildcardMatch_iff {h p : Bytes} :
    checkWildcardMatch h p = 1 ↔ ∃ w a b l c d bs ds, Accepted h p w a b l c d bs ds := by
  by_cases hfirst : p.head? = some star ∧ dot ∈ p ∧ dot ∈ h
  · obtain ⟨hstar, hdp, hdh⟩ := hfirst
    obtain ⟨w, p', hp⟩ := strsep_dot hdp
    obtain ⟨l, h', hh⟩ := strsep_dot hdh
    obtain ⟨n, hn⟩ : ∃ n, p.length = n + 1 := by
      cases p with
      | nil => cases hdp
      | cons c p => exact ⟨p.length, rfl⟩
    have hw : w.head? = some star := by
      rw [← strsep_head (show star ≠ dot by decide), hp] at hstar
      exact hstar
    have hloop : matchLabels 3 (p.length + 1) (some p) (some h) false =
        matchLabels 3 (n + 1) (some p') (some h') true := by
      rw [matchLabels_some hp hh, if_pos ⟨hw, rfl⟩, hn]
    rw [checkWildcardMatch_eq hstar hdp hdh, hloop]
    by_cases hsecond : dot ∈ p' ∧ dot ∈ h'
    · obtain ⟨a, p'', hp'⟩ := strsep_dot hsecond.1
      obtain ⟨c, h'', hh'⟩ := strsep_dot hsecond.2
      have hlp : labels p = w :: a :: labels p'' := by rw [strsep_some hp, strsep_some hp']
      have hlh : labels h = l :: c :: labels h'' := by rw [strsep_some hh, strsep_some hh']
      obtain ⟨b, bs, hb⟩ := List.exists_cons_of_ne_nil (labels_ne_nil p'')
      obtain ⟨d, ds, hd⟩ := List.exists_cons_of_ne_nil (labels_ne_nil h'')
      have hlast : matchLabels 3 (n + 1) (some p') (some h') true = (strcaseeq c a, true) := by
        rw [matchLabels_some hp' hh', if_neg fun hc => by cases hc.2]
      have hone : (if (true && strcaseeq c a) = true then 1 else 0) = 1 ↔ strcaseeq c a = true := by
        cases strcaseeq c a <;> simp
      rw [hlast, hone]
      constructor
      · intro heq
        exact ⟨w, a, b, l, c, d, bs, ds, by rw [hlp, hb], by rw [hlh, hd], hw, heq⟩
      · rintro ⟨w', a', b', l', c', d', bs', ds', hp₁, hh₁, -, heq⟩
        rw [hlp] at hp₁
        rw [hlh] at hh₁
        rw [(List.cons.inj (List.cons.inj hp₁).2).1, (List.cons.inj (List.cons.inj hh₁).2).1]
        exact heq
    · rw [matchLabels_none hsecond]
      refine iff_of_false (by simp) ?_
      rintro ⟨w', a', b', l', c', d', bs', ds', hp₁, hh₁, -, -⟩
      rw [strsep_some hp] at hp₁
      rw [strsep_some hh] at hh₁
      exact hsecond ⟨labels_length (List.cons.inj hp₁).2, labels_length (List.cons.inj hh₁).2⟩
  · rw [checkWildcardMatch_zero hfirst]
    refine iff_of_false (by simp) ?_
    rintro ⟨w, a, b, l, c, d, bs, ds, hacc⟩
    exact hfirst hacc.first

theorem tolower_dot (c : UInt8) : tolower c = dot ↔ c = dot := by
  rw [tolower]
  split
  next h =>
    have hl : 65 ≤ c.toNat := UInt8.le_iff_toNat_le.mp h.1
    have hu : c.toNat ≤ 90 := UInt8.le_iff_toNat_le.mp h.2
    rw [← UInt8.toNat_inj, ← UInt8.toNat_inj, UInt8.toNat_add]
    simp only [dot, UInt8.reduceToNat]
    omega
  next => exact Iff.rfl

def fold (s : Bytes) : Bytes := s.map tolower

theorem strcaseeq_iff {s t : Bytes} : strcaseeq s t = true ↔ fold s = fold t := beq_iff_eq

theorem labels_cons_dot (s : Bytes) : labels (dot :: s) = [] :: labels s := by
  simp [labels, List.splitOn_cons_eq_if_modifyHead]

theorem labels_cons {c : UInt8} (hc : c ≠ dot) (s : Bytes) :
    labels (c :: s) = (labels s).modifyHead (c :: ·) := by
  simp [labels, List.splitOn_cons_eq_if_modifyHead, hc]

theorem labels_fold (s : Bytes) : labels (fold s) = (labels s).map fold := by
  induction s with
  | nil => rfl
  | cons c s ih =>
      have hcons : fold (c :: s) = tolower c :: fold s := rfl
      rw [hcons]
      by_cases hc : c = dot
      · rw [(tolower_dot c).mpr hc, hc, labels_cons_dot, labels_cons_dot, ih]
        rfl
      · rw [labels_cons (mt (tolower_dot c).mp hc), labels_cons hc, ih]
        cases labels s <;> rfl

theorem labels_dotFree (s : Bytes) : ∀ l ∈ labels s, dotFree l := by
  induction s with
  | nil => simp [labels, dotFree]
  | cons c s ih =>
      by_cases hc : c = dot
      · rw [hc, labels_cons_dot]
        exact List.forall_mem_cons.mpr ⟨by simp [dotFree], ih⟩
      · rw [labels_cons hc]
        cases hs : labels s with
        | nil => exact absurd hs (labels_ne_nil s)
        | cons l ls =>
            rw [hs, List.forall_mem_cons] at ih
            refine List.forall_mem_cons.mpr ⟨?_, ih.2⟩
            simpa [dotFree, Ne.symm hc] using ih.1

theorem labels_append {l : Bytes} (hl : dotFree l) (t : Bytes) :
    labels (l ++ [dot] ++ t) = l :: labels t := by
  rw [List.append_assoc]
  exact List.splitOn_append_cons_self_of_not_mem hl t

theorem labels_single {l : Bytes} (hl : dotFree l) : labels l = [l] := List.splitOn_eq_singleton hl

theorem fold_append (s t : Bytes) : fold (s ++ [dot] ++ t) = fold s ++ [dot] ++ fold t := by
  simp only [fold, List.map_append]
  rfl

theorem fold_dotFree {s : Bytes} : dotFree (fold s) ↔ dotFree s := by
  simp [dotFree, fold, tolower_dot]

theorem matches_iff {h p : Bytes} : Matches h p ↔ ∃ a b l c d, labels p = [[star], a, b] ∧
    labels h = [l, c, d] ∧ a ≠ [] ∧ b ≠ [] ∧ l ≠ [] ∧ strcaseeq c a = true ∧ strcaseeq d b = true := by
  have hstar : dotFree [star] := by simp [dotFree, star, dot]
  constructor
  · rintro ⟨a, b, l, t, ha, hfa, hb, hfb, hl, hfl, rfl, rfl, ht⟩
    rw [strcaseeq_iff, fold_append] at ht
    have hlabels : (labels t).map fold = [fold a, fold b] := by
      rw [← labels_fold, ht, labels_append (fold_dotFree.mpr hfa), labels_single (fold_dotFree.mpr hfb)]
    obtain ⟨c, rest, ht', hc, hrest⟩ := List.map_eq_cons_iff.mp hlabels
    obtain ⟨d, last, hrest', hd, hlast⟩ := List.map_eq_cons_iff.mp hrest
    have hnil : last = [] := List.map_eq_nil_iff.mp hlast
    refine ⟨a, b, l, c, d, ?_, ?_, ha, hb, hl, strcaseeq_iff.mpr hc, strcaseeq_iff.mpr hd⟩
    · have hfirst := labels_append hstar (a ++ [dot] ++ b)
      rw [labels_append hfa, labels_single hfb] at hfirst
      exact hfirst
    · rw [labels_append hfl, ht', hrest', hnil]
  · rintro ⟨a, b, l, c, d, hp, hh, ha, hb, hl, hc, hd⟩
    have hfree := labels_dotFree p
    have hfree' := labels_dotFree h
    have hjoin : [dot].intercalate (labels p) = p := List.intercalate_splitOn dot
    have hjoin' : [dot].intercalate (labels h) = h := List.intercalate_splitOn dot
    rw [hp] at hfree hjoin
    rw [hh] at hfree' hjoin'
    refine ⟨a, b, l, c ++ [dot] ++ d, ha, hfree a (by simp), hb, hfree b (by simp), hl,
      hfree' l (by simp), ?_, ?_, ?_⟩
    · simpa [List.intercalate_cons_cons] using hjoin.symm
    · simpa [List.intercalate_cons_cons] using hjoin'.symm
    · rw [strcaseeq_iff, fold_append, fold_append, strcaseeq_iff.mp hc, strcaseeq_iff.mp hd]

/-- Names whose second labels agree behind a wildcard, but which differ further
on, or are no host and wildcard name of three labels each. -/
def Confusable (h p : Bytes) : Prop :=
  ∃ w a b l c d bs ds, Accepted h p w a b l c d bs ds ∧
    ¬ (w = [star] ∧ a ≠ [] ∧ b ≠ [] ∧ bs = [] ∧ l ≠ [] ∧ ds = [] ∧ strcaseeq d b = true)

theorem Accepted.matches {h p w a b l c d : Bytes} {bs ds : List Bytes}
    (hacc : Accepted h p w a b l c d bs ds) (hw : w = [star]) (ha : a ≠ []) (hb : b ≠ [])
    (hbs : bs = []) (hl : l ≠ []) (hds : ds = []) (hd : strcaseeq d b = true) : Matches h p := by
  obtain ⟨hp, hh, -, hc⟩ := hacc
  exact matches_iff.mpr ⟨a, b, l, c, d, by rw [hp, hw, hbs], by rw [hh, hds], ha, hb, hl, hc, hd⟩

/-- The check is right exactly about the names that cannot be confused: it looks
at nothing after the second label. -/
theorem checkWildcardMatch_right_iff (h p : Bytes) :
    (checkWildcardMatch h p = 1 ∨ checkWildcardMatch h p = 0) ∧
      ((checkWildcardMatch h p = 1 ↔ Matches h p) ↔ ¬ Confusable h p) := by
  refine ⟨?_, ?_⟩
  · have hbit : ∀ b : Bool, (if b = true then 1 else 0) = 1 ∨ (if b = true then 1 else 0) = 0 := by
      decide
    exact hbit _
  · constructor
    · rintro hright ⟨w, a, b, l, c, d, bs, ds, hacc, hbad⟩
      have hmatch := hright.mp (checkWildcardMatch_iff.mpr ⟨w, a, b, l, c, d, bs, ds, hacc⟩)
      obtain ⟨a', b', l', c', d', hp, hh, ha, hb, hl, -, hd⟩ := matches_iff.mp hmatch
      obtain ⟨hp', hh', -, -⟩ := hacc
      rw [hp] at hp'
      rw [hh] at hh'
      cases hp'
      cases hh'
      exact hbad ⟨rfl, ha, hb, rfl, hl, rfl, hd⟩
    · intro hclear
      rw [checkWildcardMatch_iff]
      constructor
      · rintro ⟨w, a, b, l, c, d, bs, ds, hacc⟩
        by_contra hno
        refine hclear ⟨w, a, b, l, c, d, bs, ds, hacc, fun hgood => hno ?_⟩
        obtain ⟨hw, ha, hb, hbs, hl, hds, hd⟩ := hgood
        exact hacc.matches hw ha hb hbs hl hds hd
      · intro hmatch
        obtain ⟨a, b, l, c, d, hp, hh, -, -, -, hc, -⟩ := matches_iff.mp hmatch
        exact ⟨[star], a, b, l, c, d, [], [], hp, hh, rfl, hc⟩

/-- A certificate for another top level domain is accepted. -/
theorem checkWildcardMatch_forged :
    checkWildcardMatch (ascii "www.example.org") (ascii "*.example.com") = 1 ∧
      ¬ Matches (ascii "www.example.org") (ascii "*.example.com") := by
  refine ⟨by decide +kernel, fun hmatch => ?_⟩
  obtain ⟨a, b, l, c, d, hp, hh, -, -, -, -, hd⟩ := matches_iff.mp hmatch
  have hlp : labels (ascii "*.example.com") = [[star], ascii "example", ascii "com"] := by
    decide +kernel
  have hlh : labels (ascii "www.example.org") = [ascii "www", ascii "example", ascii "org"] := by
    decide +kernel
  rw [hlp] at hp
  rw [hlh] at hh
  cases hp
  cases hh
  exact absurd hd (by decide +kernel)

end Tlsdate.Wildcard
