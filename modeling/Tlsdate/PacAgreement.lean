import Tlsdate.PacProxy

namespace Tlsdate.PacAgreement

open TimeSource Options Monitor ProxyResolver PacProxy
open ProxyBio (CString ascii snprintf isDigit)

def hostChar (c : UInt8) : Bool := isAlnum c || c == 45 || c == 46

structure IsHost (host : List UInt8) : Prop where
  first : ∃ c ∈ host.head?, isAlnum c = true
  chars : ∀ c ∈ host, hostChar c = true

/-- A host, alone or with a port that may be empty. -/
inductive HostPort : List UInt8 → Prop
  | host {host} : IsHost host → HostPort host
  | port {host port} : IsHost host → (∀ c ∈ port, isDigit c = true) → HostPort (host ++ 58 :: port)

/-- The result of a PAC script names a proxy of this kind, with its host and port. -/
def Names (s : List UInt8) (kind : Kind) (host port : List UInt8) : Prop :=
  s = kind.word ++ 32 :: (host ++ 58 :: port) ∧ (58 : UInt8) ∉ host

/-- The daemon makes nothing of `s`, or the helper gets the proxy that `s` names. -/
def Agrees (opts : Opts) (src : Source) (s : CString) : Prop :=
  ∃ url, canonicalizePac s.1 maxProxyUrl = some url ∧ (url ≠ [] →
    ∃ kind host port, Names s.1 kind host port ∧
      helperProxy (proxyArgs (text url) opts src) = .ok (some ⟨kind.scheme, host, port⟩))

/-- So much is a valid host and port that its copy does not fit the buffer. -/
def Overruns (rest : List UInt8) : Prop :=
  hostportSize ≤ rest.length ∧ HostPort (rest.take hostportSize)

/-- What follows the first space of `s` does not overrun the buffer; and if it
is a host and port that the daemon takes for a proxy, the word before it names
the kind of proxy in full, the kind is not https, and there is a colon. -/
def Plain (s : CString) : Prop :=
  ∀ word rest, s.1 = word ++ 32 :: rest → (32 : UInt8) ∉ word →
    ¬ Overruns rest ∧ ∀ kind, pacKind word word.length = some kind → HostPort rest →
      (proxyUri kind rest).length < maxProxyUrl →
      word = kind.word ∧ kind ≠ .https ∧ (58 : UInt8) ∈ rest

def next (host : Bool) (c : UInt8) : Option Bool :=
  if host && hostChar c then some true
  else if host && c == 58 then some false
  else if !host && isDigit c then some false
  else none

def Rest : Bool → List UInt8 → Prop
  | _, [] => True
  | host, c :: cs => ∃ host', next host c = some host' ∧ Rest host' cs

theorem next_host {c : UInt8} {host : Bool} :
    next true c = some host ↔ (hostChar c = true ∧ host = true) ∨ (c = 58 ∧ host = false) := by
  have h58 : hostChar 58 = false := by decide
  by_cases hc : hostChar c = true
  · have hne : c ≠ 58 := fun he => by simp [he, h58] at hc
    simp [next, hc, hne, eq_comm]
  · cases host <;> by_cases he : c = 58 <;> simp [next, hc, he, h58]

theorem next_port {c : UInt8} {host : Bool} :
    next false c = some host ↔ isDigit c = true ∧ host = false := by
  by_cases hc : isDigit c = true <;> simp [next, hc, eq_comm]

theorem rest_false {cs : List UInt8} : Rest false cs ↔ ∀ c ∈ cs, isDigit c = true := by
  induction cs with
  | nil => simp [Rest]
  | cons c cs ih => simp [Rest, next_port, ih]

theorem rest_true {cs : List UInt8} : Rest true cs ↔ (∀ c ∈ cs, hostChar c = true) ∨
    ∃ host port, cs = host ++ 58 :: port ∧ (∀ c ∈ host, hostChar c = true) ∧
      ∀ c ∈ port, isDigit c = true := by
  induction cs with
  | nil => simp [Rest]
  | cons c cs ih =>
      constructor
      · rintro ⟨host', hn, hr⟩
        obtain ⟨hc, rfl⟩ | ⟨rfl, rfl⟩ := next_host.mp hn
        · obtain h | ⟨host, port, rfl, hh, hp⟩ := ih.mp hr
          · exact Or.inl (by simpa [hc] using h)
          · exact Or.inr ⟨c :: host, port, rfl, by simpa [hc] using hh, hp⟩
        · exact Or.inr ⟨[], cs, rfl, by simp, rest_false.mp hr⟩
      · rintro (h | ⟨host, port, he, hh, hp⟩)
        · have hcs : ∀ x ∈ cs, hostChar x = true := fun x hx => h x (List.mem_cons_of_mem _ hx)
          exact ⟨true, next_host.mpr (Or.inl ⟨h c (by simp), rfl⟩), ih.mpr (Or.inl hcs)⟩
        · cases host with
          | nil =>
              obtain ⟨rfl, rfl⟩ := List.cons.inj he
              exact ⟨false, next_host.mpr (Or.inr ⟨rfl, rfl⟩), rest_false.mpr hp⟩
          | cons x host =>
              obtain ⟨rfl, rfl⟩ := List.cons.inj he
              have hhost : ∀ y ∈ host, hostChar y = true := fun y hy =>
                hh y (List.mem_cons_of_mem _ hy)
              exact ⟨true, next_host.mpr (Or.inl ⟨hh c (by simp), rfl⟩),
                ih.mpr (Or.inr ⟨host, port, rfl, hhost, hp⟩)⟩

theorem hostPort_cons {c : UInt8} {cs : List UInt8} :
    HostPort (c :: cs) ↔ isAlnum c = true ∧ Rest true cs := by
  rw [rest_true]
  constructor
  · intro h
    generalize hs : c :: cs = s at h
    cases h with
    | host hh =>
        subst hs
        exact ⟨by simpa using hh.first, Or.inl fun x hx => hh.chars x (List.mem_cons_of_mem _ hx)⟩
    | @port host port hh hp =>
        cases host with
        | nil => simpa using hh.first
        | cons x host =>
            obtain ⟨rfl, rfl⟩ := List.cons.inj hs
            exact ⟨by simpa using hh.first, Or.inr ⟨host, port, rfl,
              fun x hx => hh.chars x (List.mem_cons_of_mem _ hx), hp⟩⟩
  · have hfirst {host : List UInt8} (ha : isAlnum c = true) (hh : ∀ x ∈ host, hostChar x = true) :
        IsHost (c :: host) :=
      ⟨⟨c, rfl, ha⟩, by simpa [hostChar, ha] using hh⟩
    rintro ⟨ha, h | ⟨host, port, rfl, hh, hp⟩⟩
    · exact .host (hfirst ha h)
    · exact .port (hfirst ha hh) hp

theorem not_hostPort_nil : ¬ HostPort [] := by
  intro h
  generalize hs : [] = s at h
  cases h with
  | host hh =>
      subst hs
      simpa using hh.first
  | port => simp at hs

theorem copyRest_cons {size i : Nat} (hi : i < size) (host : Bool) (len : Nat) (c : UInt8)
    (cs : List UInt8) : copyRest size host (len + 1) i (c :: cs) =
      (next host c).elim .invalid fun host' => (copyRest size host' len (i + 1) cs).cons c := by
  have hs : ¬ size ≤ i := Nat.not_le.mpr hi
  rw [copyRest, if_neg hs, next, hostChar]
  split_ifs <;> rfl

theorem cons_valid {c : UInt8} {r : Copied} {out : List UInt8} :
    r.cons c = .valid out ↔ ∃ cs, r = .valid cs ∧ out = c :: cs := by
  cases r <;> simp [Copied.cons, eq_comm]

theorem cons_overrun {c : UInt8} {r : Copied} : r.cons c = .overrun ↔ r = .overrun := by
  cases r <;> simp [Copied.cons]

/-- The loop returns all it was given: what it counts down runs out too late. -/
theorem copyRest_valid {size : Nat} {host : Bool} {len i : Nat} {cs out : List UInt8}
    (h : i + len = size + 1) : copyRest size host len i cs = .valid out ↔
      out = cs ∧ Rest host cs ∧ i + cs.length < size := by
  induction cs generalizing host len i out with
  | nil =>
      cases len <;> by_cases hi : i < size <;> simp [copyRest, Rest, hi, eq_comm]
  | cons c cs ih =>
      by_cases hi : i < size
      · obtain ⟨n, rfl⟩ := Nat.exists_eq_add_of_lt (show 0 < len by omega)
        have hlen : i + 1 + cs.length < size ↔ i + (c :: cs).length < size := by
          rw [List.length_cons]
          omega
        rw [copyRest_cons hi, Rest, ← hlen]
        cases next host c with
        | none => simp
        | some host' =>
            simp only [Option.elim_some, cons_valid, Option.some.injEq, exists_eq_left']
            constructor
            · rintro ⟨out', hout, rfl⟩
              obtain ⟨rfl, hr, hl⟩ := (ih (by omega)).mp hout
              exact ⟨rfl, hr, hl⟩
            · rintro ⟨rfl, hr, hl⟩
              exact ⟨cs, (ih (by omega)).mpr ⟨rfl, hr, hl⟩, rfl⟩
      · have hl : size ≤ i + (cs.length + 1) := by omega
        cases len <;> simp [copyRest, hi, hl, Nat.not_lt.mp hi]

theorem copyRest_overrun {size : Nat} {host : Bool} {len i : Nat} {cs : List UInt8}
    (h : i + len = size + 1) : copyRest size host len i cs = .overrun ↔
      size ≤ i + cs.length ∧ Rest host (cs.take (size - i)) := by
  induction cs generalizing host len i with
  | nil =>
      cases len <;> by_cases hi : i < size <;> simp [copyRest, Rest, hi, Nat.not_lt.mp, Nat.not_le.mpr]
  | cons c cs ih =>
      by_cases hi : i < size
      · obtain ⟨n, rfl⟩ := Nat.exists_eq_add_of_lt (show 0 < len by omega)
        have hlen : size ≤ i + 1 + cs.length ↔ size ≤ i + (c :: cs).length := by
          rw [List.length_cons]
          omega
        have htake : size - i = size - (i + 1) + 1 := by omega
        rw [copyRest_cons hi, htake, List.take_succ_cons, Rest, ← hlen]
        cases next host c with
        | none => simp
        | some host' =>
            simp only [Option.elim_some, cons_overrun, Option.some.injEq, exists_eq_left']
            exact ih (by omega)
      · have hs : size ≤ i := Nat.not_lt.mp hi
        have hz : size - i = 0 := Nat.sub_eq_zero_of_le hs
        cases len <;> simp [copyRest, Rest, hi, hs, hz] <;> omega

theorem getValidHostport_valid {size : Nat} {rest out : List UInt8} :
    getValidHostport rest size = .valid out ↔
      out = rest ∧ HostPort rest ∧ rest.length < size := by
  cases rest with
  | nil => simp [getValidHostport, not_hostPort_nil]
  | cons c cs =>
      rw [getValidHostport, hostPort_cons, List.length_cons, Nat.add_comm cs.length]
      by_cases hc : isAlnum c = true
      · rw [if_pos hc, cons_valid]
        constructor
        · rintro ⟨out', hout, rfl⟩
          obtain ⟨rfl, hr, hl⟩ := (copyRest_valid (Nat.add_comm 1 _)).mp hout
          exact ⟨rfl, ⟨hc, hr⟩, hl⟩
        · rintro ⟨rfl, ⟨-, hr⟩, hl⟩
          exact ⟨cs, (copyRest_valid (Nat.add_comm 1 _)).mpr ⟨rfl, hr, hl⟩, rfl⟩
      · simp [hc]

theorem getValidHostport_overrun {size : Nat} (hsize : 0 < size) {rest : List UInt8} :
    getValidHostport rest size = .overrun ↔ size ≤ rest.length ∧ HostPort (rest.take size) := by
  obtain ⟨size, rfl⟩ := Nat.exists_eq_add_one_of_ne_zero hsize.ne'
  cases rest with
  | nil => simp [getValidHostport]
  | cons c cs =>
      rw [getValidHostport, List.take_succ_cons, hostPort_cons, List.length_cons,
        Nat.add_comm cs.length]
      by_cases hc : isAlnum c = true
      · rw [if_pos hc, cons_overrun, copyRest_overrun (Nat.add_comm 1 _)]
        simp [hc]
      · simp [hc]

theorem overrun_hostport {rest : List UInt8} :
    getValidHostport rest hostportSize = .overrun ↔ Overruns rest :=
  getValidHostport_overrun (by decide)

theorem pacKind_append (word rest : List UInt8) :
    pacKind (word ++ rest) word.length = pacKind word word.length := by
  simp [pacKind, strncmp]

theorem pacKind_word (kind : Kind) : pacKind kind.word kind.word.length = some kind := by
  cases kind <;> decide

theorem proxyUri_length (kind : Kind) (rest : List UInt8) :
    7 + rest.length ≤ (proxyUri kind rest).length := by
  cases kind <;> simp [proxyUri, Kind.scheme, ascii] <;> omega

theorem canonicalizePac_whole {s : List UInt8} (hs : (32 : UInt8) ∉ s) (len : Nat) :
    canonicalizePac s len = some [] := by
  rw [canonicalizePac, strchr_none.mpr hs]
  exact ite_self _

theorem Rest.take {host : Bool} {cs : List UInt8} (h : Rest host cs) (k : Nat) :
    Rest host (cs.take k) := by
  induction cs generalizing host k with
  | nil => simpa using h
  | cons c cs ih =>
      cases k with
      | zero => trivial
      | succ k =>
          obtain ⟨host', hn, hr⟩ := h
          exact ⟨host', hn, ih hr k⟩

theorem short_of_hostPort {rest : List UInt8} (ho : ¬ Overruns rest) (hr : HostPort rest) :
    rest.length < hostportSize := by
  by_contra hl
  refine ho ⟨Nat.not_lt.mp hl, ?_⟩
  cases rest with
  | nil => exact absurd hr not_hostPort_nil
  | cons c cs =>
      obtain ⟨hc, hcs⟩ := hostPort_cons.mp hr
      exact hostPort_cons.mpr ⟨hc, hcs.take _⟩

theorem canonicalizePac_split {word : List UInt8} (hw : (32 : UInt8) ∉ word) (rest : List UInt8)
    (len : Nat) :
    (canonicalizePac (word ++ 32 :: rest) len = none ∧ Overruns rest) ∨
      (∃ kind, canonicalizePac (word ++ 32 :: rest) len = some (proxyUri kind rest) ∧
        pacKind word word.length = some kind ∧ HostPort rest ∧ ¬ Overruns rest ∧
        (proxyUri kind rest).length < len) ∨
      (canonicalizePac (word ++ 32 :: rest) len = some [] ∧ ¬ Overruns rest ∧
        ∀ kind, pacKind word word.length = some kind → HostPort rest →
          len ≤ (proxyUri kind rest).length) := by
  have hdirect : word ++ 32 :: rest ≠ ascii "DIRECT" := by
    intro h
    have hmem : (32 : UInt8) ∈ ascii "DIRECT" := h ▸ List.mem_append_right _ List.mem_cons_self
    exact absurd hmem (by decide)
  have hsplit : strchr 32 (word ++ 32 :: rest) = some (word, rest) := strchr_some.mpr ⟨rfl, hw⟩
  simp only [canonicalizePac, if_neg hdirect, hsplit, pacKind_append]
  cases hcopy : getValidHostport rest hostportSize with
  | overrun => exact Or.inl ⟨rfl, overrun_hostport.mp hcopy⟩
  | invalid =>
      have ho : ¬ Overruns rest := by
        rw [← overrun_hostport, hcopy]
        simp
      refine Or.inr (Or.inr ⟨rfl, ho, ?_⟩)
      intro kind _ hr
      have hv := getValidHostport_valid.mpr ⟨rfl, hr, short_of_hostPort ho hr⟩
      rw [hcopy] at hv
      cases hv
  | valid out =>
      obtain ⟨rfl, hr, hl⟩ := getValidHostport_valid.mp hcopy
      have ho : ¬ Overruns out := by
        rw [← overrun_hostport, hcopy]
        simp
      cases hkind : pacKind word word.length with
      | none => exact Or.inr (Or.inr ⟨rfl, ho, by simp⟩)
      | some kind =>
          by_cases hfit : (proxyUri kind out).length ≥ len
          · refine Or.inr (Or.inr ⟨if_pos hfit, ho, ?_⟩)
            rintro _ ⟨rfl⟩ -
            exact hfit
          · refine Or.inr (Or.inl ⟨kind, ?_, rfl, hr, ho, Nat.not_le.mp hfit⟩)
            have hlen : (proxyUri kind out).length ≤ len - 1 := by omega
            have hcut : snprintf len (proxyUri kind out) = proxyUri kind out :=
              List.take_of_length_le hlen
            simp only [if_neg hfit, hcut]

theorem ofNat_toNat (c : UInt8) : UInt8.ofNat (Char.ofNat c.toNat).toNat = c := by
  have hv : c.toNat.isValidChar := Or.inl (c.toNat_lt.trans (by decide))
  rw [Char.ofNat, dif_pos hv]
  exact UInt8.ofNat_toNat

theorem ascii_text (bs : List UInt8) : ascii (text bs) = bs := by
  simp [ascii, text, Function.comp_def, ofNat_toNat]

theorem kValid_contains (c : UInt8) : kValid.contains c = hostChar c := by
  have hall : ∀ n : Fin 256, hostChar (UInt8.ofNat n) = true →
      kValid.contains (UInt8.ofNat n) = true := by decide +kernel
  have hvalid : ∀ c ∈ kValid, hostChar c = true := by decide +kernel
  have hc := hall ⟨c.toNat, c.toNat_lt⟩
  rw [UInt8.ofNat_toNat] at hc
  exact Bool.eq_iff_iff.mpr ⟨fun h => hvalid c (List.contains_iff_mem.mp h), hc⟩

theorem strstr_scheme (kind : Kind) (rest : List UInt8) :
    strstr (ascii "://") (proxyUri kind rest) = some (kind.scheme, rest) := by
  cases kind <;> rfl

theorem parseProxyUri_some {kind : Kind} {host port : List UInt8} (hk : kind ≠ .https)
    (hh : ∀ c ∈ host, hostChar c = true) (hp : ∀ c ∈ port, isDigit c = true) :
    parseProxyUri (proxyUri kind (host ++ 58 :: port)) = .ok ⟨kind.scheme, host, port⟩ := by
  have hcolon : (58 : UInt8) ∉ host := fun hm => absurd (hh 58 hm) (by decide)
  have hscheme : validateProxyScheme kind.scheme = .ok () := by
    cases kind with
    | https => exact absurd rfl hk
    | http | socks4 | socks5 => rfl
  have hhost : validateProxyHost host = .ok () :=
    if_pos (List.all_eq_true.mpr fun c hc => (kValid_contains c).trans (hh c hc))
  have hport : validateProxyPort port = .ok () := if_pos (List.all_eq_true.mpr hp)
  have hsplit : strchr 58 (host ++ 58 :: port) = some (host, port) := strchr_some.mpr ⟨rfl, hcolon⟩
  exact parseProxyUri_ok.mpr ⟨_, strstr_scheme kind _, hsplit, hscheme, hhost, hport⟩

theorem parseProxyUri_https (rest : List UInt8) (uri : ProxyUri) :
    parseProxyUri (proxyUri .https rest) ≠ .ok uri := by
  intro h
  obtain ⟨_, hs, -, hscheme, -⟩ := parseProxyUri_ok.mp h
  rw [strstr_scheme] at hs
  obtain ⟨hkind, -⟩ := Prod.mk.inj (Option.some.inj hs)
  rw [← hkind] at hscheme
  cases hscheme

theorem helperProxy_passed {opts : Opts} {src : Source} (h : opts.proxy.or src.proxy = some .dynamic)
    (kind : Kind) (rest : List UInt8) :
    helperProxy (proxyArgs (text (proxyUri kind rest)) opts src) =
      (parseProxyUri (proxyUri kind rest)).map some := by
  have hlen := proxyUri_length kind rest
  have hne (s : String) (hs : (ascii s).length < 7) : text (proxyUri kind rest) ≠ s := by
    rintro rfl
    rw [ascii_text] at hs
    omega
  have hargs : proxyArgs (text (proxyUri kind rest)) opts src =
      ["-x", text (proxyUri kind rest)] := by
    rw [proxyArgs, h]
    exact if_pos (hne "" (by decide))
  rw [hargs, helperProxy]
  simp only [if_neg (hne "none" (by decide)), ascii_text]

theorem HostPort.split {host port : List UInt8} (h : HostPort (host ++ 58 :: port))
    (hcolon : (58 : UInt8) ∉ host) :
    (∀ c ∈ host, hostChar c = true) ∧ ∀ c ∈ port, isDigit c = true := by
  generalize hs : host ++ 58 :: port = s at h
  cases h with
  | host hh =>
      subst hs
      exact absurd (hh.chars 58 (by simp)) (by decide)
  | port hh hp =>
      have hcolon' := fun hm => Bool.false_ne_true (hh.chars 58 hm)
      obtain ⟨rfl, rfl⟩ := split_unique hs hcolon hcolon'
      exact ⟨hh.chars, hp⟩

theorem passed_names {opts : Opts} {src : Source} (h : opts.proxy.or src.proxy = some .dynamic)
    {word rest : List UInt8} {kind : Kind} (hw : (32 : UInt8) ∉ word)
    (hk : pacKind word word.length = some kind) (hr : HostPort rest) :
    (∃ kind' host port, Names (word ++ 32 :: rest) kind' host port ∧
      helperProxy (proxyArgs (text (proxyUri kind rest)) opts src) =
        .ok (some ⟨kind'.scheme, host, port⟩)) ↔
      word = kind.word ∧ kind ≠ .https ∧ (58 : UInt8) ∈ rest := by
  rw [helperProxy_passed h]
  constructor
  · rintro ⟨kind', host, port, ⟨hs, -⟩, hparse⟩
    have hword : (32 : UInt8) ∉ kind'.word := by cases kind' <;> decide
    obtain ⟨rfl, rfl⟩ := split_unique hs hw hword
    rw [pacKind_word] at hk
    obtain rfl := Option.some.inj hk
    refine ⟨rfl, ?_, by simp⟩
    rintro rfl
    cases hp : parseProxyUri (proxyUri .https (host ++ 58 :: port)) with
    | error e => simp [hp, Except.map] at hparse
    | ok uri => exact parseProxyUri_https _ _ hp
  · rintro ⟨rfl, hne, hcolon⟩
    obtain ⟨⟨host, port⟩, hsplit⟩ := Option.ne_none_iff_exists'.mp fun hn => strchr_none.mp hn hcolon
    obtain ⟨rfl, hhost⟩ := strchr_some.mp hsplit
    obtain ⟨hh, hp⟩ := hr.split hhost
    refine ⟨kind, host, port, ⟨rfl, hhost⟩, ?_⟩
    rw [parseProxyUri_some hne hh hp]
    rfl

/-- The daemon's url is the helper's proxy exactly for the plain strings. -/
theorem agrees_iff {opts : Opts} {src : Source} (h : opts.proxy.or src.proxy = some .dynamic)
    (s : CString) : Agrees opts src s ↔ Plain s := by
  by_cases hs : (32 : UInt8) ∈ s.1
  · obtain ⟨⟨word, rest⟩, hsplit⟩ := Option.ne_none_iff_exists'.mp fun hn => strchr_none.mp hn hs
    obtain ⟨he, hw⟩ := strchr_some.mp hsplit
    have hplain : Plain s ↔ ¬ Overruns rest ∧ ∀ kind, pacKind word word.length = some kind →
        HostPort rest → (proxyUri kind rest).length < maxProxyUrl →
        word = kind.word ∧ kind ≠ .https ∧ (58 : UInt8) ∈ rest := by
      constructor
      · intro hp
        exact hp word rest he hw
      · intro hp word' rest' he' hw'
        obtain ⟨rfl, rfl⟩ := split_unique (he.symm.trans he') hw hw'
        exact hp
    rw [hplain, Agrees, he]
    obtain ⟨hnone, ho⟩ | ⟨kind, hurl, hk, hr, ho, hfit⟩ | ⟨hempty, ho, hlong⟩ :=
      canonicalizePac_split hw rest maxProxyUrl
    · simp [hnone, ho]
    · have hne : proxyUri kind rest ≠ [] := by
        have hlen := proxyUri_length kind rest
        exact List.ne_nil_of_length_pos (by omega)
      rw [hurl]
      constructor
      · rintro ⟨_, ⟨rfl⟩, hagree⟩
        refine ⟨ho, ?_⟩
        rintro kind' hk' - -
        obtain rfl := Option.some.inj (hk.symm.trans hk')
        exact (passed_names h hw hk hr).mp (hagree hne)
      · rintro ⟨-, hplain⟩
        exact ⟨_, rfl, fun _ => (passed_names h hw hk hr).mpr (hplain kind hk hr hfit)⟩
    · refine iff_of_true ⟨[], hempty, fun hne => absurd rfl hne⟩ ⟨ho, ?_⟩
      intro kind hk hr hfit
      exact absurd (hlong kind hk hr) (Nat.not_le.mpr hfit)
  · have hplain : Plain s := fun word rest he _ => absurd (he ▸ by simp) hs
    exact iff_of_true ⟨[], canonicalizePac_whole hs _, fun hne => absurd rfl hne⟩ hplain

def dynamicSource : Source := ⟨"h", "443", some .dynamic, 0⟩

def exampleOpts : Opts := setConfDefaults fallbackBuild

theorem agrees_iff_socks5 : Agrees exampleOpts dynamicSource ⟨ascii "SOCKS5 a:9", by decide⟩ ↔
    Plain ⟨ascii "SOCKS5 a:9", by decide⟩ :=
  agrees_iff rfl _

def handed (s : String) : Option (Except String (Option ProxyUri)) :=
  (canonicalizePac (ascii s) maxProxyUrl).map fun url =>
    helperProxy (proxyArgs (text url) exampleOpts dynamicSource)

/-- The helper rejects a scheme of the daemon and a url without a port, and it
is given a proxy for a word that is none. -/
theorem agrees_not : (¬ ∀ (opts : Opts) (src : Source) (s : CString),
      opts.proxy.or src.proxy = some .dynamic → Agrees opts src s) ∧
    handed "HTTPS a:1" = some (.error "invalid proxy scheme") ∧
    handed "PROXY a" = some (.error "malformed proxy URI") ∧
    handed "S a:1" = some (.ok (some ⟨ascii "socks4", ascii "a", ascii "1"⟩)) := by
  refine ⟨?_, rfl, rfl, rfl⟩
  intro h
  have hs : (0 : UInt8) ∉ ascii "HTTPS a:1" := by decide
  obtain ⟨url, hurl, hagree⟩ := h exampleOpts dynamicSource ⟨ascii "HTTPS a:1", hs⟩ rfl
  have hhttps : canonicalizePac (ascii "HTTPS a:1") maxProxyUrl = some (ascii "https://a:1") := rfl
  obtain rfl := Option.some.inj (hhttps.symm.trans hurl)
  obtain ⟨kind, host, port, -, hparse⟩ := hagree (by decide)
  cases hparse

end Tlsdate.PacAgreement
