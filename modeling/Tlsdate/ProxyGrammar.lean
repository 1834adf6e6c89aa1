import Tlsdate.PacAgreement

namespace Tlsdate.ProxyGrammar

open PacProxy PacAgreement
open ProxyBio (CString ascii isDigit)

section Pac

/-- A host and port whose port, if there is one, has `least` digits or more. -/
def Endpoint (least : Nat) (s : List UInt8) : Prop :=
  HostPort s ∧ ∀ host port, s = host ++ 58 :: port → (58 : UInt8) ∉ host → least ≤ port.length

/-- A PAC result that names one proxy, and the url of that proxy. -/
def Canonical (least : Nat) (s url : List UInt8) : Prop :=
  ∃ kind hostport, s = Kind.word kind ++ 32 :: hostport ∧ Endpoint least hostport ∧
    url = proxyUri kind hostport

/-- The url that is left is the one that `s` names, if that fits, and else empty. -/
def LeavesNamed (least : Nat) (s : CString) (len : Nat) : Prop :=
  ∃ out, canonicalizePac s.1 len = some out ∧
    ∀ url, (out = url ∧ url ≠ []) ↔ (Canonical least s.1 url ∧ url.length < len)

def Cut (word : List UInt8) (kind : Kind) : Prop :=
  word <+: kind.word ∧ ∀ kind', word ≠ Kind.word kind'

/-- What follows the first space of `s` does not overrun the buffer; and if it
is a host and port whose url fits, then what stands before the space is not a cut
word, nor a word in front of a port that is too short. -/
def Spelled (least : Nat) (s : CString) (len : Nat) : Prop :=
  ∀ word rest, s.1 = word ++ 32 :: rest → (32 : UInt8) ∉ word → ¬ Overruns rest ∧
    ∀ kind, HostPort rest → (proxyUri kind rest).length < len →
      ¬ Cut word kind ∧ (word = kind.word → Endpoint least rest)

theorem pacKind_of_begins {word : List UInt8} {kind : Kind} (h : word <+: kind.word) :
    ∃ kind', pacKind word word.length = some kind' ∧
      kind'.scheme.length ≤ kind.scheme.length := by
  obtain ⟨k, rfl⟩ : ∃ k : Fin 7, word = kind.word.take k := by
    have hlen : word.length < 7 := Nat.lt_of_le_of_lt h.length_le (by cases kind <;> decide)
    exact ⟨⟨word.length, hlen⟩, List.prefix_iff_eq_take.mp h⟩
  revert k
  cases kind <;> decide

theorem begins_of_pacKind {word : List UInt8} {kind : Kind}
    (h : pacKind word word.length = some kind) : word <+: kind.word := by
  have begins {s : List UInt8} (hs : strncmp word s word.length = true) : word <+: s := by
    rw [strncmp, List.take_length, beq_iff_eq] at hs
    exact hs ▸ List.take_prefix _ _
  rw [pacKind] at h
  split_ifs at h with h₁ h₂ h₃ h₄ <;> cases h
  · exact begins h₁
  · exact begins h₂
  · exact begins h₃
  · exact begins h₄

theorem space_notMem_word (kind : Kind) : (32 : UInt8) ∉ kind.word := by cases kind <;> decide

theorem word_inj {kind kind' : Kind} (h : kind.word = kind'.word) : kind = kind' := by
  cases kind <;> cases kind' <;> first | rfl | exact absurd h (by decide)

theorem canonical_iff {least : Nat} {word rest url : List UInt8} (hw : (32 : UInt8) ∉ word) :
    Canonical least (word ++ 32 :: rest) url ↔
      ∃ kind, word = Kind.word kind ∧ Endpoint least rest ∧ url = proxyUri kind rest := by
  constructor
  · rintro ⟨kind, hostport, hs, he, rfl⟩
    obtain ⟨rfl, rfl⟩ := split_unique hs hw (space_notMem_word kind)
    exact ⟨kind, rfl, he, rfl⟩
  · rintro ⟨kind, rfl, he, rfl⟩
    exact ⟨kind, rest, rfl, he, rfl⟩

theorem spelled_iff {least len : Nat} {s : CString} {word rest : List UInt8}
    (hs : s.1 = word ++ 32 :: rest) (hw : (32 : UInt8) ∉ word) : Spelled least s len ↔
      ¬ Overruns rest ∧ ∀ kind, HostPort rest → (proxyUri kind rest).length < len →
        ¬ Cut word kind ∧ (word = kind.word → Endpoint least rest) := by
  constructor
  · intro h
    exact h word rest hs hw
  · intro h word' rest' hs' hw'
    obtain ⟨rfl, rfl⟩ := split_unique (hs.symm.trans hs') hw hw'
    exact h

theorem proxyUri_ne_nil (kind : Kind) (rest : List UInt8) : proxyUri kind rest ≠ [] := by
  have hlen := proxyUri_length kind rest
  exact List.ne_nil_of_length_pos (by omega)

theorem proxyUri_length_le {kind kind' : Kind} (h : kind.scheme.length ≤ kind'.scheme.length)
    (rest : List UInt8) : (proxyUri kind rest).length ≤ (proxyUri kind' rest).length := by
  simp only [proxyUri, List.length_append]
  omega

theorem proxyUri_inj {kind kind' : Kind} {rest : List UInt8}
    (h : proxyUri kind rest = proxyUri kind' rest) : kind = kind' := by
  have hscheme := strstr_scheme kind rest
  rw [h, strstr_scheme] at hscheme
  have hs := (Prod.mk.inj (Option.some.inj hscheme)).1
  cases kind <;> cases kind' <;> first | rfl | exact absurd hs (by decide)

theorem leavesNamed_some {least len : Nat} {s : CString} {word rest : List UInt8} {kind : Kind}
    (hs : s.1 = word ++ 32 :: rest) (hw : (32 : UInt8) ∉ word)
    (hurl : canonicalizePac s.1 len = some (proxyUri kind rest))
    (hfit : (proxyUri kind rest).length < len) :
    LeavesNamed least s len ↔ word = kind.word ∧ Endpoint least rest := by
  constructor
  · rintro ⟨out, hout, hnamed⟩
    obtain rfl := Option.some.inj (hurl.symm.trans hout)
    obtain ⟨hcanonical, -⟩ := (hnamed _).mp ⟨rfl, proxyUri_ne_nil kind rest⟩
    rw [hs, canonical_iff hw] at hcanonical
    obtain ⟨kind', rfl, he, hkind⟩ := hcanonical
    exact ⟨congrArg Kind.word (proxyUri_inj hkind).symm, he⟩
  · rintro ⟨rfl, he⟩
    refine ⟨_, hurl, fun url => ?_⟩
    rw [hs, canonical_iff hw]
    constructor
    · rintro ⟨rfl, -⟩
      exact ⟨⟨kind, rfl, he, rfl⟩, hfit⟩
    · rintro ⟨⟨kind', hword, -, rfl⟩, -⟩
      obtain rfl := word_inj hword
      exact ⟨rfl, proxyUri_ne_nil kind rest⟩

theorem leavesNamed_empty {least len : Nat} {s : CString} (hempty : canonicalizePac s.1 len = some []) :
    LeavesNamed least s len ↔ ∀ url, Canonical least s.1 url → ¬ url.length < len := by
  constructor
  · rintro ⟨out, hout, hnamed⟩ url hcanonical hfit
    obtain rfl := Option.some.inj (hempty.symm.trans hout)
    obtain ⟨hnil, hne⟩ := (hnamed url).mpr ⟨hcanonical, hfit⟩
    exact hne hnil.symm
  · intro h
    refine ⟨[], hempty, fun url => iff_of_false (fun hleft => hleft.2 hleft.1.symm) ?_⟩
    rintro ⟨hcanonical, hfit⟩
    exact h url hcanonical hfit

/-- What `canonicalize_pac` leaves for `s` is the url of the proxy that it names,
in every string that is spelled so, and in no other. -/
theorem canonicalizePac_named (least : Nat) (s : CString) (len : Nat) :
    LeavesNamed least s len ↔ Spelled least s len := by
  by_cases hspace : (32 : UInt8) ∈ s.1
  · obtain ⟨⟨word, rest⟩, hsplit⟩ :=
      Option.ne_none_iff_exists'.mp fun hn => strchr_none.mp hn hspace
    obtain ⟨hs, hw⟩ := strchr_some.mp hsplit
    rw [spelled_iff hs hw]
    obtain ⟨hnone, ho⟩ | ⟨kind, hurl, hk, hr, ho, hfit⟩ | ⟨hempty, ho, hlong⟩ :=
      canonicalizePac_split hw rest len
    · refine iff_of_false ?_ fun h => h.1 ho
      rintro ⟨out, hout, -⟩
      rw [hs, hnone] at hout
      cases hout
    · rw [leavesNamed_some hs hw (hs ▸ hurl) hfit]
      constructor
      · rintro ⟨rfl, he⟩
        exact ⟨ho, fun kind' _ _ => ⟨fun hcut => hcut.2 kind rfl, fun _ => he⟩⟩
      · rintro ⟨-, hspelled⟩
        obtain ⟨hwhole, hend⟩ := hspelled kind hr hfit
        have hword : word = kind.word := by
          by_contra hne
          refine hwhole ⟨begins_of_pacKind hk, ?_⟩
          rintro kind' rfl
          rw [pacKind_word] at hk
          exact hne (Option.some.inj hk ▸ rfl)
        exact ⟨hword, hend hword⟩
    · have hshort (kind kind' : Kind) (hk : pacKind word word.length = some kind)
          (hle : kind.scheme.length ≤ kind'.scheme.length) (hr : HostPort rest) :
          ¬ (proxyUri kind' rest).length < len :=
        Nat.not_lt.mpr ((hlong kind hk hr).trans (proxyUri_length_le hle rest))
      rw [leavesNamed_empty (hs ▸ hempty), hs]
      refine iff_of_true (fun url hcanonical => ?_) ⟨ho, fun kind hr hfit => ⟨?_, ?_⟩⟩
      · obtain ⟨kind, rfl, he, rfl⟩ := (canonical_iff hw).mp hcanonical
        exact hshort kind kind (pacKind_word kind) le_rfl he.1
      · rintro ⟨hbegins, -⟩
        obtain ⟨kind', hk, hle⟩ := pacKind_of_begins hbegins
        exact hshort kind' kind hk hle hr hfit
      · rintro rfl
        exact absurd hfit (hshort kind kind (pacKind_word kind) le_rfl hr)
  · rw [leavesNamed_empty (canonicalizePac_whole hspace len)]
    refine iff_of_true ?_ ?_
    · rintro url ⟨kind, hostport, hs, -⟩
      exact absurd (hs ▸ by simp) hspace
    · intro word rest hs
      exact absurd (hs ▸ by simp) hspace

theorem nul_notMem_cut : (0 : UInt8) ∉ ascii "P a:1" := by decide

/-- A single letter is taken for the word that it begins. -/
theorem cut_word_taken : canonicalizePac (ascii "P a:1") ProxyResolver.maxProxyUrl =
      some (ascii "http://a:1") ∧
    ∀ least, ¬ LeavesNamed least ⟨ascii "P a:1", nul_notMem_cut⟩ ProxyResolver.maxProxyUrl := by
  refine ⟨rfl, fun least hnamed => ?_⟩
  have hs : ascii "P a:1" = ascii "P" ++ 32 :: ascii "a:1" := rfl
  have hurl : canonicalizePac (ascii "P a:1") ProxyResolver.maxProxyUrl =
      some (proxyUri .http (ascii "a:1")) := rfl
  have hword := ((leavesNamed_some hs (by decide) hurl (by decide)).mp hnamed).1
  exact absurd hword (by decide)

end Pac

section Helper

/-- A proxy URI and its parts. The host and the port may be empty. -/
structure IsUri (s : List UInt8) (uri : ProxyUri) : Prop where
  parts : s = uri.scheme ++ ascii "://" ++ uri.host ++ 58 :: uri.port
  scheme : uri.scheme ∈ [ascii "http", ascii "socks4", ascii "socks5"]
  host : ∀ c ∈ uri.host, hostChar c = true
  port : ∀ c ∈ uri.port, isDigit c = true

def ReadsUris (s : List UInt8) : Prop :=
  ∀ uri, parseProxyUri s = .ok uri ↔ IsUri s uri ∧ uri.host ≠ [] ∧ uri.port ≠ []

theorem validateProxyScheme_iff {scheme : List UInt8} : validateProxyScheme scheme = .ok () ↔
    scheme ∈ [ascii "http", ascii "socks4", ascii "socks5"] := by
  simp only [validateProxyScheme, List.mem_cons, List.not_mem_nil, or_false]
  split_ifs with h₁ h₂ h₃ <;> simp [*]

theorem validateProxyHost_iff {host : List UInt8} :
    validateProxyHost host = .ok () ↔ ∀ c ∈ host, hostChar c = true := by
  simp only [validateProxyHost, ← kValid_contains, ← List.all_eq_true]
  split_ifs with h <;> simp [h]

theorem validateProxyPort_iff {port : List UInt8} :
    validateProxyPort port = .ok () ↔ ∀ c ∈ port, isDigit c = true := by
  simp only [validateProxyPort, ← List.all_eq_true]
  split_ifs with h <;> simp [h]

/-- `parse_proxy_uri` reads the URIs, those without a host or a port included. -/
theorem parseProxyUri_iff {s : List UInt8} {uri : ProxyUri} :
    parseProxyUri s = .ok uri ↔ IsUri s uri := by
  rw [parseProxyUri_ok]
  constructor
  · rintro ⟨rest, hs, hc, hscheme, hhost, hport⟩
    obtain ⟨rfl, -⟩ := strchr_some.mp hc
    refine ⟨?_, validateProxyScheme_iff.mp hscheme, validateProxyHost_iff.mp hhost,
      validateProxyPort_iff.mp hport⟩
    rw [strstr_some hs, List.append_assoc, List.append_assoc]
  · rintro ⟨hs, hscheme, hhost, hport⟩
    have hcolon : (58 : UInt8) ∉ uri.scheme := by
      simp only [List.mem_cons, List.not_mem_nil, or_false] at hscheme
      obtain h | h | h := hscheme <;> rw [h] <;> decide
    refine ⟨uri.host ++ 58 :: uri.port, ?_, strchr_some.mpr ⟨rfl, fun h => ?_⟩,
      validateProxyScheme_iff.mpr hscheme, validateProxyHost_iff.mpr hhost,
      validateProxyPort_iff.mpr hport⟩
    · rw [hs, List.append_assoc, List.append_assoc]
      refine (strstr_skip hcolon (ascii "//") _).trans ?_
      have hfound : strstr (58 :: ascii "//") (ascii "://" ++ (uri.host ++ 58 :: uri.port)) =
          some ([], uri.host ++ 58 :: uri.port) := rfl
      rw [hfound, Option.map_some, List.append_nil]
    · exact absurd (hhost 58 h) (by decide)

/-- `parse_proxy_uri` returns for the URIs exactly, but for those that lack a host
or a port. -/
theorem parseProxyUri_reads (s : List UInt8) :
    ReadsUris s ↔ ¬ ∃ uri, IsUri s uri ∧ (uri.host = [] ∨ uri.port = []) := by
  constructor
  · rintro h ⟨uri, huri, hempty⟩
    obtain ⟨-, hhost, hport⟩ := (h uri).mp (parseProxyUri_iff.mpr huri)
    exact hempty.elim hhost hport
  · intro h uri
    rw [parseProxyUri_iff]
    constructor
    · intro huri
      exact ⟨huri, fun hhost => h ⟨uri, huri, Or.inl hhost⟩, fun hport => h ⟨uri, huri, Or.inr hport⟩⟩
    · exact And.left

theorem empty_host_read : parseProxyUri (ascii "http://:80") = .ok ⟨ascii "http", [], ascii "80"⟩ ∧
    parseProxyUri (ascii "http://a:") = .ok ⟨ascii "http", ascii "a", []⟩ ∧
    ¬ ReadsUris (ascii "http://:80") := by
  have hread : parseProxyUri (ascii "http://:80") = .ok ⟨ascii "http", [], ascii "80"⟩ := rfl
  exact ⟨hread, rfl, fun h => ((h _).mp hread).2.1 rfl⟩

end Helper

end Tlsdate.ProxyGrammar
