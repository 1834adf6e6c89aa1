import Tlsdate.Monitor
import Tlsdate.ProxyResolver
import Tlsdate.ProxyBio

namespace Tlsdate.PacProxy

open ProxyBio (CString ascii snprintf isDigit)

def isAlnum (c : UInt8) : Bool :=
  isDigit c || (65 ≤ c && c ≤ 90) || (97 ≤ c && c ≤ 122)

/-- `strchr`: what stands before the first `c` and what stands after it. -/
def strchr (c : UInt8) : List UInt8 → Option (List UInt8 × List UInt8)
  | [] => none
  | x :: xs => if x = c then some ([], xs) else (strchr c xs).map fun p => (x :: p.1, p.2)

def strstr (needle : List UInt8) : List UInt8 → Option (List UInt8 × List UInt8)
  | [] => none
  | x :: xs =>
      if needle.isPrefixOf (x :: xs) then some ([], (x :: xs).drop needle.length)
      else (strstr needle xs).map fun p => (x :: p.1, p.2)

section Search

variable {needle s : List UInt8}

theorem strchr_some {c : UInt8} {s a b : List UInt8} :
    strchr c s = some (a, b) ↔ s = a ++ c :: b ∧ c ∉ a := by
  induction s generalizing a with
  | nil => simp [strchr]
  | cons x xs ih =>
      rw [strchr]
      by_cases hx : x = c
      · subst hx
        rw [if_pos rfl]
        cases a <;> simp [eq_comm]
        intro h
        simp [h]
      · rw [if_neg hx, Option.map_eq_some_iff]
        constructor
        · rintro ⟨⟨a', b'⟩, hp, he⟩
          obtain ⟨rfl, rfl⟩ := Prod.mk.inj he
          obtain ⟨rfl, ha⟩ := ih.mp hp
          exact ⟨rfl, by simpa [Ne.symm hx] using ha⟩
        · rintro ⟨hs, ha⟩
          cases a with
          | nil => exact absurd (List.cons.inj hs).1 hx
          | cons y a =>
              obtain ⟨rfl, rfl⟩ := List.cons.inj hs
              exact ⟨(a, b), ih.mpr ⟨rfl, fun h => ha (List.mem_cons_of_mem _ h)⟩, rfl⟩

theorem strchr_none {c : UInt8} {s : List UInt8} : strchr c s = none ↔ c ∉ s := by
  induction s with
  | nil => simp [strchr]
  | cons x xs ih =>
      rw [strchr]
      by_cases hx : x = c
      · simp [hx]
      · simp [hx, ih, Ne.symm hx]

theorem split_unique {c : UInt8} {a b a' b' : List UInt8} (h : a ++ c :: b = a' ++ c :: b')
    (ha : c ∉ a) (ha' : c ∉ a') : a = a' ∧ b = b' := by
  have hs : strchr c (a ++ c :: b) = some (a, b) := strchr_some.mpr ⟨rfl, ha⟩
  have hs' : strchr c (a ++ c :: b) = some (a', b') := strchr_some.mpr ⟨h, ha'⟩
  rw [hs] at hs'
  exact Prod.mk.inj (Option.some.inj hs')

theorem strstr_cons_some {x : UInt8} {xs a b : List UInt8}
    (h : strstr needle (x :: xs) = some (a, b)) :
    (a = [] ∧ needle <+: x :: xs ∧ b = (x :: xs).drop needle.length) ∨
      (¬ needle <+: x :: xs ∧ ∃ a', a = x :: a' ∧ strstr needle xs = some (a', b)) := by
  rw [strstr] at h
  split_ifs at h with hp
  · obtain ⟨rfl, rfl⟩ := Prod.mk.inj (Option.some.inj h)
    exact Or.inl ⟨rfl, List.isPrefixOf_iff_prefix.mp hp, rfl⟩
  · obtain ⟨⟨a', b'⟩, hs, he⟩ := Option.map_eq_some_iff.mp h
    obtain ⟨rfl, rfl⟩ := Prod.mk.inj he
    exact Or.inr ⟨fun hn => hp (List.isPrefixOf_iff_prefix.mpr hn), a', rfl, hs⟩

theorem strstr_some {a b : List UInt8} (h : strstr needle s = some (a, b)) :
    s = a ++ (needle ++ b) := by
  induction s generalizing a with
  | nil => cases h
  | cons x xs ih =>
      obtain ⟨rfl, hp, rfl⟩ | ⟨-, a', rfl, hs⟩ := strstr_cons_some h
      · obtain ⟨rest, hrest⟩ := hp
        rw [← hrest, List.drop_left, List.nil_append]
      · rw [List.cons_append, ← ih hs]

theorem strstr_append {a b : List UInt8} (h : strstr needle s = some (a, b)) (t : List UInt8) :
    strstr needle (s ++ t) = some (a, b ++ t) := by
  induction s generalizing a with
  | nil => cases h
  | cons x xs ih =>
      have hsplit := strstr_some h
      obtain ⟨rfl, hp, rfl⟩ | ⟨hp, a', rfl, hs⟩ := strstr_cons_some h
      · have hpt : needle.isPrefixOf (x :: (xs ++ t)) = true :=
          List.isPrefixOf_iff_prefix.mpr (hp.trans (List.prefix_append (x :: xs) t))
        rw [List.cons_append, strstr, if_pos hpt, ← List.cons_append,
          List.drop_append_of_le_length hp.length_le]
      · have hlen : needle.length ≤ (x :: xs).length := by
          rw [hsplit, List.length_append, List.length_append]
          omega
        have hpt : ¬ needle.isPrefixOf (x :: (xs ++ t)) = true := by
          intro hn
          have hpre := List.isPrefixOf_iff_prefix.mp hn
          rw [← List.cons_append] at hpre
          exact hp (List.prefix_of_prefix_length_le hpre (List.prefix_append _ _) hlen)
        rw [List.cons_append, strstr, if_neg hpt, ih hs]
        rfl

theorem strstr_skip {c : UInt8} {w : List UInt8} (hw : c ∉ w) (cs : List UInt8) (s : List UInt8) :
    strstr (c :: cs) (w ++ s) = (strstr (c :: cs) s).map fun p => (w ++ p.1, p.2) := by
  induction w with
  | nil => simp
  | cons x w ih =>
      have hx : ¬ (c :: cs).isPrefixOf (x :: (w ++ s)) = true := by
        intro h
        obtain ⟨rest, hrest⟩ := List.isPrefixOf_iff_prefix.mp h
        exact hw ((List.cons.inj hrest).1 ▸ List.mem_cons_self ..)
      rw [List.cons_append, strstr, if_neg hx, ih fun h => hw (List.mem_cons_of_mem _ h),
        Option.map_map]
      rfl

end Search

/-- `!strncmp (a, b, n)` -/
def strncmp (a b : List UInt8) (n : Nat) : Bool := a.take n == b.take n

section Daemon

/-- What `get_valid_hostport` leaves in its buffer; it may also write past the
end of it, and then nothing can be said of the program. -/
inductive Copied
  | valid (out : List UInt8)
  | invalid
  | overrun
  deriving DecidableEq, Repr

def Copied.cons (c : UInt8) : Copied → Copied
  | .valid out => .valid (c :: out)
  | .invalid => .invalid
  | .overrun => .overrun

/-- The loop of `get_valid_hostport` over a buffer of `size` bytes: `out` points
at its byte `i`, and `len` is what the loop counts down. -/
def copyRest (size : Nat) : Bool → Nat → Nat → List UInt8 → Copied
  | _, _, i, [] | _, 0, i, _ => if i < size then .valid [] else .overrun
  | host, len + 1, i, c :: cs =>
      if size ≤ i then .overrun
      else if host && (isAlnum c || c == 45 || c == 46) then
        (copyRest size true len (i + 1) cs).cons c
      else if host && c == 58 then (copyRest size false len (i + 1) cs).cons c
      else if !host && isDigit c then (copyRest size false len (i + 1) cs).cons c
      else .invalid

/-- Hosts begin with alphanumeric only. The first byte is copied without being
counted. -/
def getValidHostport (hostport : List UInt8) (len : Nat) : Copied :=
  match hostport with
  | [] => .invalid
  | c :: cs => if isAlnum c then (copyRest len true len 1 cs).cons c else .invalid

inductive Kind
  | http
  | socks4
  | socks5
  | https
  deriving DecidableEq, Repr

def Kind.scheme : Kind → List UInt8
  | .http => ascii "http"
  | .socks4 => ascii "socks4"
  | .socks5 => ascii "socks5"
  | .https => ascii "https"

def Kind.word : Kind → List UInt8
  | .http => ascii "PROXY"
  | .socks4 => ascii "SOCKS"
  | .socks5 => ascii "SOCKS5"
  | .https => ascii "HTTPS"

def pacKind (pacFmt : List UInt8) (typeLen : Nat) : Option Kind :=
  if strncmp pacFmt (ascii "PROXY") typeLen then some .http
  else if strncmp pacFmt (ascii "SOCKS") typeLen then some .socks4
  else if strncmp pacFmt (ascii "SOCKS5") typeLen then some .socks5
  else if strncmp pacFmt (ascii "HTTPS") typeLen then some .https
  else none

def proxyUri (kind : Kind) (hostport : List UInt8) : List UInt8 :=
  kind.scheme ++ ascii "://" ++ hostport

/-- `host[255]:port[6]\0` -/
def hostportSize : Nat := 6 + 255 + 2

/-- The url that `canonicalize_pac` leaves in a buffer of `len` bytes, none where
it overruns its own buffer. -/
def canonicalizePac (pacFmt : List UInt8) (len : Nat) : Option (List UInt8) :=
  if pacFmt = ascii "DIRECT" then some []
  else
    match strchr 32 pacFmt with
    | none => some []
    | some (type, rest) =>
        match getValidHostport rest hostportSize with
        | .overrun => none
        | .invalid => some []
        | .valid hostport =>
            match pacKind pacFmt type.length with
            | none => some []
            | some kind =>
                let url := proxyUri kind hostport
                if url.length ≥ len then some [] else some (snprintf len url)

/-- A C string as one of the daemon's strings. -/
def text (bs : List UInt8) : String := String.ofList (bs.map fun c => Char.ofNat c.toNat)

end Daemon

section Helper

structure ProxyUri where
  scheme : List UInt8
  host : List UInt8
  port : List UInt8
  deriving DecidableEq, Repr

def kValid : List UInt8 :=
  ascii "ABCDEFGHIJKLMNOPQRSTUVWXYZ" ++ ascii "abcdefghijklmnopqrstuvwxyz" ++ ascii "0123456789" ++
    ascii ".-"

def validateProxyScheme (scheme : List UInt8) : Except String Unit :=
  if scheme = ascii "http" then .ok ()
  else if scheme = ascii "socks4" then .ok ()
  else if scheme = ascii "socks5" then .ok ()
  else .error "invalid proxy scheme"

def validateProxyHost (host : List UInt8) : Except String Unit :=
  if host.all kValid.contains then .ok () else .error "invalid char in host"

def validateProxyPort (port : List UInt8) : Except String Unit :=
  if port.all isDigit then .ok () else .error "invalid char in port"

/-- An error is the message that the helper dies with. -/
def parseProxyUri (proxy : List UInt8) : Except String ProxyUri := do
  let some (scheme, rest) := strstr (ascii "://") proxy | .error "malformed proxy URI"
  let some (host, port) := strchr 58 rest | .error "malformed proxy URI"
  validateProxyScheme scheme
  validateProxyHost host
  validateProxyPort port
  return ⟨scheme, host, port⟩

theorem parseProxyUri_ok {proxy : List UInt8} {uri : ProxyUri} : parseProxyUri proxy = .ok uri ↔
    ∃ rest, strstr (ascii "://") proxy = some (uri.scheme, rest) ∧
      strchr 58 rest = some (uri.host, uri.port) ∧ validateProxyScheme uri.scheme = .ok () ∧
      validateProxyHost uri.host = .ok () ∧ validateProxyPort uri.port = .ok () := by
  rw [parseProxyUri]
  cases hs : strstr (ascii "://") proxy with
  | none => simp
  | some p =>
      obtain ⟨scheme, rest⟩ := p
      cases hc : strchr 58 rest with
      | none => simp [hc]
      | some q =>
          obtain ⟨host, port⟩ := q
          simp only [hc, bind, Except.bind]
          constructor
          · intro h
            cases hscheme : validateProxyScheme scheme <;> rw [hscheme] at h
            · cases h
            cases hhost : validateProxyHost host <;> rw [hhost] at h
            · cases h
            cases hport : validateProxyPort port <;> rw [hport] at h <;> cases h
            exact ⟨rest, rfl, hc, hscheme, hhost, hport⟩
          · rintro ⟨rest', hs', hc', hscheme, hhost, hport⟩
            cases hs'
            rw [hc] at hc'
            cases hc'
            rw [hscheme, hhost, hport]
            rfl

def helperProxy (args : List String) : Except String (Option ProxyUri) :=
  let proxy := match args with
    | ["-x", url] => url
    | _ => "none"
  if proxy = "none" then .ok none else (parseProxyUri (ascii proxy)).map some

end Helper

end Tlsdate.PacProxy
