import Mathlib.Data.Nat.Size
import Tlsdate.PacProxy
import Tlsdate.Wildcard

namespace Tlsdate.CertCheck

open ProxyBio (ascii cString)
open Wildcard (Bytes strcaseeq checkWildcardMatch)

inductive PublicKey
  | rsa (n : Nat)
  | rsa2 (n : Nat)
  | dsa (p : Nat)
  | dsa1 (p : Nat)
  | dsa2 (p : Nat)
  | dsa3 (p : Nat)
  | dsa4 (p : Nat)
  | dh (pubKey : Nat)
  | ec (bits : Nat)
  | other

def PublicKey.isEc : PublicKey → Bool
  | .ec _ => true
  | _ => false

structure ConfValue where
  name : Bytes
  value : Bytes

/-- What OpenSSL makes of an extension: it may know no method for it, fail to
decode it, and have no conversion to names. -/
inductive Content
  | noMethod
  | undecodable
  | noNames
  | names (values : List ConfValue)

structure Extension where
  shortName : Bytes
  content : Content

structure Certificate where
  commonName : Option Bytes
  extensions : List Extension
  key : Option PublicKey

def x509VOk : Int := 0
def x509VErrDepthZeroSelfSignedCert : Int := 18
def x509VErrSelfSignedCertInChain : Int := 19

def minPubKeyLen : Nat := 1023
def minEccPubKeyLen : Nat := 160
def maxEccPubKeyLen : Nat := 521

def tlsdateHostNameMax : Nat := 255

def dieUnless (ok : Bool) (message : String) : Except String Unit :=
  if ok then .ok () else .error message

def getCertificateKeybits : PublicKey → Except String Nat
  | .rsa n | .rsa2 n => .ok n.size
  | .dsa p | .dsa1 p | .dsa2 p | .dsa3 p | .dsa4 p => .ok p.size
  | .dh pubKey => .ok pubKey.size
  | .ec bits => .ok bits
  | .other => .error "unknown public key type"

/-- `check_key_length`; an error is the message that the helper dies with. -/
def checkKeyLength (certificate : Option Certificate) : Except String Unit :=
  match certificate with
  | none => .error "Getting certificate failed"
  | some certificate =>
      match certificate.key with
      | none => .error "public key extraction failure"
      | some publicKey => do
          let keyBits ← getCertificateKeybits publicKey
          if minPubKeyLen ≥ keyBits ∧ publicKey.isEc = false then
            .error s!"Unsafe public key size: {keyBits} bits"
          else if publicKey.isEc then
            if keyBits ≥ minEccPubKeyLen ∧ keyBits ≤ maxEccPubKeyLen then .ok ()
            else .error s!"Unsafe ECC key size: {keyBits} bits"
          else .ok ()

def verifySignature (certificate : Option Certificate) (verifyResult : Int) : Except String Unit :=
  match certificate with
  | none => .error "Getting certificate failed"
  | some _ =>
      if verifyResult = x509VErrDepthZeroSelfSignedCert ∨
          verifyResult = x509VErrSelfSignedCertInChain then
        .error "certificate is self signed"
      else if verifyResult = x509VOk then .ok ()
      else .error s!"certification verification error: {verifyResult}"

/-- `X509_NAME_get_text_by_NID` leaves room for a NUL. -/
def getTextByNid (text : Option Bytes) (len : Nat) : Option Bytes := text.map (·.take (len - 1))

def checkCn (certificate : Option Certificate) (hostname : Bytes) : Except String Bool :=
  match certificate with
  | none => .error "Unable to extract certificate"
  | some certificate =>
      match getTextByNid certificate.commonName tlsdateHostNameMax with
      | none => .error "Unable to extract commonName"
      | some cnBuf =>
          if cnBuf.length ≠ (cString cnBuf).length then .error "Unable to extract commonName"
          else .ok (strcaseeq cnBuf hostname)

section Names

variable (hostname : Bytes)

def sanNames : Bool → List ConfValue → Bool
  | ok, [] => ok
  | ok, nval :: rest =>
      if strcaseeq nval.name (ascii "DNS") && strcaseeq nval.value hostname ||
          strcaseeq nval.name (ascii "iPAddress") && strcaseeq nval.value hostname then
        true
      -- attempt to match subjectAltName DNS names
      else if strcaseeq nval.name (ascii "DNS") then
        let ok := checkWildcardMatch hostname nval.value ≠ 0
        if ok then true else sanNames ok rest
      else sanNames ok rest

/-- The loop over the extensions; a subjectAltName that OpenSSL cannot read ends it. -/
def sanExtensions : Bool → List Extension → Bool
  | ok, [] => ok
  | ok, ext :: rest =>
      if ext.shortName = ascii "subjectAltName" then
        match ext.content with
        | .noMethod | .undecodable => ok
        | .noNames => if ok then ok else sanExtensions ok rest
        | .names values =>
            let ok := sanNames hostname ok values
            if ok then ok else sanExtensions ok rest
      else if ok then ok else sanExtensions ok rest

end Names

def checkSan (certificate : Option Certificate) (hostname : Bytes) : Except String Bool :=
  match certificate with
  | none => .error "Getting certificate failed"
  | some certificate => .ok (sanExtensions hostname false certificate.extensions)

/-- `check_name`; `host` is the host of the connection, which a proxy replaces. -/
def checkName (certificate : Option Certificate) (hostname host : Bytes) : Except String Nat := do
  let cn ← checkCn certificate hostname
  let san ← checkSan certificate hostname
  let ret := cn.toNat + san.toNat
  let name := PacProxy.text host
  if ret ≠ 0 then .ok ret else .error s!"hostname verification failed for host {name}!"

def inspectKey (certificate : Option Certificate) (verifyResult : Int) (hostname host : Bytes) :
    Except String Unit := do
  verifySignature certificate verifyResult
  let _ ← checkName certificate hostname host
  return ()

def PublicKey.Safe : PublicKey → Prop
  | .rsa n | .rsa2 n => 2 ^ minPubKeyLen ≤ n
  | .dsa p | .dsa1 p | .dsa2 p | .dsa3 p | .dsa4 p => 2 ^ minPubKeyLen ≤ p
  | .dh pubKey => 2 ^ minPubKeyLen ≤ pubKey
  | .ec bits => minEccPubKeyLen ≤ bits ∧ bits ≤ maxEccPubKeyLen
  | .other => False

section Hostname

variable (hostname : Bytes)

def NamesHost (nval : ConfValue) : Prop :=
  strcaseeq nval.value hostname = true ∧
      (strcaseeq nval.name (ascii "DNS") = true ∨ strcaseeq nval.name (ascii "iPAddress") = true) ∨
    strcaseeq nval.name (ascii "DNS") = true ∧ checkWildcardMatch hostname nval.value ≠ 0

def Extension.Unreadable (ext : Extension) : Prop :=
  ext.shortName = ascii "subjectAltName" ∧ (ext.content = .noMethod ∨ ext.content = .undecodable)

def Covers (extensions : List Extension) : Prop :=
  ∃ before ext after values, extensions = before ++ ext :: after ∧
    (∀ e ∈ before, ¬ e.Unreadable) ∧ ext.shortName = ascii "subjectAltName" ∧
    ext.content = .names values ∧ ∃ nval ∈ values, NamesHost hostname nval

/-- The commonName, as far as it is read, is one string without a NUL and the
host is named by it or by a subjectAltName. -/
def Certificate.Names (certificate : Certificate) : Prop :=
  ∃ cn, certificate.commonName = some cn ∧
    (0 : UInt8) ∉ cn.take (tlsdateHostNameMax - 1) ∧
    (strcaseeq (cn.take (tlsdateHostNameMax - 1)) hostname = true ∨
      Covers hostname certificate.extensions)

end Hostname

section Checks

variable {hostname host : Bytes} {certificate : Option Certificate}

theorem bind_ok {ε α β : Type} {x : Except ε α} {f : α → Except ε β} {b : β} :
    (x >>= f) = .ok b ↔ ∃ a, x = .ok a ∧ f a = .ok b := by
  cases x with
  | error e =>
      constructor
      · intro h
        cases h
      · rintro ⟨_, h, _⟩
        cases h
  | ok a =>
      constructor
      · exact fun h => ⟨a, rfl, h⟩
      · rintro ⟨_, h, hf⟩
        cases h
        exact hf

theorem dieUnless_ok {c : Bool} {message : String} :
    dieUnless c message = .ok () ↔ c = true := by
  cases c <;> simp [dieUnless]

theorem dieUnless_bind {α : Type} {c : Bool} {message : String} {f : Unit → Except String α} {b : α} :
    (dieUnless c message >>= f) = .ok b ↔ c = true ∧ f () = .ok b := by
  rw [bind_ok, ← dieUnless_ok ]
  exact ⟨fun ⟨_, hc, hf⟩ => ⟨hc, hf⟩, fun ⟨hc, hf⟩ => ⟨(), hc, hf⟩⟩

theorem ite_ok {ε : Type} {c : Prop} [Decidable c] {e : ε} :
    (if c then .ok () else .error e) = (.ok () : Except ε Unit) ↔ c := by
  by_cases h : c <;> simp [h]

theorem ite_error {ε : Type} {c : Prop} [Decidable c] {e : ε} {x : Except ε Unit} :
    (if c then .error e else x) = .ok () ↔ ¬ c ∧ x = .ok () := by
  by_cases h : c <;> simp [h]

theorem getCertificateKeybits_safe {key : PublicKey} :
    key.Safe ↔ ∃ keyBits, getCertificateKeybits key = .ok keyBits ∧
      if key.isEc then minEccPubKeyLen ≤ keyBits ∧ keyBits ≤ maxEccPubKeyLen
      else minPubKeyLen < keyBits := by
  cases key <;> simp [PublicKey.Safe, getCertificateKeybits, PublicKey.isEc, Nat.lt_size]

theorem checkKeyLength_ok : checkKeyLength certificate = .ok () ↔
    ∃ cert key, certificate = some cert ∧ cert.key = some key ∧ key.Safe := by
  cases certificate with
  | none => simp [checkKeyLength]
  | some cert =>
      cases hkey : cert.key with
      | none => simp [checkKeyLength, hkey]
      | some key =>
          have hcert : (∃ c k, some cert = some c ∧ c.key = some k ∧ k.Safe) ↔ key.Safe := by
            simp [hkey]
          rw [hcert, getCertificateKeybits_safe]
          simp only [checkKeyLength, hkey, bind_ok, ite_error]
          refine exists_congr fun keyBits => and_congr_right fun _ => ?_
          cases key.isEc <;> simp

theorem verifySignature_ok {verifyResult : Int} : verifySignature certificate verifyResult = .ok () ↔
    certificate.isSome = true ∧ verifyResult = x509VOk := by
  cases certificate with
  | none => simp [verifySignature]
  | some cert =>
      simp only [verifySignature, ite_error, ite_ok, Option.isSome_some, true_and]
      refine ⟨And.right, fun h => ⟨?_, h⟩⟩
      rw [h]
      decide

theorem sanNames_iff (values : List ConfValue) :
    sanNames hostname false values = true ↔ ∃ nval ∈ values, NamesHost hostname nval := by
  induction values with
  | nil => simp [sanNames]
  | cons nval rest ih =>
      rw [sanNames, List.exists_mem_cons_iff, ← ih, NamesHost]
      by_cases hw : checkWildcardMatch hostname nval.value = 0 <;>
        cases strcaseeq nval.name (ascii "DNS") <;>
        cases strcaseeq nval.name (ascii "iPAddress") <;>
        cases strcaseeq nval.value hostname <;> simp [hw]

theorem covers_cons {ext : Extension} {rest : List Extension} :
    Covers hostname (ext :: rest) ↔
      (ext.shortName = ascii "subjectAltName" ∧ ∃ values, ext.content = .names values ∧
        ∃ nval ∈ values, NamesHost hostname nval) ∨
      ¬ ext.Unreadable ∧ Covers hostname rest := by
  constructor
  · rintro ⟨before, ext', after, values, he, hbefore, hsan, hcontent, hnamed⟩
    cases before with
    | nil =>
        obtain ⟨rfl, rfl⟩ := List.cons.inj he
        exact Or.inl ⟨hsan, values, hcontent, hnamed⟩
    | cons e before =>
        obtain ⟨rfl, rfl⟩ := List.cons.inj he
        obtain ⟨hread, hbefore⟩ := List.forall_mem_cons.mp hbefore
        exact Or.inr ⟨hread, before, ext', after, values, rfl, hbefore, hsan, hcontent, hnamed⟩
  · rintro (⟨hsan, values, hcontent, hnamed⟩ |
      ⟨hread, before, ext', after, values, rfl, hbefore, hsan, hcontent, hnamed⟩)
    · exact ⟨[], ext, rest, values, rfl, by simp, hsan, hcontent, hnamed⟩
    · exact ⟨ext :: before, ext', after, values, rfl, List.forall_mem_cons.mpr ⟨hread, hbefore⟩,
        hsan, hcontent, hnamed⟩

theorem sanExtensions_iff (extensions : List Extension) :
    sanExtensions hostname false extensions = true ↔ Covers hostname extensions := by
  induction extensions with
  | nil => simp [sanExtensions, Covers]
  | cons ext rest ih =>
      rw [sanExtensions, covers_cons, ← ih, Extension.Unreadable]
      by_cases hsan : ext.shortName = ascii "subjectAltName"
      · rw [if_pos hsan]
        cases hcontent : ext.content with
        | noMethod => simp [hsan]
        | undecodable => simp [hsan]
        | noNames => simp [hsan]
        | names values =>
            have hnames := @sanNames_iff hostname values
            cases hok : sanNames hostname false values <;> simp [hsan, ← hnames, hok]
      · simp [hsan]

theorem cString_whole {s : Bytes} : s.length = (cString s).length ↔ (0 : UInt8) ∉ s := by
  have hall : cString s = s ↔ (0 : UInt8) ∉ s := by
    rw [cString, List.takeWhile_eq_self_iff]
    simp [List.forall_mem_ne']
  rw [← hall]
  exact ⟨fun h => (List.takeWhile_prefix _).eq_of_length h.symm, fun h => by rw [h]⟩

theorem checkCn_ok {ok : Bool} : checkCn certificate hostname = .ok ok ↔
    ∃ cert cn, certificate = some cert ∧ cert.commonName = some cn ∧
      (0 : UInt8) ∉ cn.take (tlsdateHostNameMax - 1) ∧
      strcaseeq (cn.take (tlsdateHostNameMax - 1)) hostname = ok := by
  cases certificate with
  | none => simp [checkCn]
  | some cert =>
      cases hcn : cert.commonName with
      | none => simp [checkCn, getTextByNid, hcn]
      | some cn =>
          simp only [checkCn, getTextByNid, hcn, Option.map_some, ne_eq, cString_whole]
          by_cases hnul : (0 : UInt8) ∈ cn.take (tlsdateHostNameMax - 1) <;> simp [hcn, hnul]

theorem checkSan_ok {ok : Bool} : checkSan certificate hostname = .ok ok ↔
    ∃ cert, certificate = some cert ∧ sanExtensions hostname false cert.extensions = ok := by
  cases certificate <;> simp [checkSan]

/-- Which names are checked does not depend on the host that the connection is for. -/
theorem checkName_ok : (∃ ret, checkName certificate hostname host = .ok ret) ↔
    ∃ cert, certificate = some cert ∧ cert.Names hostname := by
  simp only [checkName, bind_ok, checkCn_ok, checkSan_ok]
  constructor
  · rintro ⟨ret, cn, ⟨cert, name, rfl, hcn, hnul, rfl⟩, san, ⟨_, hcert, rfl⟩, hret⟩
    obtain rfl := Option.some.inj hcert
    refine ⟨cert, rfl, name, hcn, hnul, ?_⟩
    rw [← sanExtensions_iff]
    by_contra hno
    simp_all
  · rintro ⟨cert, rfl, name, hcn, hnul, hnamed⟩
    rw [← sanExtensions_iff] at hnamed
    refine ⟨_, _, ⟨cert, name, rfl, hcn, hnul, rfl⟩, _, ⟨cert, rfl, rfl⟩, if_pos ?_⟩
    rcases hnamed with h | h <;> simp [h]

theorem inspectKey_ok {verifyResult : Int} :
    inspectKey certificate verifyResult hostname host = .ok () ↔
      verifyResult = x509VOk ∧ ∃ cert, certificate = some cert ∧ cert.Names hostname := by
  rw [← @checkName_ok hostname host, inspectKey, bind_ok]
  constructor
  · rintro ⟨_, hv, h⟩
    obtain ⟨ret, hret, -⟩ := bind_ok.mp h
    exact ⟨(verifySignature_ok.mp hv).2, ret, hret⟩
  · rintro ⟨hv, ret, hret⟩
    obtain ⟨cert, rfl, -⟩ := checkName_ok.mp ⟨ret, hret⟩
    exact ⟨(), verifySignature_ok.mpr ⟨rfl, hv⟩, bind_ok.mpr ⟨ret, hret, rfl⟩⟩

end Checks

end Tlsdate.CertCheck
