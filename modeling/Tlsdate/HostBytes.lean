import Mathlib.Algebra.Order.Ring.Nat
import Mathlib.Tactic.NormNum

namespace Tlsdate.HostBytes

inductive ByteOrder
  | little
  | big
  deriving DecidableEq, Repr

def toDigits : Nat → Nat → List UInt8
  | 0, _ => []
  | w + 1, n => UInt8.ofNat (n % 256) :: toDigits w (n / 256)

def ofDigits : List UInt8 → Nat
  | [] => 0
  | b :: bs => b.toNat + 256 * ofDigits bs

theorem toDigits_length (w n : Nat) : (toDigits w n).length = w := by
  induction w generalizing n with
  | zero => rfl
  | succ w ih => simp [toDigits, ih]

theorem ofDigits_toDigits (w n : Nat) (h : n < 256 ^ w) : ofDigits (toDigits w n) = n := by
  induction w generalizing n with
  | zero => simp_all [toDigits, ofDigits]
  | succ w ih =>
      have hn : n / 256 < 256 ^ w := by
        rw [Nat.pow_succ] at h
        omega
      have hb : (UInt8.ofNat (n % 256)).toNat = n % 256 := by
        rw [UInt8.toNat_ofNat']
        omega
      rw [toDigits, ofDigits, ih _ hn, hb]
      omega

theorem ofDigits_lt (bs : List UInt8) : ofDigits bs < 256 ^ bs.length := by
  induction bs with
  | nil => decide
  | cons b bs ih =>
      have hb := b.toNat_lt
      rw [ofDigits, List.length_cons, Nat.pow_succ]
      omega

def encode (order : ByteOrder) (w : Nat) (n : Nat) : List UInt8 :=
  match order with
  | .little => toDigits w n
  | .big => (toDigits w n).reverse

def decode (order : ByteOrder) (bytes : List UInt8) : Nat :=
  match order with
  | .little => ofDigits bytes
  | .big => ofDigits bytes.reverse

theorem decode_lt (order : ByteOrder) (bytes : List UInt8) : decode order bytes < 256 ^ bytes.length := by
  cases order with
  | little => exact ofDigits_lt bytes
  | big => simpa only [decode, List.length_reverse] using ofDigits_lt bytes.reverse

theorem encode_length (order : ByteOrder) (w n : Nat) : (encode order w n).length = w := by
  cases order <;> simp [encode, toDigits_length]

theorem decode_encode (order : ByteOrder) (w n : Nat) (h : n < 256 ^ w) :
    decode order (encode order w n) = n := by
  cases order <;> simp [encode, decode, ofDigits_toDigits w n h]

def encodeSigned (order : ByteOrder) (w : Nat) (x : Int) : List UInt8 :=
  encode order w (x % (256 ^ w : Nat)).toNat

def decodeSigned (order : ByteOrder) (bytes : List UInt8) : Int :=
  Int.bmod (decode order bytes) (256 ^ bytes.length)

theorem encodeSigned_length (order : ByteOrder) (w : Nat) (x : Int) :
    (encodeSigned order w x).length = w :=
  encode_length order w _

theorem decodeSigned_encodeSigned (order : ByteOrder) (w : Nat) (x : Int)
    (hx : Int.bmod x (256 ^ w) = x) : decodeSigned order (encodeSigned order w x) = x := by
  have hpos : 0 < 256 ^ w := Nat.pow_pos (by decide)
  have hlt : (x % (256 ^ w : Nat)).toNat < 256 ^ w := by
    have h := Int.emod_lt_of_pos x (Int.natCast_pos.mpr hpos)
    omega
  have hnn : 0 ≤ x % (256 ^ w : Nat) := Int.emod_nonneg _ (by omega)
  rw [decodeSigned, encodeSigned_length, encodeSigned, decode_encode order w _ hlt,
    Int.toNat_of_nonneg hnn, Int.emod_bmod, hx]

theorem toDigits_ofDigits (bs : List UInt8) : toDigits bs.length (ofDigits bs) = bs := by
  induction bs with
  | nil => rfl
  | cons b bs ih =>
      have hb := b.toNat_lt
      have hlow : (b.toNat + 256 * ofDigits bs) % 256 = b.toNat := by omega
      have hhigh : (b.toNat + 256 * ofDigits bs) / 256 = ofDigits bs := by omega
      rw [ofDigits, List.length_cons, toDigits, hlow, hhigh, ih, UInt8.ofNat_toNat]

theorem encode_decode (order : ByteOrder) (bytes : List UInt8) :
    encode order bytes.length (decode order bytes) = bytes := by
  cases order with
  | little => exact toDigits_ofDigits bytes
  | big =>
      have h := toDigits_ofDigits bytes.reverse
      rw [List.length_reverse] at h
      rw [encode, decode, h, List.reverse_reverse]

/-- The word that the bytes of `n` stand for in network order. -/
def ntohl (order : ByteOrder) (n : UInt32) : UInt32 :=
  UInt32.ofNat (decode .big (encode order 4 n.toNat))

def htonl (order : ByteOrder) (n : UInt32) : UInt32 :=
  UInt32.ofNat (decode order (encode .big 4 n.toNat))

def word32 (order : ByteOrder) (bytes : List UInt8) : UInt32 := UInt32.ofNat (decode order bytes)

theorem word32_toNat (order : ByteOrder) {bytes : List UInt8} (h : bytes.length = 4) :
    (word32 order bytes).toNat = decode order bytes := by
  have hlt := decode_lt order bytes
  rw [h] at hlt
  exact (UInt32.toNat_ofNat' ..).trans (Nat.mod_eq_of_lt hlt)

theorem ntohl_word32 (order : ByteOrder) {bytes : List UInt8} (h : bytes.length = 4) :
    ntohl order (word32 order bytes) = word32 .big bytes := by
  have hencode := encode_decode order bytes
  rw [h] at hencode
  rw [ntohl, word32_toNat order h, hencode, word32]

theorem ntohl_htonl (order : ByteOrder) (n : UInt32) : ntohl order (htonl order n) = n := by
  have hlen : (encode .big 4 n.toNat).length = 4 := encode_length .big 4 n.toNat
  have hdecode : decode .big (encode .big 4 n.toNat) = n.toNat :=
    decode_encode .big 4 n.toNat n.toNat_lt
  rw [htonl, ← word32, ntohl_word32 order hlen, word32, hdecode, UInt32.ofNat_toNat]

end Tlsdate.HostBytes
