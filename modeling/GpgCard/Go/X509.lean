-- SUMMARY: `crypto/rsa`'s public key and `x509.MarshalPKIXPublicKey` for it (the PKCS #1 key inside a SubjectPublicKeyInfo), with the DER readings of both structures and what they read back.
import GpgCard.Go.Asn1

/-!
# PKIX public keys

`x509.MarshalPKIXPublicKey` writes an RSA key as a SubjectPublicKeyInfo: a
SEQUENCE of the algorithm, rsaEncryption with NULL parameters, and a BIT
STRING that holds the PKCS #1 RSAPublicKey, itself a SEQUENCE of the modulus
and the exponent.

`readPKIXPublicKey` and `readPKCS1PublicKey` read the two structures from DER
as `MarshalPKIXPublicKey` and `MarshalPKCS1PublicKey` lay them out. The
modulus and exponent come back from every key `MarshalPKIXPublicKey`
marshals (`readPKIXPublicKey_pkixDer`). The PKCS #1 reading of the same bytes
fails (`readPKCS1PublicKey_pkixDer`): they start with the algorithm, not the
modulus.
-/

namespace Go.X509

open Asn1

/-- An `*rsa.PublicKey`: the modulus `N`, a `*big.Int` that may be nil, and the exponent `E`,
    an `int`. Go bounds both: `E` is 64 bits wide, and the magnitude of `N` is a slice of fewer
    than `2^63` 64-bit words. -/
structure PublicKey where
  n : Option Int
  e : Int
  n_fits : ∀ v, n = some v → v.natAbs < 2 ^ (64 * 2 ^ 63)
  e_fits : -2 ^ 63 ≤ e ∧ e < 2 ^ 63

/-- `oidPublicKeyRSA`, 1.2.840.113549.1.1.1. -/
def oidPublicKeyRSA : List Nat := [1, 2, 840, 113549, 1, 1, 1]

/-- `asn1.Marshal(pkcs1PublicKey{N: pub.N, E: pub.E})`: a SEQUENCE of the INTEGERs `N` and
    `E`. -/
def marshalPKCS1PublicKey (pub : PublicKey) : Except StructuralError Bytes := do
  let n ← makeBigInt pub.n
  pure (taggedEncoder 16 true (taggedEncoder 2 false n ++ taggedEncoder 2 false (int64Encoder pub.e)))

/-- `asn1.Marshal(pkix)` for `pkixPublicKey{Algo, BitString}`: a SEQUENCE of the
    AlgorithmIdentifier, the OID and `asn1.NullRawValue`, and the BIT STRING of the key's
    octets, `8 * len` bits long. -/
def marshalPkix (publicKeyBytes : Bytes) : Except StructuralError Bytes := do
  let oid ← makeObjectIdentifier oidPublicKeyRSA
  let algo := taggedEncoder 16 true (taggedEncoder 6 false oid ++ taggedEncoder 5 false [])
  let bits := taggedEncoder 3 false
    (bitStringEncoder ⟨publicKeyBytes, 8 * publicKeyBytes.length⟩)
  pure (taggedEncoder 16 true (algo ++ bits))

/-- `x509.MarshalPKIXPublicKey(pub)` for an `*rsa.PublicKey`. `marshalPublicKey` marshals the
    PKCS #1 key and returns its error; the outer `asn1.Marshal` is called as `ret, _ :=`, its
    error dropped. -/
def marshalPKIXPublicKey (pub : PublicKey) : Except StructuralError Bytes := do
  let publicKeyBytes ← marshalPKCS1PublicKey pub
  let ret := match marshalPkix publicKeyBytes with
    | .ok b => b
    | .error _ => []
  pure ret

-- ---------------------------------------------------------------------------
-- Reading the structures back
-- ---------------------------------------------------------------------------

/-- The content of the AlgorithmIdentifier for rsaEncryption with NULL parameters:
    the OID 1.2.840.113549.1.1.1 and NULL, in DER. -/
def rsaEncryption : Bytes :=
  [0x06, 0x09, 0x2a, 0x86, 0x48, 0x86, 0xf7, 0x0d, 0x01, 0x01, 0x01, 0x05, 0x00]

/-- An RSAPublicKey (PKCS #1) read from DER: a SEQUENCE of two INTEGERs, the modulus and the
    exponent, and nothing after it. -/
def readPKCS1PublicKey (der : Bytes) : Option (Int × Int) := do
  let (t, body, after) ← readTlv der
  if t = 0x30 ∧ after = [] then
    let (tn, n, rest) ← readTlv body
    let (te, e, after) ← readTlv rest
    if tn = 0x02 ∧ te = 0x02 ∧ after = [] then pure (← readInt n, ← readInt e) else none
  else none

/-- A SubjectPublicKeyInfo for rsaEncryption read from DER: a SEQUENCE of the
    algorithm and a BIT STRING with no unused bits whose octets are an RSAPublicKey. -/
def readPKIXPublicKey (der : Bytes) : Option (Int × Int) := do
  let (t, body, after) ← readTlv der
  if t = 0x30 ∧ after = [] then
    let (ta, algo, rest) ← readTlv body
    let (tb, bits, after) ← readTlv rest
    if ta = 0x30 ∧ algo = rsaEncryption ∧ tb = 0x03 ∧ after = [] ∧ bits.headD 1 = 0 then
      readPKCS1PublicKey bits.tail
    else none
  else none

-- ---------------------------------------------------------------------------
-- What `MarshalPKIXPublicKey` writes, and what reads it back
-- ---------------------------------------------------------------------------

/-- The OID of rsaEncryption as `makeObjectIdentifier` writes it. -/
theorem makeObjectIdentifier_oidPublicKeyRSA :
    makeObjectIdentifier oidPublicKeyRSA =
      .ok [0x2a, 0x86, 0x48, 0x86, 0xf7, 0x0d, 0x01, 0x01, 0x01] := by
  simp [makeObjectIdentifier, oidPublicKeyRSA, appendBase128Int, base128IntLength,
    base128IntLength.loop, -Nat.reduceShiftRight, Nat.shiftRight_eq_div_pow]
  decide

/-- The RSAPublicKey with modulus `n` and exponent `e`, as DER. -/
def pkcs1Der (n e : Int) : Bytes :=
  taggedEncoder 16 true (taggedEncoder 2 false (twos n) ++ taggedEncoder 2 false (twos e))

/-- The SubjectPublicKeyInfo for rsaEncryption around that key, as DER. -/
def pkixDer (n e : Int) : Bytes :=
  taggedEncoder 16 true
    (taggedEncoder 16 true rsaEncryption ++ taggedEncoder 3 false (0 :: pkcs1Der n e))

/-- With a modulus, the PKCS #1 marshal writes the RSAPublicKey of the key. -/
theorem marshalPKCS1PublicKey_of_some {pub : PublicKey} {n : Int} (hn : pub.n = some n) :
    marshalPKCS1PublicKey pub = .ok (pkcs1Der n pub.e) := by
  simp only [marshalPKCS1PublicKey, hn, makeBigInt_eq_twos, int64Encoder_eq_twos]
  rfl

/-- With a modulus, `MarshalPKIXPublicKey` writes the SubjectPublicKeyInfo of the key. -/
theorem marshalPKIXPublicKey_of_some {pub : PublicKey} {n : Int} (hn : pub.n = some n) :
    marshalPKIXPublicKey pub = .ok (pkixDer n pub.e) := by
  have hbits : ∀ b : Bytes, bitStringEncoder ⟨b, 8 * b.length⟩ = 0 :: b := fun b => by
    simp only [bitStringEncoder, Nat.mul_mod_right, Nat.sub_zero, Nat.mod_self]
    rfl
  have halgo : taggedEncoder 6 false [0x2a, 0x86, 0x48, 0x86, 0xf7, 0x0d, 0x01, 0x01, 0x01] ++
      taggedEncoder 5 false [] = rsaEncryption := by decide
  simp only [marshalPKIXPublicKey, marshalPKCS1PublicKey_of_some hn, marshalPkix,
    makeObjectIdentifier_oidPublicKeyRSA, halgo, hbits]
  rfl

/-- Without a modulus, `MarshalPKIXPublicKey` fails with `makeBigInt`'s error. -/
theorem marshalPKIXPublicKey_of_none {pub : PublicKey} (hn : pub.n = none) :
    marshalPKIXPublicKey pub = .error ⟨"empty integer"⟩ := by
  simp only [marshalPKIXPublicKey, marshalPKCS1PublicKey, hn, makeBigInt]
  rfl

theorem range_of_natAbs_lt {v : Int} {m : Nat} (h : v.natAbs < m) : -(m : Int) ≤ v ∧ v < m := by
  omega

/-- A modulus Go can hold has a shortest two's complement of at most `2^66 + 1` octets. -/
theorem length_twos_n {pub : PublicKey} {n : Int} (hn : pub.n = some n) :
    (twos n).length ≤ 2 ^ 66 + 1 := by
  have h := pub.n_fits n hn
  rw [show 64 * 2 ^ 63 = 8 * 2 ^ 66 by norm_num, pow_mul] at h
  have hr := range_of_natAbs_lt h
  rw [Nat.cast_pow, Nat.cast_pow] at hr
  exact length_twos_le hr

/-- An exponent Go can hold has a shortest two's complement of at most nine octets. -/
theorem length_twos_e (pub : PublicKey) : (twos pub.e).length ≤ 9 := by
  have := pub.e_fits
  exact length_twos_le (k := 8) (by norm_num at this ⊢; omega)

theorem identOctet_sequence : identOctet 16 true = 0x30 := by decide

theorem identOctet_integer : identOctet 2 false = 0x02 := by decide

theorem identOctet_bitString : identOctet 3 false = 0x03 := by decide

/-- `readTlv` of a whole element, nothing after it. -/
theorem readTlv_taggedEncoder_nil {tag : Nat} (htag : tag < 31) (c : Bool) {body : Bytes}
    (hlen : body.length < 256 ^ 127) :
    readTlv (taggedEncoder tag c body) = some (identOctet tag c, body, []) := by
  rw [← readTlv_taggedEncoder htag c hlen [], List.append_nil]

section Readers

variable {n e : Int} (hn : (twos n).length ≤ 2 ^ 66 + 1) (he : (twos e).length ≤ 9)

include hn he

theorem length_pkcs1Body :
    (taggedEncoder 2 false (twos n) ++ taggedEncoder 2 false (twos e)).length ≤ 2 ^ 66 + 300 := by
  have h1 := length_taggedEncoder_le (show 2 < 31 by decide) false
    (show (twos n).length < 256 ^ 127 by omega)
  have h2 := length_taggedEncoder_le (show 2 < 31 by decide) false
    (show (twos e).length < 256 ^ 127 by omega)
  rw [List.length_append]
  omega

/-- `readPKCS1PublicKey` reads the modulus and the exponent back from the RSAPublicKey. -/
theorem readPKCS1PublicKey_pkcs1Der : readPKCS1PublicKey (pkcs1Der n e) = some (n, e) := by
  have hb := length_pkcs1Body hn he
  simp only [readPKCS1PublicKey, pkcs1Der,
    readTlv_taggedEncoder_nil (show 16 < 31 by decide) true
      (show (taggedEncoder 2 false (twos n) ++ taggedEncoder 2 false (twos e)).length < 256 ^ 127
        by omega),
    readTlv_taggedEncoder (show 2 < 31 by decide) false (show (twos n).length < 256 ^ 127 by omega),
    readTlv_taggedEncoder_nil (show 2 < 31 by decide) false
      (show (twos e).length < 256 ^ 127 by omega),
    identOctet_sequence, identOctet_integer, readInt_twos, Option.bind_eq_bind, Option.some_bind,
    and_self, if_true]
  rfl

theorem length_pkixBody :
    (taggedEncoder 16 true rsaEncryption ++ taggedEncoder 3 false (0 :: pkcs1Der n e)).length ≤
      2 ^ 66 + 700 := by
  have hb := length_pkcs1Body hn he
  have h1 := length_taggedEncoder_le (show 16 < 31 by decide) true
    (show (taggedEncoder 2 false (twos n) ++ taggedEncoder 2 false (twos e)).length < 256 ^ 127
      by omega)
  have h2 := length_taggedEncoder_le (show 3 < 31 by decide) false
    (show (0 :: pkcs1Der n e).length < 256 ^ 127 by rw [List.length_cons, pkcs1Der]; omega)
  rw [List.length_append, List.length_cons, pkcs1Der] at *
  have : (taggedEncoder 16 true rsaEncryption).length = 15 := by decide
  omega

/-- The three elements of the SubjectPublicKeyInfo, as `readTlv` takes them apart. -/
theorem readTlv_pkixDer :
    readTlv (pkixDer n e) = some (0x30,
      taggedEncoder 16 true rsaEncryption ++ taggedEncoder 3 false (0 :: pkcs1Der n e), []) ∧
    readTlv (taggedEncoder 16 true rsaEncryption ++ taggedEncoder 3 false (0 :: pkcs1Der n e)) =
      some (0x30, rsaEncryption, taggedEncoder 3 false (0 :: pkcs1Der n e)) ∧
    readTlv (taggedEncoder 3 false (0 :: pkcs1Der n e)) = some (0x03, 0 :: pkcs1Der n e, []) := by
  have hb := length_pkixBody hn he
  have hk : (0 :: pkcs1Der n e).length < 256 ^ 127 := by
    have := length_le_taggedEncoder 3 false (0 :: pkcs1Der n e)
    rw [List.length_append] at hb
    omega
  refine ⟨?_, ?_, ?_⟩
  · rw [pkixDer, readTlv_taggedEncoder_nil (by decide) true (by omega), identOctet_sequence]
  · rw [readTlv_taggedEncoder (by decide) true (by decide), identOctet_sequence]
  · rw [readTlv_taggedEncoder_nil (by decide) false hk, identOctet_bitString]

/-- `readPKIXPublicKey` reads the modulus and the exponent back from the SubjectPublicKeyInfo. -/
theorem readPKIXPublicKey_pkixDer : readPKIXPublicKey (pkixDer n e) = some (n, e) := by
  obtain ⟨h1, h2, h3⟩ := readTlv_pkixDer hn he
  simp only [readPKIXPublicKey, h1, h2, h3, Option.bind_eq_bind, Option.some_bind, List.headD_cons,
    List.tail_cons, readPKCS1PublicKey_pkcs1Der hn he]
  rfl

/-- The SubjectPublicKeyInfo is not an RSAPublicKey: its first element is the algorithm, a
    SEQUENCE, where PKCS #1 puts the modulus, an INTEGER. -/
theorem readPKCS1PublicKey_pkixDer : readPKCS1PublicKey (pkixDer n e) = none := by
  obtain ⟨h1, h2, h3⟩ := readTlv_pkixDer hn he
  simp only [readPKCS1PublicKey, h1, h2, h3, Option.bind_eq_bind, Option.some_bind]
  rfl

end Readers

end Go.X509
