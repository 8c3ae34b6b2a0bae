-- SUMMARY: `ExportRsaPublicKeyAsPemStr`: an RSA public key as the PEM text of its SubjectPublicKeyInfo, which keys give text, and what the text reads back as.
import GpgCard.Card.Data
import GpgCard.Go.Pem
import GpgCard.Go.X509

/-!
# Exporting a public key

`ExportRsaPublicKeyAsPemStr` marshals an RSA public key with
`x509.MarshalPKIXPublicKey` and wraps the DER in a PEM block of type
`RSA PUBLIC KEY`.

A key gives text exactly when it has a modulus, and the key comes back from the
text: read as a PEM block and then as a SubjectPublicKeyInfo, the text gives the
modulus and exponent the key was exported with
(`exportRsaPublicKeyAsPemStr_roundTrip`). The block's type names the PKCS #1
RSAPublicKey, but what it holds is the SubjectPublicKeyInfo, which does not read
as one (`exportRsaPublicKeyAsPemStr_not_pkcs1`).
-/

namespace Piv

open Go Go.X509

/-- An error `ExportRsaPublicKeyAsPemStr` returns: `fmt.Errorf(format, err)` with `%w` around
    a package error, or around the `asn1.StructuralError` `x509.MarshalPKIXPublicKey` returns. -/
inductive ExportError where
  | wrap (format : String) (cause : Error)
  | wrapMarshal (format : String) (cause : Asn1.StructuralError)
  deriving DecidableEq, Repr

/-- `errors.Is(err, target)` for a sentinel `target`. -/
def ExportError.is : ExportError → Sentinel → Bool
  | .wrap _ e, t => e.is t
  | .wrapMarshal _ _, _ => false

/-- The PEM type `ExportRsaPublicKeyAsPemStr` writes. -/
def rsaPublicKeyType : Bytes := str "RSA PUBLIC KEY"

/-- `ExportRsaPublicKeyAsPemStr(publicKey)`. A nil key is `ErrKeyNotPresent`; an error of
    `x509.MarshalPKIXPublicKey` is wrapped; otherwise the DER goes into `pem.EncodeToMemory` and
    the text is returned. -/
def exportRsaPublicKeyAsPemStr : Option PublicKey → Except ExportError Bytes
  | none => .error (.wrap "nil key for ExportRsaPublicKeyAsPemStr: %w" (.sentinel .keyNotPresent))
  | some publicKey =>
    match marshalPKIXPublicKey publicKey with
    | .error err => .error (.wrapMarshal "failed to marshal for ExportRsaPublicKeyAsPemStr: %w" err)
    | .ok publicKeyBytes => .ok (Pem.encodeToMemory ⟨rsaPublicKeyType, publicKeyBytes⟩)

theorem exportRsaPublicKeyAsPemStr_of_some {pub : PublicKey} {n : Int} (hn : pub.n = some n) :
    exportRsaPublicKeyAsPemStr (some pub) =
      .ok (Pem.encodeToMemory ⟨rsaPublicKeyType, pkixDer n pub.e⟩) := by
  rw [exportRsaPublicKeyAsPemStr, marshalPKIXPublicKey_of_some hn]

theorem exportRsaPublicKeyAsPemStr_of_none {pub : PublicKey} (hn : pub.n = none) :
    exportRsaPublicKeyAsPemStr (some pub) =
      .error (.wrapMarshal "failed to marshal for ExportRsaPublicKeyAsPemStr: %w" ⟨"empty integer"⟩) := by
  rw [exportRsaPublicKeyAsPemStr, marshalPKIXPublicKey_of_none hn]

/-- The bounds Go puts on a key's numbers keep every DER length within what `readTlv` reads. -/
theorem readPKIXPublicKey_of_some {pub : PublicKey} {n : Int} (hn : pub.n = some n) :
    readPKIXPublicKey (pkixDer n pub.e) = some (n, pub.e) :=
  readPKIXPublicKey_pkixDer (length_twos_n hn) (length_twos_e pub)

/-- There is text for a key exactly when the key has a modulus, and every text
    `ExportRsaPublicKeyAsPemStr` returns is ASCII and, read as a PEM block of type
    `RSA PUBLIC KEY` and then as a SubjectPublicKeyInfo, gives back that modulus and the key's
    exponent. -/
theorem exportRsaPublicKeyAsPemStr_roundTrip (pub : PublicKey) :
    ((∃ text, exportRsaPublicKeyAsPemStr (some pub) = .ok text) ↔ pub.n ≠ none) ∧
    ∀ text, exportRsaPublicKeyAsPemStr (some pub) = .ok text →
      Ascii text ∧ ∃ n, pub.n = some n ∧
        (Pem.decode rsaPublicKeyType text).bind readPKIXPublicKey = some (n, pub.e) := by
  cases hn : pub.n with
  | none => simp [exportRsaPublicKeyAsPemStr_of_none hn]
  | some n =>
    rw [exportRsaPublicKeyAsPemStr_of_some hn]
    refine ⟨by simp, fun text h => ?_⟩
    cases h
    have hty : Ascii rsaPublicKeyType := by decide
    refine ⟨Pem.ascii_encodeToMemory ⟨rsaPublicKeyType, pkixDer n pub.e⟩ hty, n, rfl, ?_⟩
    rw [Pem.decode_encodeToMemory, Option.some_bind, readPKIXPublicKey_of_some hn]

/-- The block's type, `RSA PUBLIC KEY`, is the PEM type of a PKCS #1 RSAPublicKey, but the block
    holds the SubjectPublicKeyInfo `MarshalPKIXPublicKey` writes, `pkixDer`. For every key with a
    modulus that DER reads as a SubjectPublicKeyInfo of the key and not as an RSAPublicKey,
    while the RSAPublicKey `MarshalPKCS1PublicKey` writes for the key, `pkcs1Der`, reads as
    one. -/
theorem exportRsaPublicKeyAsPemStr_not_pkcs1 (pub : PublicKey) :
    (exportRsaPublicKeyAsPemStr (some pub)).toOption.bind (Pem.decode rsaPublicKeyType) =
      pub.n.map (fun n => pkixDer n pub.e) ∧
    ∀ n, pub.n = some n →
      readPKIXPublicKey (pkixDer n pub.e) = some (n, pub.e) ∧
      readPKCS1PublicKey (pkixDer n pub.e) = none ∧
      marshalPKCS1PublicKey pub = .ok (pkcs1Der n pub.e) ∧
      readPKCS1PublicKey (pkcs1Der n pub.e) = some (n, pub.e) := by
  refine ⟨?_, fun n hn => ⟨readPKIXPublicKey_of_some hn,
    readPKCS1PublicKey_pkixDer (length_twos_n hn) (length_twos_e pub),
    marshalPKCS1PublicKey_of_some hn,
    readPKCS1PublicKey_pkcs1Der (length_twos_n hn) (length_twos_e pub)⟩⟩
  cases hn : pub.n with
  | none => simp [exportRsaPublicKeyAsPemStr_of_none hn, Except.toOption]
  | some n =>
    simp only [exportRsaPublicKeyAsPemStr_of_some hn, Except.toOption, Option.some_bind,
      Pem.decode_encodeToMemory, Option.map_some']

end Piv
