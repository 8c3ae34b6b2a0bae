-- SUMMARY: The extended-capabilities decoder: the 1-based byte accessors, the two setters, `isSupported` and `loadExtendedData`, and what the decoded record says about the block.
import GpgCard.Card.Data

/-!
# Extended capabilities

`loadExtendedData` reads the ten-byte block under `6E.73.C0` (OpenPGP card
3.4, 4.4.3.7) into the record's capability fields. It first sets six of the
fields back to their zero values; an absent block then ends the call with no
error, and a present one is decoded through accessors that count bytes from 1,
as the card specification does.

`SecureMessagingAlgorithmLast`, the greatest secure-messaging algorithm code
the package knows, is declared in a file of the package that is not part of
this development; it is a parameter here.
-/

namespace Piv

open Go

-- ---------------------------------------------------------------------------
-- Constants
-- ---------------------------------------------------------------------------

/-- Modelled from the spec: the tag path of the extended-capabilities block, `6E.73.C0` in the
    source's comment. -/
def extendedCapabilitiesTag : String := "6E.73.C0"

/-- Modelled from the spec: `NoSecureMessaging`, the zero `SecureMessagingAlgorithm`. -/
def noSecureMessaging : UInt8 := 0

/-! The bits of the first block byte, bit 8 first, each the flag of one capability as the
source's comments number them (`// byte1 bit8` is secure messaging). -/

namespace Mask

/-- Modelled from the spec: `SecureMessaging`, byte 1 bit 8. -/
def secureMessaging : UInt8 := 0x80
/-- Modelled from the spec: `GetChallenge`, byte 1 bit 7. -/
def getChallenge : UInt8 := 0x40
/-- Modelled from the spec: `KeyImport`, byte 1 bit 6. -/
def keyImport : UInt8 := 0x20
/-- Modelled from the spec: `PWStatusChangeable`, byte 1 bit 5. -/
def pwStatusChangeable : UInt8 := 0x10
/-- Modelled from the spec: `PrivateUseDOs`, byte 1 bit 4. -/
def privateUseDOs : UInt8 := 0x08
/-- Modelled from the spec: `AlgorithmAttributesChangeable`, byte 1 bit 3. -/
def algorithmAttributesChangeable : UInt8 := 0x04
/-- Modelled from the spec: `PSODECENCwithAES`, byte 1 bit 2. -/
def psoDecEncWithAES : UInt8 := 0x02
/-- Modelled from the spec: `KDFSupported`, byte 1 bit 1. -/
def kdfSupported : UInt8 := 0x01

end Mask

-- ---------------------------------------------------------------------------
-- The 1-based accessors
-- ---------------------------------------------------------------------------

/-- `getBytesWith1BasedIndexing(b, start, end)`: bytes `start` to `end` of `b`, counted from 1
    (`b[start-1:end]`). A nil slice (`none`) or a bound past the end is `ErrNotFound`. What the
    test lets through below the block, a start under 1 or a range inverted by more than one
    byte, makes the slice expression panic. -/
def getBytesWith1BasedIndexing (b : Option Bytes) (start stop : Int) : Result Bytes :=
  match b with
  | none => .error (.sentinel .notFound)
  | some b =>
    if start > b.length ∨ stop > b.length then .error (.sentinel .notFound)
    else monadLift (sliceInt b (start - 1) stop)

/-- `getByteWith1BasedIndexing(b, index)`: byte `index` of `b`, counted from 1 (`b[index-1]`). A
    nil slice or an index past the end is `ErrNotFound`; an index under 1, also on an empty slice
    that is not nil, makes `b[index-1]` panic. -/
def getByteWith1BasedIndexing (b : Option Bytes) (index : Int) : Result UInt8 :=
  match b with
  | none => .error (.sentinel .notFound)
  | some b =>
    if index > b.length then .error (.sentinel .notFound)
    else monadLift (indexInt b (index - 1))

theorem getByteWith1BasedIndexing_eq {b : Bytes} {index : Int} (h0 : 0 < index)
    (h : index ≤ b.length) :
    getByteWith1BasedIndexing (some b) index = .ok (b.getD (index - 1).toNat 0) := by
  simp only [getByteWith1BasedIndexing, gt_iff_lt, Int.not_lt.mpr h, if_false,
    indexInt_eq_some (show 0 ≤ index - 1 by omega) (show index - 1 < b.length by omega),
    Result.lift_some]

/-- A range of two bytes is those two bytes. -/
theorem getBytesWith1BasedIndexing_pair {b : Bytes} {start stop : Int} (h0 : 0 < start)
    (hs : stop = start + 1) (h : stop ≤ b.length) :
    getBytesWith1BasedIndexing (some b) start stop =
      .ok [b.getD (start - 1).toNat 0, b.getD start.toNat 0] := by
  subst hs
  have hi : (start - 1).toNat + 1 < b.length := by omega
  have hslice : sliceInt b (start - 1) (start + 1) =
      some [b.getD (start - 1).toNat 0, b.getD start.toNat 0] := by
    rw [sliceInt_eq_some (by omega) (by omega) h, show (start + 1 - (start - 1)).toNat = 2 by omega,
      take_succ_drop (show (start - 1).toNat < b.length by omega), take_succ_drop hi,
      List.take_zero, show (start - 1).toNat + 1 = start.toNat by omega]
  rw [show getBytesWith1BasedIndexing (some b) start (start + 1) =
      monadLift (sliceInt b (start - 1) (start + 1)) from if_neg (by omega), hslice]
  rfl

/-- The two accessors count alike: within the block, the range from `start` to `end` is
    `end - start + 1` bytes, and its `j`-th is the byte `getByteWith1BasedIndexing` reads at
    `start + j`. -/
theorem getBytesWith1BasedIndexing_reads_bytes (b : Bytes) {start stop : Int} (h1 : 1 ≤ start)
    (hle : start ≤ stop + 1) (hs : start ≤ b.length) (ht : stop ≤ b.length) :
    ∃ r, getBytesWith1BasedIndexing (some b) start stop = .ok r ∧
      r.length = (stop - start + 1).toNat ∧
      ∀ j : Nat, j < r.length → getByteWith1BasedIndexing (some b) (start + j) = .ok (r.getD j 0) := by
  have hr : getBytesWith1BasedIndexing (some b) start stop =
      .ok ((b.drop (start - 1).toNat).take (stop - (start - 1)).toNat) := by
    simp only [getBytesWith1BasedIndexing, gt_iff_lt, Int.not_lt.mpr hs, Int.not_lt.mpr ht,
      or_self, if_false, sliceInt_eq_some (show 0 ≤ start - 1 by omega) (by omega) ht,
      Result.lift_some]
  have hlen : ((b.drop (start - 1).toNat).take (stop - (start - 1)).toNat).length =
      (stop - start + 1).toNat := by
    simp only [List.length_take, List.length_drop]; omega
  refine ⟨_, hr, hlen, fun j hj => ?_⟩
  rw [hlen] at hj
  have hbyte : getByteWith1BasedIndexing (some b) (start + j) =
      .ok (b.getD (start + j - 1).toNat 0) := getByteWith1BasedIndexing_eq (by omega) (by omega)
  rw [hbyte, List.getD_eq_getElem?_getD, List.getD_eq_getElem?_getD,
    List.getElem?_take_of_lt (show j < (stop - (start - 1)).toNat by omega), List.getElem?_drop,
    show (start - 1).toNat + j = (start + j - 1).toNat by omega]

/-- Bytes 2 and 3 of a three-byte block are its last two, one at a time. -/
theorem getBytesWith1BasedIndexing_reads_bytes_two_three :
    1 ≤ (2 : Int) ∧ (2 : Int) ≤ 3 + 1 ∧ (2 : Int) ≤ ([7, 8, 9] : Bytes).length ∧
      (3 : Int) ≤ ([7, 8, 9] : Bytes).length ∧
      ∃ r, getBytesWith1BasedIndexing (some [7, 8, 9]) 2 3 = .ok r ∧ r.length = (3 - 2 + 1 : Int).toNat ∧
        ∀ j : Nat, j < r.length →
          getByteWith1BasedIndexing (some [7, 8, 9]) (2 + j) = .ok (r.getD j 0) :=
  ⟨by decide, by decide, by decide, by decide,
    getBytesWith1BasedIndexing_reads_bytes _ (by decide) (by decide) (by decide) (by decide)⟩

/-- `isSupported`: every bit of `flagValue` is set in `capabilitiesByte`. -/
def isSupported (capabilitiesByte flagValue : UInt8) : Bool :=
  capabilitiesByte &&& flagValue == flagValue

-- ---------------------------------------------------------------------------
-- The decoder
-- ---------------------------------------------------------------------------

section Decoder

variable (secureMessagingAlgorithmLast : UInt8)

/-- `setSecureMessaging`: when the card announces secure messaging, the algorithm byte must be a
    known code; it is then recorded. -/
def GpgData.setSecureMessaging (capabilitiesByte smByte : UInt8) : Method Unit := do
  if capabilitiesByte &&& Mask.secureMessaging ≠ Mask.secureMessaging then return
  if smByte > secureMessagingAlgorithmLast then throw (.sentinel .noSuchAlgorithm)
  modify fun g => { g with secureMessagingSupported := true, secureMessaging := smByte }

/-- `setGetChallengeSupported`: when the card announces GET CHALLENGE, the two bytes of its
    maximum length are recorded. -/
def GpgData.setGetChallengeSupported (capabilitiesByte : UInt8) (challenge : Bytes) :
    Method Unit := do
  if capabilitiesByte &&& Mask.getChallenge ≠ Mask.getChallenge then return
  if challenge.length ≠ 2 then throw (.sentinel .tooShort)
  modify fun g => { g with getChallengeSupported := true }
  let maximumChallengeLength ← bigEndianUint16 challenge
  modify fun g => { g with maximumChallengeLength := maximumChallengeLength }

/-- The part of `loadExtendedData` after the block `tag` is found (from `// tag is 10 bytes,
    need to decode it.`). The block `GetTag` returns has ten bytes or more, so it is not nil. -/
def GpgData.decodeExtendedCapabilities (tag : Bytes) : Method Unit := do
  let capabilitiesByte ← (getByteWith1BasedIndexing (some tag) 1).wrapErr
    "loadExtendedData(setSecureMessaging) failed: %w"
  let mByte ← (getByteWith1BasedIndexing (some tag) 2).wrapErr
    "loadExtendedData(setSecureMessaging) failed: %w"
  (GpgData.setSecureMessaging secureMessagingAlgorithmLast capabilitiesByte mByte).wrapErr
    "loadExtendedData(setSecureMessaging) failed: %w"
  let bs ← (getBytesWith1BasedIndexing (some tag) 3 4).wrapErr
    "loadExtendedData(setGetChallengeSupported) failed: %w"
  (GpgData.setGetChallengeSupported capabilitiesByte bs).wrapErr
    "loadExtendedData(setGetChallengeSupported) failed: %w"
  modify fun g => { g with
    keyImportSupported := isSupported capabilitiesByte Mask.keyImport
    pwStatusChangeable := isSupported capabilitiesByte Mask.pwStatusChangeable
    privateUseDOsSupported := isSupported capabilitiesByte Mask.privateUseDOs
    algorithmAttributesChangeable :=
      isSupported capabilitiesByte Mask.algorithmAttributesChangeable
    supportsPSODecryptionEncryptionWithAES := isSupported capabilitiesByte Mask.psoDecEncWithAES
    kdfSupported := isSupported capabilitiesByte Mask.kdfSupported }
  let bs ← (getBytesWith1BasedIndexing (some tag) 5 6).wrapErr
    "loadExtendedData(MaximumCardholderCertificatesLength) failed: %w"
  let maximumCardholderCertificatesLength ← bigEndianUint16 bs
  modify fun g => { g with maximumCardholderCertificatesLength }
  let bs ← (getBytesWith1BasedIndexing (some tag) 7 8).wrapErr
    "loadExtendedData(MaximumSpecialDOsLength) failed: %w"
  let maximumSpecialDOsLength ← bigEndianUint16 bs
  modify fun g => { g with maximumSpecialDOsLength }
  let b ← (getByteWith1BasedIndexing (some tag) 9).wrapErr "loadExtendedData(PinBlock2Supported) failed: %w"
  modify fun g => { g with pinBlock2Supported := isSupported b 0x01 }
  let b ← (getByteWith1BasedIndexing (some tag) 10).wrapErr "loadExtendedData(PinBlock2Supported) failed: %w"
  modify fun g => { g with mseCommandSupported := isSupported b 0x01 }

/-- The assignments at the top of `loadExtendedData`: six capability fields back to their zero
    values. -/
def GpgData.resetExtendedData (g : GpgData) : GpgData := { g with
  secureMessaging := noSecureMessaging
  maximumChallengeLength := 0
  maximumCardholderCertificatesLength := 0
  maximumSpecialDOsLength := 0
  pinBlock2Supported := false
  mseCommandSupported := false }

/-- `loadExtendedData`: reset six capability fields, then decode the extended-capabilities block
    if the card has one. This is the method on a record; the `g == nil` guard it and the two
    setters open with is `GpgData.onPointer`, at the end of this file. -/
def GpgData.loadExtendedData : Method Unit := do
  modify GpgData.resetExtendedData
  match (← get).getTag extendedCapabilitiesTag 10 with
  | .error err =>
    if err.is .noSuchTag then return () else throw (.wrap "loadExtendedData failed: %w" err)
  | .panic => monadLift (Result.panic : Result Unit)
  | .ok tag => GpgData.decodeExtendedCapabilities secureMessagingAlgorithmLast tag

theorem GpgData.setSecureMessaging_apply (capabilitiesByte smByte : UInt8) (g : GpgData) :
    GpgData.setSecureMessaging secureMessagingAlgorithmLast capabilitiesByte smByte g =
      if capabilitiesByte &&& Mask.secureMessaging ≠ Mask.secureMessaging then (.ok (), g)
      else if smByte > secureMessagingAlgorithmLast then (.error (.sentinel .noSuchAlgorithm), g)
      else (.ok (), { g with secureMessagingSupported := true, secureMessaging := smByte }) := by
  unfold GpgData.setSecureMessaging
  split_ifs <;> rfl

/-- On a pair of bytes the length check passes: the flag decides alone. -/
theorem GpgData.setGetChallengeSupported_pair (capabilitiesByte x y : UInt8) (g : GpgData) :
    GpgData.setGetChallengeSupported capabilitiesByte [x, y] g =
      if capabilitiesByte &&& Mask.getChallenge ≠ Mask.getChallenge then (.ok (), g)
      else (.ok (), { g with getChallengeSupported := true,
                             maximumChallengeLength := UInt16.ofNat (x.toNat * 256 + y.toNat) }) := by
  by_cases h : capabilitiesByte &&& Mask.getChallenge = Mask.getChallenge <;>
    simp [GpgData.setGetChallengeSupported, h, bigEndianUint16]

/-- What the decoder does with a block of ten bytes or more: it fails on an unknown
    secure-messaging algorithm, leaving the record as it was, and otherwise writes every
    capability field. The two `Supported` flags of secure messaging and GET CHALLENGE, and the
    values that go with them, are only ever raised: a clear bit keeps what the record had. -/
theorem GpgData.decodeExtendedCapabilities_eq {t : Bytes} (ht : 10 ≤ t.length) (g : GpgData) :
    GpgData.decodeExtendedCapabilities secureMessagingAlgorithmLast t g =
      if t.getD 0 0 &&& Mask.secureMessaging = Mask.secureMessaging ∧
          secureMessagingAlgorithmLast < t.getD 1 0 then
        (.error (.wrap "loadExtendedData(setSecureMessaging) failed: %w" (.sentinel .noSuchAlgorithm)),
          g)
      else
        let c := t.getD 0 0
        let sm := c &&& Mask.secureMessaging = Mask.secureMessaging
        let gc := c &&& Mask.getChallenge = Mask.getChallenge
        (.ok (), { g with
          secureMessagingSupported := g.secureMessagingSupported || decide sm
          secureMessaging := if sm then t.getD 1 0 else g.secureMessaging
          getChallengeSupported := g.getChallengeSupported || decide gc
          maximumChallengeLength := if gc then UInt16.ofNat ((t.getD 2 0).toNat * 256 +
            (t.getD 3 0).toNat) else g.maximumChallengeLength
          keyImportSupported := isSupported c Mask.keyImport
          pwStatusChangeable := isSupported c Mask.pwStatusChangeable
          privateUseDOsSupported := isSupported c Mask.privateUseDOs
          algorithmAttributesChangeable := isSupported c Mask.algorithmAttributesChangeable
          supportsPSODecryptionEncryptionWithAES := isSupported c Mask.psoDecEncWithAES
          kdfSupported := isSupported c Mask.kdfSupported
          maximumCardholderCertificatesLength :=
            UInt16.ofNat ((t.getD 4 0).toNat * 256 + (t.getD 5 0).toNat)
          maximumSpecialDOsLength := UInt16.ofNat ((t.getD 6 0).toNat * 256 + (t.getD 7 0).toNat)
          pinBlock2Supported := isSupported (t.getD 8 0) 0x01
          mseCommandSupported := isSupported (t.getD 9 0) 0x01 }) := by
  simp (disch := omega) only [GpgData.decodeExtendedCapabilities, getByteWith1BasedIndexing_eq,
    getBytesWith1BasedIndexing_pair, Method.bind_apply, Method.lift_apply, Method.wrapErr_apply,
    Method.modify_apply, Method.liftOption_apply, Result.wrapErr_ok, Int.reduceSub, Int.reduceToNat,
    GpgData.setSecureMessaging_apply, GpgData.setGetChallengeSupported_pair]
  generalize t.getD 0 0 = c; generalize t.getD 1 0 = m
  by_cases hsm : c &&& Mask.secureMessaging = Mask.secureMessaging <;>
    by_cases hm : secureMessagingAlgorithmLast < m <;>
    by_cases hgc : c &&& Mask.getChallenge = Mask.getChallenge <;>
    simp [hsm, hm, hgc, bigEndianUint16]

/-- An absent block is no error, and any other failure of `GetTag` is returned wrapped; the
    record keeps only the reset. -/
theorem GpgData.loadExtendedData_of_getTag_error {g : GpgData} {e : Error}
    (h : g.getTag extendedCapabilitiesTag 10 = .error e) :
    GpgData.loadExtendedData secureMessagingAlgorithmLast g =
      (if e.is .noSuchTag then .ok () else .error (.wrap "loadExtendedData failed: %w" e),
        g.resetExtendedData) := by
  have h' : g.resetExtendedData.getTag extendedCapabilitiesTag 10 = .error e := h
  simp only [GpgData.loadExtendedData, Method.bind_apply, Method.modify_apply, Method.get_apply, h']
  split <;> rfl

/-- A block that is there is decoded into the reset record. -/
theorem GpgData.loadExtendedData_of_getTag_ok {g : GpgData} {t : Bytes}
    (h : g.getTag extendedCapabilitiesTag 10 = .ok t) :
    GpgData.loadExtendedData secureMessagingAlgorithmLast g =
      GpgData.decodeExtendedCapabilities secureMessagingAlgorithmLast t g.resetExtendedData := by
  have h' : g.resetExtendedData.getTag extendedCapabilitiesTag 10 = .ok t := h
  simp only [GpgData.loadExtendedData, Method.bind_apply, Method.modify_apply, Method.get_apply, h']

/-- `loadExtendedData` never faults: it returns nil or an error. -/
theorem GpgData.loadExtendedData_ne_panic (g : GpgData) :
    (GpgData.loadExtendedData secureMessagingAlgorithmLast g).1 ≠ .panic := by
  rcases g.getTag_ok_or_error extendedCapabilitiesTag 10 with ⟨t, ht⟩ | ⟨e, he⟩
  · rw [GpgData.loadExtendedData_of_getTag_ok _ ht,
      GpgData.decodeExtendedCapabilities_eq _ (GpgData.getTag_eq_ok.mp ht).2]
    split <;> simp
  · rw [GpgData.loadExtendedData_of_getTag_error _ he]
    split <;> simp

end Decoder

-- ---------------------------------------------------------------------------
-- What the decoded record says
-- ---------------------------------------------------------------------------

/-- The fourteen capability fields of a record, the lengths as numbers. -/
structure Capabilities where
  secureMessagingSupported : Bool
  secureMessaging : UInt8
  getChallengeSupported : Bool
  maximumChallengeLength : Nat
  keyImportSupported : Bool
  pwStatusChangeable : Bool
  privateUseDOsSupported : Bool
  algorithmAttributesChangeable : Bool
  supportsPSODecryptionEncryptionWithAES : Bool
  kdfSupported : Bool
  maximumCardholderCertificatesLength : Nat
  maximumSpecialDOsLength : Nat
  pinBlock2Supported : Bool
  mseCommandSupported : Bool
  deriving DecidableEq, Repr

/-- The capability fields of `g`. -/
def GpgData.capabilities (g : GpgData) : Capabilities where
  secureMessagingSupported := g.secureMessagingSupported
  secureMessaging := g.secureMessaging
  getChallengeSupported := g.getChallengeSupported
  maximumChallengeLength := g.maximumChallengeLength.toNat
  keyImportSupported := g.keyImportSupported
  pwStatusChangeable := g.pwStatusChangeable
  privateUseDOsSupported := g.privateUseDOsSupported
  algorithmAttributesChangeable := g.algorithmAttributesChangeable
  supportsPSODecryptionEncryptionWithAES := g.supportsPSODecryptionEncryptionWithAES
  kdfSupported := g.kdfSupported
  maximumCardholderCertificatesLength := g.maximumCardholderCertificatesLength.toNat
  maximumSpecialDOsLength := g.maximumSpecialDOsLength.toNat
  pinBlock2Supported := g.pinBlock2Supported
  mseCommandSupported := g.mseCommandSupported

/-- Every capability field at its zero value. -/
def Capabilities.zero : Capabilities :=
  ⟨false, 0, false, 0, false, false, false, false, false, false, 0, 0, false, false⟩

/-- What the block `t` says, its bytes counted from 0: each flag is its bit of byte 0, the
    secure-messaging algorithm and the challenge length count only when their flag is set, and
    each length is a big-endian pair of bytes. -/
def Capabilities.ofBlock (t : Bytes) : Capabilities :=
  let byte (i : Nat) : UInt8 := t.getD i 0
  let flag (mask : UInt8) : Bool := byte 0 &&& mask == mask
  { secureMessagingSupported := flag Mask.secureMessaging
    secureMessaging := if flag Mask.secureMessaging then byte 1 else noSecureMessaging
    getChallengeSupported := flag Mask.getChallenge
    maximumChallengeLength :=
      if flag Mask.getChallenge then 256 * (byte 2).toNat + (byte 3).toNat else 0
    keyImportSupported := flag Mask.keyImport
    pwStatusChangeable := flag Mask.pwStatusChangeable
    privateUseDOsSupported := flag Mask.privateUseDOs
    algorithmAttributesChangeable := flag Mask.algorithmAttributesChangeable
    supportsPSODecryptionEncryptionWithAES := flag Mask.psoDecEncWithAES
    kdfSupported := flag Mask.kdfSupported
    maximumCardholderCertificatesLength := 256 * (byte 4).toNat + (byte 5).toNat
    maximumSpecialDOsLength := 256 * (byte 6).toNat + (byte 7).toNat
    pinBlock2Supported := byte 8 &&& 1 == 1
    mseCommandSupported := byte 9 &&& 1 == 1 }

/-- The blocks `loadExtendedData` returns nil on: ten bytes or more, and a known algorithm where
    the card announces secure messaging. -/
def Capabilities.Accepts (secureMessagingAlgorithmLast : UInt8) (t : Bytes) : Prop :=
  10 ≤ t.length ∧ (t.getD 0 0 &&& Mask.secureMessaging ≠ Mask.secureMessaging ∨
    t.getD 1 0 ≤ secureMessagingAlgorithmLast)

instance (secureMessagingAlgorithmLast : UInt8) (t : Bytes) :
    Decidable (Capabilities.Accepts secureMessagingAlgorithmLast t) :=
  inferInstanceAs (Decidable (_ ∧ _))

/-- From a record whose capability fields are at their zero values, `loadExtendedData` on any
    block that `GetTag` returns: it returns nil exactly on the blocks it accepts, it never
    panics and never fails with `ErrTooShort`, and on success the record says what the block
    says. -/
theorem GpgData.loadExtendedData_decodes_block (secureMessagingAlgorithmLast : UInt8)
    (g : GpgData) (hz : g.capabilities = Capabilities.zero) {t : Bytes}
    (ht : g.getTag extendedCapabilitiesTag 10 = .ok t) :
    let r := GpgData.loadExtendedData secureMessagingAlgorithmLast g
    (r.1 = .ok () ↔ Capabilities.Accepts secureMessagingAlgorithmLast t) ∧ r.1 ≠ .panic ∧
      (∀ e, r.1 = .error e → e.is .tooShort = false) ∧
      (r.1 = .ok () → r.2.capabilities = Capabilities.ofBlock t) := by
  intro r
  have hlen := (GpgData.getTag_eq_ok.mp ht).2
  simp only [GpgData.capabilities, Capabilities.zero, Capabilities.mk.injEq] at hz
  simp only [r, GpgData.loadExtendedData_of_getTag_ok _ ht,
    GpgData.decodeExtendedCapabilities_eq _ hlen]
  by_cases hfail : t.getD 0 0 &&& Mask.secureMessaging = Mask.secureMessaging ∧
      secureMessagingAlgorithmLast < t.getD 1 0
  · rw [if_pos hfail]
    simp only [List.getD_eq_getElem?_getD] at hfail
    simp [Capabilities.Accepts, hlen, hfail]
  · rw [if_neg hfail]
    simp only [List.getD_eq_getElem?_getD, not_and, UInt8.not_lt] at hfail
    refine ⟨by simpa [Capabilities.Accepts, hlen, or_iff_not_imp_left] using hfail, by simp,
      by simp, fun _ => ?_⟩
    simp [GpgData.capabilities, Capabilities.ofBlock, GpgData.resetExtendedData, hz,
      toNat_uint16_ofNat_pair, isSupported, noSecureMessaging, Bool.beq_eq_decide_eq]
    split <;> simp [toNat_uint16_ofNat_pair]

/-- A block that announces GET CHALLENGE, key import, PW status changes, private DOs, changeable
    algorithm attributes and KDF, on a fresh record, with secure-messaging algorithm codes up to
    3. -/
theorem GpgData.loadExtendedData_decodes_sampleBlock :
    let t : Bytes := [0x7D, 0x00, 0x0B, 0xFE, 0x08, 0x00, 0x00, 0xFF, 0x00, 0x00]
    let g : GpgData := { tlvValues := [(extendedCapabilitiesTag, t)] }
    let r := GpgData.loadExtendedData 3 g
    g.capabilities = Capabilities.zero ∧ g.getTag extendedCapabilitiesTag 10 = .ok t ∧
      (r.1 = .ok () ↔ Capabilities.Accepts 3 t) ∧ r.1 ≠ .panic ∧
      (∀ e, r.1 = .error e → e.is .tooShort = false) ∧
      (r.1 = .ok () → r.2.capabilities = Capabilities.ofBlock t) :=
  ⟨rfl, rfl, GpgData.loadExtendedData_decodes_block 3
    { tlvValues := [(extendedCapabilitiesTag, [0x7D, 0x00, 0x0B, 0xFE, 0x08, 0x00, 0x00, 0xFF, 0x00,
      0x00])] } rfl rfl⟩

-- ---------------------------------------------------------------------------
-- Any tag map
-- ---------------------------------------------------------------------------

section Status

variable (secureMessagingAlgorithmLast : UInt8)

/-- `loadExtendedData` on any tag map: it never faults, an absent block is no error, and a block
    that is there but shorter than ten bytes is always an error, `ErrTooShort`. -/
theorem GpgData.loadExtendedData_status (g : GpgData) :
    let r := (GpgData.loadExtendedData secureMessagingAlgorithmLast g).1
    r ≠ .panic ∧ (g.tlvValues.lookup extendedCapabilitiesTag = none → r = .ok ()) ∧
      ∀ t, g.tlvValues.lookup extendedCapabilitiesTag = some t → t.length < 10 →
        ∃ e, r = .error e ∧ e.is .tooShort := by
  intro r
  refine ⟨GpgData.loadExtendedData_ne_panic _ g, fun h => ?_, fun t h ht => ?_⟩
  · have he : g.getTag extendedCapabilitiesTag 10 = .error (.sentinel .noSuchTag) := by
      simp [GpgData.getTag, h]
    simp [r, GpgData.loadExtendedData_of_getTag_error _ he]
  · have he : g.getTag extendedCapabilitiesTag 10 = .error (.sentinel .tooShort) := by
      simp [GpgData.getTag, h, ht]
    simp [r, GpgData.loadExtendedData_of_getTag_error _ he]

/-- What `loadExtendedData` returns and the capabilities it leaves depend on the tag map and on
    the eight capability fields its reset block does not clear, and on nothing else. -/
theorem GpgData.loadExtendedData_congr {g g' : GpgData} (ht : g.tlvValues = g'.tlvValues)
    (hf : g.resetExtendedData.capabilities = g'.resetExtendedData.capabilities) :
    (GpgData.loadExtendedData secureMessagingAlgorithmLast g).1 =
        (GpgData.loadExtendedData secureMessagingAlgorithmLast g').1 ∧
      (GpgData.loadExtendedData secureMessagingAlgorithmLast g).2.capabilities =
        (GpgData.loadExtendedData secureMessagingAlgorithmLast g').2.capabilities := by
  rcases g.getTag_ok_or_error extendedCapabilitiesTag 10 with ⟨t, h⟩ | ⟨e, h⟩
  · have h' : g'.getTag extendedCapabilitiesTag 10 = .ok t := GpgData.getTag_congr ht ▸ h
    have hlen := (GpgData.getTag_eq_ok.mp h).2
    rw [GpgData.loadExtendedData_of_getTag_ok _ h, GpgData.loadExtendedData_of_getTag_ok _ h',
      GpgData.decodeExtendedCapabilities_eq _ hlen, GpgData.decodeExtendedCapabilities_eq _ hlen]
    split
    · exact ⟨rfl, hf⟩
    · simp only [GpgData.capabilities, GpgData.resetExtendedData, Capabilities.mk.injEq] at hf ⊢
      simp [hf]
  · have h' : g'.getTag extendedCapabilitiesTag 10 = .error e := GpgData.getTag_congr ht ▸ h
    rw [GpgData.loadExtendedData_of_getTag_error _ h, GpgData.loadExtendedData_of_getTag_error _ h']
    exact ⟨rfl, hf⟩

/-- `loadExtendedData` keeps the reader and the tag map. -/
theorem GpgData.loadExtendedData_source (g : GpgData) :
    (GpgData.loadExtendedData secureMessagingAlgorithmLast g).2.reader = g.reader ∧
      (GpgData.loadExtendedData secureMessagingAlgorithmLast g).2.tlvValues = g.tlvValues := by
  rcases g.getTag_ok_or_error extendedCapabilitiesTag 10 with ⟨t, ht⟩ | ⟨e, he⟩
  · rw [GpgData.loadExtendedData_of_getTag_ok _ ht,
      GpgData.decodeExtendedCapabilities_eq _ (GpgData.getTag_eq_ok.mp ht).2]
    split <;> exact ⟨rfl, rfl⟩
  · rw [GpgData.loadExtendedData_of_getTag_error _ he]
    exact ⟨rfl, rfl⟩

/-- Run again on the record it built, a successful `loadExtendedData` changes nothing: the flags
    it raised stay raised and every other capability is written with the same value. -/
theorem GpgData.loadExtendedData_idem {g : GpgData}
    (h : (GpgData.loadExtendedData secureMessagingAlgorithmLast g).1 = .ok ()) :
    GpgData.loadExtendedData secureMessagingAlgorithmLast
        (GpgData.loadExtendedData secureMessagingAlgorithmLast g).2 =
      (.ok (), (GpgData.loadExtendedData secureMessagingAlgorithmLast g).2) := by
  have hT := GpgData.getTag_congr (GpgData.loadExtendedData_source secureMessagingAlgorithmLast g).2
  rcases g.getTag_ok_or_error extendedCapabilitiesTag 10 with ⟨t, ht⟩ | ⟨e, he⟩
  · have hlen := (GpgData.getTag_eq_ok.mp ht).2
    rw [GpgData.loadExtendedData_of_getTag_ok _ (hT ▸ ht),
      GpgData.decodeExtendedCapabilities_eq _ hlen]
    rw [GpgData.loadExtendedData_of_getTag_ok _ ht,
      GpgData.decodeExtendedCapabilities_eq _ hlen] at h ⊢
    split at h
    · cases h
    · rename_i hfail
      simp only [if_neg hfail, GpgData.resetExtendedData]
      simp
  · rw [GpgData.loadExtendedData_of_getTag_error _ (hT ▸ he)]
    rw [GpgData.loadExtendedData_of_getTag_error _ he] at h ⊢
    dsimp only at h ⊢
    rw [h]
    rfl

end Status

-- ---------------------------------------------------------------------------
-- Nil receivers
-- ---------------------------------------------------------------------------

/-- A method called through a `*GpgData` that may be nil: `loadExtendedData`,
    `setSecureMessaging` and `setGetChallengeSupported` open with
    `if g == nil { return fmt.Errorf(format, ErrKeyNotPresent) }`, and otherwise run on the
    record the pointer holds. -/
def GpgData.onPointer {α : Type} (format : String) (m : Method α) :
    Option GpgData → Result α × Option GpgData
  | none => (.error (.wrap format (.sentinel .keyNotPresent)), none)
  | some g => ((m g).1, some (m g).2)

@[simp] theorem GpgData.onPointer_none {α : Type} (format : String) (m : Method α) :
    GpgData.onPointer format m none = (.error (.wrap format (.sentinel .keyNotPresent)), none) :=
  rfl

@[simp] theorem GpgData.onPointer_some {α : Type} (format : String) (m : Method α) (g : GpgData) :
    GpgData.onPointer format m (some g) = ((m g).1, some (m g).2) := rfl

namespace Pointer

variable (secureMessagingAlgorithmLast : UInt8)

/-- `(*GpgData).loadExtendedData`, nil guard included. -/
def loadExtendedData : Option GpgData → Result Unit × Option GpgData :=
  GpgData.onPointer "nil key for loadExtendedData: %w"
    (GpgData.loadExtendedData secureMessagingAlgorithmLast)

/-- `(*GpgData).setSecureMessaging`, nil guard included. -/
def setSecureMessaging (capabilitiesByte smByte : UInt8) :
    Option GpgData → Result Unit × Option GpgData :=
  GpgData.onPointer "nil key for setSecureMessaging: %w"
    (GpgData.setSecureMessaging secureMessagingAlgorithmLast capabilitiesByte smByte)

/-- `(*GpgData).setGetChallengeSupported`, nil guard included. -/
def setGetChallengeSupported (capabilitiesByte : UInt8) (challenge : Bytes) :
    Option GpgData → Result Unit × Option GpgData :=
  GpgData.onPointer "nil key for setGetChallengeSupported: %w"
    (GpgData.setGetChallengeSupported capabilitiesByte challenge)

end Pointer

end Piv
