-- SUMMARY: The per-key accessors (`Algorithm`, `Fingerprint`, `ID`, `Date`, `Origin`), the getters and `String`, and that each reads its own slot of the packed tags.
import GpgCard.Card.Data

/-!
# Per-key information

Three tags pack one slot per key, signature key first: the fingerprints
(`6E.73.C5`, 20 bytes a key), the creation dates (`6E.73.CD`, 4 bytes a key)
and the key origins (`6E.73.DE`, 1 byte a key). `getKeyLen` gives where a slot
starts and ends, and the accessors `GetTag` the packed tag with at least that
many bytes before they cut the slot out. Each accessor also answers on a nil
record, with `ErrKeyNotPresent`; the receiver is an `Option` for that.
-/

namespace Piv

open Go

-- ---------------------------------------------------------------------------
-- Key types and tags
-- ---------------------------------------------------------------------------

/-- Modelled from the spec: `KeyType`, the card's key slots. -/
inductive KeyType where
  | signatureKey
  | decryptionKey
  | authenticationKey
  | attestKey
  deriving DecidableEq, Repr

/-- Modelled from the spec: `int(keyType)`, the ordinal of a slot. -/
def KeyType.ordinal : KeyType → Nat
  | .signatureKey => 0
  | .decryptionKey => 1
  | .authenticationKey => 2
  | .attestKey => 3

/-- Modelled from the spec: `keyType.Offset()`, the byte of the slot in the origin tag. -/
def KeyType.offset (keyType : KeyType) : Nat := keyType.ordinal

/-- Modelled from the spec: `KeyTypeSize`, one origin byte per key type. -/
def keyTypeSize : Nat := 4

/-- Modelled from the spec: `keyFingerprintLen`. -/
def keyFingerprintLen : Nat := 20

/-- Modelled from the spec: `keyDateLen`. -/
def keyDateLen : Nat := 4

/-- Modelled from the spec: `keyInformationTag`, the packed fingerprints. -/
def keyInformationTag : String := "6E.73.C5"

/-- Modelled from the spec: `keyDateTag`, the packed creation dates. -/
def keyDateTag : String := "6E.73.CD"

/-- Modelled from the spec: `keyOriginAttributesTag`, the packed key origins. -/
def keyOriginAttributesTag : String := "6E.73.DE"

/-- Modelled from the spec: `keyAlgorithmSignatureAttributesTag`. -/
def keyAlgorithmSignatureAttributesTag : String := "6E.73.C1"

/-- Modelled from the spec: `keyAlgorithmDecryptionAttributesTag`. -/
def keyAlgorithmDecryptionAttributesTag : String := "6E.73.C2"

/-- Modelled from the spec: `keyAlgorithmAuthenticationAttributesTag`. -/
def keyAlgorithmAuthenticationAttributesTag : String := "6E.73.C3"

/-- Modelled from the spec: `KeyOrigin`, where a key came from. -/
inductive KeyOrigin where
  | keyNotPresent
  | empty
  | generated
  | imported
  deriving DecidableEq, Repr

/-- Modelled from the spec: `KeyOriginLast`, the greatest origin code. -/
def keyOriginLast : Nat := 3

/-- Modelled from the spec: `KeyOrigin(keyValue)` for a code up to `KeyOriginLast`. -/
def KeyOrigin.ofCode : Nat → KeyOrigin
  | 0 => .keyNotPresent
  | 1 => .empty
  | 2 => .generated
  | _ => .imported

/-- Modelled from the spec: `UpperCaseHexString`, each byte as two upper-case hexadecimal
    digits, with no separator. -/
def upperCaseHexString (b : Bytes) : Bytes := b.flatMap fun x => fmtPadX 2 x.toNat

@[simp] theorem upperCaseHexString_nil : upperCaseHexString [] = [] := rfl

theorem upperCaseHexString_cons (x : UInt8) (b : Bytes) :
    upperCaseHexString (x :: b) =
      digitByte (x.toNat / 16) :: digitByte (x.toNat % 16) :: upperCaseHexString b := by
  rw [upperCaseHexString, List.flatMap_cons, fmtPadX_two_byte x.toNat_lt_size]; rfl

theorem length_upperCaseHexString (b : Bytes) : (upperCaseHexString b).length = 2 * b.length := by
  induction b with
  | nil => rfl
  | cons x b ih => rw [upperCaseHexString_cons, List.length_cons, List.length_cons, ih]; simp; ring

/-- Dropping two digits drops one byte. -/
theorem upperCaseHexString_drop (b : Bytes) (k : Nat) :
    (upperCaseHexString b).drop (2 * k) = upperCaseHexString (b.drop k) := by
  induction b generalizing k with
  | nil => simp
  | cons x b ih =>
    cases k with
    | zero => rfl
    | succ k =>
      rw [upperCaseHexString_cons, Nat.mul_succ, List.drop_succ_cons, List.drop_succ_cons, ih k,
        List.drop_succ_cons]

theorem ascii_upperCaseHexString (b : Bytes) : Ascii (upperCaseHexString b) := fun c hc =>
  let ⟨x, _, hx⟩ := List.mem_flatMap.mp hc
  ascii_fmtPadX 2 x.toNat c hx

/-- `getKeyLen`: where the slot of `keyType` starts in a tag that packs one `len`-byte slot per
    key, and where it ends. -/
def getKeyLen (keyType : KeyType) (len : Nat) : Nat × Nat :=
  let index := keyType.ordinal
  let offset := index * len
  let expectedLen := offset + len
  (offset, expectedLen)

-- ---------------------------------------------------------------------------
-- The accessors
-- ---------------------------------------------------------------------------

/-- The error every accessor returns on a nil record, `fmt.Errorf(format, ErrKeyNotPresent)`. -/
def nilKey (format : String) : Error := .wrap format (.sentinel .keyNotPresent)

/-- The `switch keyType` of `Algorithm`: the attributes tag of each key type. The attestation
    key has none. -/
def KeyType.algorithmAttributesTag : KeyType → Option String
  | .signatureKey => some keyAlgorithmSignatureAttributesTag
  | .decryptionKey => some keyAlgorithmDecryptionAttributesTag
  | .authenticationKey => some keyAlgorithmAuthenticationAttributesTag
  | .attestKey => none

/-- `Algorithm`: the algorithm of a key as text, from the first bytes of its attributes tag. -/
def GpgData.algorithm (g? : Option GpgData) (keyType : KeyType) : Result Bytes :=
  match g? with
  | none => .error (nilKey "nil key for Algorithm: %w")
  | some g =>
    match keyType.algorithmAttributesTag with
    | none => .error (.wrap "%w : unknown value: %d" (.sentinel .noSuchTag))
    | some key => do
      let data ← g.getTag key 1
      let d0 ← data[0]?
      if d0 > 0 ∧ d0 > 3 then
        if data.length < 3 then
          .error (.wrap "%w: expected length [%d] > [3]" (.sentinel .noSuchAlgorithm))
        else do
          let d1 ← data[1]?
          let d2 ← data[2]?
          let algorithmNum : UInt16 := d1.toUInt16 * 256 + d2.toUInt16
          return str "RSA " ++ fmtD algorithmNum.toNat
      else return str "Alg=" ++ fmtLeftD 4 d0.toNat

/-- `Fingerprint`: the fingerprint of a key, its 20-byte slot in upper-case hexadecimal. -/
def GpgData.fingerprint (g? : Option GpgData) (keyType : KeyType) : Result Bytes :=
  match g? with
  | none => .error (nilKey "nil key for Fingerprint: %w")
  | some g => do
    let (offset, expectedLen) := getKeyLen keyType keyFingerprintLen
    let data ← (g.getTag keyInformationTag expectedLen).wrapErr
      "unable to get tag %s for Fingerprint(%s): %w"
    let slot ← slice data offset expectedLen
    return upperCaseHexString slot

/-- `ID`: the ID of a key, the last 8 bytes of its fingerprint slot in upper-case
    hexadecimal. -/
def GpgData.id (g? : Option GpgData) (keyType : KeyType) : Result Bytes :=
  match g? with
  | none => .error (nilKey "nil key for ID: %w")
  | some g => do
    let (_, expectedLen) := getKeyLen keyType keyFingerprintLen
    let data ← (g.getTag keyInformationTag expectedLen).wrapErr "unable to get tag %s for ID(%s): %w"
    let start := expectedLen - 8
    let slot ← slice data start expectedLen
    return upperCaseHexString slot

/-- `Date`: the creation date of a key, `time.Unix(int64(dateInt), 0)` given by its seconds
    since 1970. -/
def GpgData.date (g? : Option GpgData) (keyType : KeyType) : Result Nat :=
  match g? with
  | none => .error (nilKey "nil key for Date: %w")
  | some g => do
    let (offset, expectedLen) := getKeyLen keyType keyDateLen
    let data ← (g.getTag keyDateTag expectedLen).wrapErr "unable to get tag %s for Date(%s): %w"
    let dateData ← slice data offset expectedLen
    let dateInt ← bigEndianUint32 (← slice dateData 0 4)
    return dateInt.toNat

/-- `Origin`: where a key came from, its byte of the origin tag. -/
def GpgData.origin (g? : Option GpgData) (keyType : KeyType) : Result KeyOrigin :=
  match g? with
  | none => .error (nilKey "nil key for Origin: %w")
  | some g =>
    let (tagLen, hasDate) := g.hasTag keyOriginAttributesTag
    if tagLen = 0 ∨ hasDate = false then
      .error (.wrap "%w: key type %s not present" (.sentinel .keyNotPresent))
    else do
      let data ← g.getTag keyOriginAttributesTag keyTypeSize
      let keyValue ← data[keyType.offset]?
      if keyValue.toNat > keyOriginLast then
        .error (.wrap "keyValue: [%d] > KeyOriginLast:[%d] for Origin(%s): %w"
          (.sentinel .unknownKeyOrigin))
      else return KeyOrigin.ofCode keyValue.toNat

/-- The getters: a field of the record, or the empty string on a nil record. -/
def GpgData.getField (field : GpgData → Bytes) (g? : Option GpgData) : Bytes :=
  match g? with
  | none => []
  | some g => field g

/-- `GetCardHolder`. -/
def GpgData.getCardHolder : Option GpgData → Bytes := GpgData.getField GpgData.cardHolder

/-- `GetVersion`. -/
def GpgData.getVersion : Option GpgData → Bytes := GpgData.getField GpgData.version

/-- `GetAppletVersion`. -/
def GpgData.getAppletVersion : Option GpgData → Bytes := GpgData.getField GpgData.appletVersion

/-- `String`: the record through `infoTemplate`, one labelled line a field. The template is
    fixed and only reads string fields, so parsing and running it cannot fail. -/
def GpgData.string (g? : Option GpgData) : Result Bytes :=
  match g? with
  | none => .error (nilKey "nil key for String: %w")
  | some g => .ok (str "\n  Card:            " ++ g.longName ++
      str "\n  RID:             " ++ g.rid ++
      str "\n  Application:     " ++ g.application ++
      str "\n  Version:         " ++ g.version ++
      str "\n  Manufacturer:    " ++ g.manufacturer ++
      str "\n  Serial Number:   " ++ g.serial ++
      str "\n  Cardholder Name: " ++ g.cardHolder ++ str "\n")

-- ---------------------------------------------------------------------------
-- Each accessor reads its own slot
-- ---------------------------------------------------------------------------

theorem GpgData.fingerprint_of_getTag_ok {g : GpgData} {k : KeyType} {v : Bytes}
    (h : g.getTag keyInformationTag (k.ordinal * 20 + 20) = .ok v) :
    GpgData.fingerprint (some g) k = .ok (upperCaseHexString ((v.drop (k.ordinal * 20)).take 20)) := by
  have hl := (GpgData.getTag_eq_ok.mp h).2
  simp [GpgData.fingerprint, getKeyLen, keyFingerprintLen, h, slice_eq_some (Nat.le_add_right _ _) hl]

theorem GpgData.fingerprint_of_getTag_error {g : GpgData} {k : KeyType} {e : Error}
    (h : g.getTag keyInformationTag (k.ordinal * 20 + 20) = .error e) :
    GpgData.fingerprint (some g) k =
      .error (.wrap "unable to get tag %s for Fingerprint(%s): %w" e) := by
  simp [GpgData.fingerprint, getKeyLen, keyFingerprintLen, h]

theorem GpgData.id_of_getTag_ok {g : GpgData} {k : KeyType} {v : Bytes}
    (h : g.getTag keyInformationTag (k.ordinal * 20 + 20) = .ok v) :
    GpgData.id (some g) k = .ok (upperCaseHexString ((v.drop (k.ordinal * 20 + 12)).take 8)) := by
  have hl := (GpgData.getTag_eq_ok.mp h).2
  simp [GpgData.id, getKeyLen, keyFingerprintLen, h,
    show k.ordinal * 20 + 20 - 8 = k.ordinal * 20 + 12 by omega,
    slice_eq_some (show k.ordinal * 20 + 12 ≤ k.ordinal * 20 + 20 by omega) hl]

theorem GpgData.id_of_getTag_error {g : GpgData} {k : KeyType} {e : Error}
    (h : g.getTag keyInformationTag (k.ordinal * 20 + 20) = .error e) :
    GpgData.id (some g) k = .error (.wrap "unable to get tag %s for ID(%s): %w" e) := by
  simp [GpgData.id, getKeyLen, keyFingerprintLen, h]

theorem GpgData.date_of_getTag_ok {g : GpgData} {k : KeyType} {v : Bytes}
    (h : g.getTag keyDateTag (k.ordinal * 4 + 4) = .ok v) :
    GpgData.date (some g) k = .ok (2 ^ 24 * (v.getD (k.ordinal * 4) 0).toNat +
      2 ^ 16 * (v.getD (k.ordinal * 4 + 1) 0).toNat + 2 ^ 8 * (v.getD (k.ordinal * 4 + 2) 0).toNat +
      (v.getD (k.ordinal * 4 + 3) 0).toNat) := by
  have hl := (GpgData.getTag_eq_ok.mp h).2
  have hs : slice v (k.ordinal * 4) (k.ordinal * 4 + 4) =
      some [v.getD (k.ordinal * 4) 0, v.getD (k.ordinal * 4 + 1) 0, v.getD (k.ordinal * 4 + 2) 0,
        v.getD (k.ordinal * 4 + 3) 0] := by
    rw [slice_eq_some (Nat.le_add_right _ _) hl, Nat.add_sub_cancel_left,
      take_succ_drop (by omega), take_succ_drop (by omega), take_succ_drop (by omega),
      take_succ_drop (by omega), List.take_zero]
  have := bigEndianUint32_toNat (v.getD (k.ordinal * 4) 0) (v.getD (k.ordinal * 4 + 1) 0)
    (v.getD (k.ordinal * 4 + 2) 0) (v.getD (k.ordinal * 4 + 3) 0) []
  simp only [Option.map_eq_some', List.getD_eq_getElem?_getD] at this
  obtain ⟨n, hn, hval⟩ := this
  simp [GpgData.date, getKeyLen, keyDateLen, h, hs, slice_eq_some, hn, hval]

theorem GpgData.date_of_getTag_error {g : GpgData} {k : KeyType} {e : Error}
    (h : g.getTag keyDateTag (k.ordinal * 4 + 4) = .error e) :
    GpgData.date (some g) k = .error (.wrap "unable to get tag %s for Date(%s): %w" e) := by
  simp [GpgData.date, getKeyLen, keyDateLen, h]

section Slots

variable {g : GpgData} {k : KeyType}

theorem GpgData.fingerprint_ok_iff :
    (∃ f, GpgData.fingerprint (some g) k = .ok f) ↔
      ∃ v, g.getTag keyInformationTag (k.ordinal * 20 + 20) = .ok v := by
  rcases g.getTag_ok_or_error keyInformationTag (k.ordinal * 20 + 20) with ⟨v, hv⟩ | ⟨e, he⟩
  · simp [GpgData.fingerprint_of_getTag_ok hv, hv]
  · simp [GpgData.fingerprint_of_getTag_error he, he]

theorem GpgData.id_ok_iff :
    (∃ i, GpgData.id (some g) k = .ok i) ↔
      ∃ v, g.getTag keyInformationTag (k.ordinal * 20 + 20) = .ok v := by
  rcases g.getTag_ok_or_error keyInformationTag (k.ordinal * 20 + 20) with ⟨v, hv⟩ | ⟨e, he⟩
  · simp [GpgData.id_of_getTag_ok hv, hv]
  · simp [GpgData.id_of_getTag_error he, he]

theorem GpgData.date_ok_iff :
    (∃ d, GpgData.date (some g) k = .ok d) ↔ ∃ v, g.getTag keyDateTag (k.ordinal * 4 + 4) = .ok v := by
  rcases g.getTag_ok_or_error keyDateTag (k.ordinal * 4 + 4) with ⟨v, hv⟩ | ⟨e, he⟩
  · simp [GpgData.date_of_getTag_ok hv, hv]
  · simp [GpgData.date_of_getTag_error he, he]

/-- The ID's slot is the last 8 of the fingerprint's 20 bytes, so its digits are the
    fingerprint's from the 24th on. -/
theorem upperCaseHexString_id_slot (v : Bytes) (o : Nat) :
    upperCaseHexString ((v.drop (o + 12)).take 8) = (upperCaseHexString ((v.drop o).take 20)).drop 24 := by
  rw [show 24 = 2 * 12 from rfl, upperCaseHexString_drop, List.drop_take, List.drop_drop, Nat.add_comm]

/-- Each accessor reads exactly its own slot: `Fingerprint` and `ID` succeed when the packed
    fingerprints reach the end of the key's 20-byte slot, `Fingerprint` is then the slot in
    40 hexadecimal digits and `ID` its last 16; `Date` succeeds when the packed dates reach the
    end of the key's 4-byte slot, and is then the slot read as a big-endian number. -/
theorem GpgData.accessors_read_own_slot (g : GpgData) (k : KeyType) :
    ((∃ f, GpgData.fingerprint (some g) k = .ok f) ↔
      ∃ v, g.tlvValues.lookup keyInformationTag = some v ∧ k.ordinal * 20 + 20 ≤ v.length) ∧
    ((∃ i, GpgData.id (some g) k = .ok i) ↔ ∃ f, GpgData.fingerprint (some g) k = .ok f) ∧
    (∀ v, g.tlvValues.lookup keyInformationTag = some v → k.ordinal * 20 + 20 ≤ v.length →
      ∃ f, GpgData.fingerprint (some g) k = .ok f ∧
        f = upperCaseHexString ((v.drop (k.ordinal * 20)).take 20) ∧ f.length = 40 ∧
        GpgData.id (some g) k = .ok (f.drop (f.length - 16))) ∧
    ((∃ d, GpgData.date (some g) k = .ok d) ↔
      ∃ v, g.tlvValues.lookup keyDateTag = some v ∧ k.ordinal * 4 + 4 ≤ v.length) ∧
    (∀ v, g.tlvValues.lookup keyDateTag = some v → k.ordinal * 4 + 4 ≤ v.length →
      GpgData.date (some g) k = .ok (2 ^ 24 * (v.getD (k.ordinal * 4) 0).toNat +
        2 ^ 16 * (v.getD (k.ordinal * 4 + 1) 0).toNat +
        2 ^ 8 * (v.getD (k.ordinal * 4 + 2) 0).toNat + (v.getD (k.ordinal * 4 + 3) 0).toNat)) := by
  refine ⟨?_, GpgData.id_ok_iff.trans GpgData.fingerprint_ok_iff.symm, fun v hv hl => ?_, ?_,
    fun v hv hl => GpgData.date_of_getTag_ok (GpgData.getTag_eq_ok.mpr ⟨hv, hl⟩)⟩
  · simp only [GpgData.fingerprint_ok_iff, GpgData.getTag_eq_ok]
  · have ht := GpgData.getTag_eq_ok.mpr ⟨hv, hl⟩
    have hlen : (upperCaseHexString ((v.drop (k.ordinal * 20)).take 20)).length = 40 := by
      simp [length_upperCaseHexString]; omega
    refine ⟨_, GpgData.fingerprint_of_getTag_ok ht, rfl, hlen, ?_⟩
    rw [GpgData.id_of_getTag_ok ht, hlen, upperCaseHexString_id_slot]
  · simp only [GpgData.date_ok_iff, GpgData.getTag_eq_ok]

/-- The specification's sample: a 60-byte fingerprint tag read at the authentication key, bytes
    40 to 59, with the ID the last 16 of its 40 digits. -/
theorem GpgData.accessors_read_authenticationSlot :
    let v : Bytes := (List.range 60).map UInt8.ofNat
    let g : GpgData := { tlvValues := [(keyInformationTag, v)] }
    g.tlvValues.lookup keyInformationTag = some v ∧ 40 + 20 ≤ v.length ∧
      ∃ f, GpgData.fingerprint (some g) .authenticationKey = .ok f ∧
        f = upperCaseHexString ((v.drop 40).take 20) ∧ f.length = 40 ∧
        GpgData.id (some g) .authenticationKey = .ok (f.drop (f.length - 16)) :=
  ⟨rfl, by decide, (GpgData.accessors_read_own_slot _ .authenticationKey).2.2.1 _ rfl (by decide)⟩

end Slots

-- ---------------------------------------------------------------------------
-- Origin and Algorithm
-- ---------------------------------------------------------------------------

theorem KeyType.offset_lt_keyTypeSize (k : KeyType) : k.offset < keyTypeSize := by
  cases k <;> decide

/-- What `Origin` does on a record, by the origin tag's value. -/
theorem GpgData.origin_eq (g : GpgData) (k : KeyType) :
    GpgData.origin (some g) k =
      match g.tlvValues.lookup keyOriginAttributesTag with
      | none => .error (.wrap "%w: key type %s not present" (.sentinel .keyNotPresent))
      | some v =>
        if v = [] then .error (.wrap "%w: key type %s not present" (.sentinel .keyNotPresent))
        else if v.length < keyTypeSize then .error (.sentinel .tooShort)
        else if keyOriginLast < (v.getD k.offset 0).toNat then
          .error (.wrap "keyValue: [%d] > KeyOriginLast:[%d] for Origin(%s): %w"
            (.sentinel .unknownKeyOrigin))
        else .ok (KeyOrigin.ofCode (v.getD k.offset 0).toNat) := by
  cases hl : g.tlvValues.lookup keyOriginAttributesTag with
  | none => simp [GpgData.origin, GpgData.hasTag, hl]
  | some v =>
    by_cases h0 : v = []
    · subst h0; simp [GpgData.origin, GpgData.hasTag, hl]
    by_cases h4 : v.length < keyTypeSize
    · have : v.length ≠ 0 := by simpa using h0
      simp [GpgData.origin, GpgData.hasTag, GpgData.getTag, hl, h0, h4, this]
    · have hk : k.offset < v.length := by have := k.offset_lt_keyTypeSize; omega
      have : v.length ≠ 0 := by omega
      simp [GpgData.origin, GpgData.hasTag, GpgData.getTag, hl, h0, h4, this,
        List.getElem?_eq_getElem hk]

/-- What `Algorithm` does with the attributes tag `v` of a key. -/
theorem GpgData.algorithm_of_getTag_ok {g : GpgData} {k : KeyType} {key : String} {v : Bytes}
    (hk : k.algorithmAttributesTag = some key) (h : g.getTag key 1 = .ok v) :
    GpgData.algorithm (some g) k =
      if 3 < (v.getD 0 0).toNat then
        if v.length < 3 then
          .error (.wrap "%w: expected length [%d] > [3]" (.sentinel .noSuchAlgorithm))
        else .ok (str "RSA " ++ fmtD (256 * (v.getD 1 0).toNat + (v.getD 2 0).toNat))
      else .ok (str "Alg=" ++ fmtLeftD 4 (v.getD 0 0).toNat) := by
  obtain ⟨x, rest, rfl⟩ : ∃ x rest, v = x :: rest := by
    cases v with
    | nil => simp [GpgData.getTag_eq_ok] at h
    | cons x rest => exact ⟨x, rest, rfl⟩
  have hx : (x > 0 ∧ x > 3) ↔ 3 < x.toNat := by
    change (0 < x.toNat ∧ 3 < x.toNat) ↔ _; omega
  by_cases h3 : 3 < x.toNat
  · match rest with
    | [] | [_] => simp [GpgData.algorithm, hk, h, hx, h3]
    | y :: z :: rest =>
      simp [GpgData.algorithm, hk, h, hx, h3, toNat_uint16_mul_add]
  · simp [GpgData.algorithm, hk, h, hx, h3]

/-- No per-key accessor ever faults, on a record or on a nil one, for any key type: each returns
    a value or an error. -/
theorem GpgData.accessors_never_fault (g? : Option GpgData) (k : KeyType) :
    GpgData.algorithm g? k ≠ .panic ∧ GpgData.fingerprint g? k ≠ .panic ∧
      GpgData.id g? k ≠ .panic ∧ GpgData.date g? k ≠ .panic ∧ GpgData.origin g? k ≠ .panic := by
  cases g? with
  | none => simp [GpgData.algorithm, GpgData.fingerprint, GpgData.id, GpgData.date, GpgData.origin]
  | some g =>
    refine ⟨?_, ?_, ?_, ?_, ?_⟩
    · cases hk : k.algorithmAttributesTag with
      | none => simp [GpgData.algorithm, hk]
      | some key =>
        rcases g.getTag_ok_or_error key 1 with ⟨v, h⟩ | ⟨e, h⟩
        · rw [GpgData.algorithm_of_getTag_ok hk h]; split_ifs <;> simp
        · simp [GpgData.algorithm, hk, h]
    · rcases g.getTag_ok_or_error keyInformationTag (k.ordinal * 20 + 20) with ⟨v, h⟩ | ⟨e, h⟩
      · simp [GpgData.fingerprint_of_getTag_ok h]
      · simp [GpgData.fingerprint_of_getTag_error h]
    · rcases g.getTag_ok_or_error keyInformationTag (k.ordinal * 20 + 20) with ⟨v, h⟩ | ⟨e, h⟩
      · simp [GpgData.id_of_getTag_ok h]
      · simp [GpgData.id_of_getTag_error h]
    · rcases g.getTag_ok_or_error keyDateTag (k.ordinal * 4 + 4) with ⟨v, h⟩ | ⟨e, h⟩
      · simp [GpgData.date_of_getTag_ok h]
      · simp [GpgData.date_of_getTag_error h]
    · rw [GpgData.origin_eq]
      split
      · simp
      · split_ifs <;> simp

end Piv
