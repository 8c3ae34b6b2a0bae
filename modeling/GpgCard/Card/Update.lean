-- SUMMARY: `update`, which builds the record from the tag map: what it derives from the application identifier, where it faults, the two serial numbers, and the capability flags it leaves stale.
import GpgCard.Card.Capabilities
import GpgCard.Card.CardHolder
import GpgCard.Card.KeyInfo

/-!
# Building the record

`update` runs once the tag map is filled in. It reads the application
identifier (`6E.4F`), derives the serial number twice (as text with `%X`
and `%02X`, and as a big-endian `uint32`), the card's long name, the
cardholder name, the RID, the application, the version and the
manufacturer, and then loads the extended capabilities.

`update_cases` says once what a run can do: `GetTag` refuses the identifier
and the record is untouched, or the identifier has exactly the 13 bytes
`GetTag` asks for and the read of byte 13 faults, or the identifier has 14
bytes or more and the run is `loadExtendedData` on the record `identify`
describes. Every result below is read off those three cases.
-/

namespace Piv

open Go

-- ---------------------------------------------------------------------------
-- The model
-- ---------------------------------------------------------------------------

section Update

variable (secureMessagingAlgorithmLast : UInt8)

/-- `update`: the identity fields from the application identifier and the cardholder name, then
    the extended capabilities. The `%X` verbs print a byte's value; `cardHolderBytes, _ :=`
    drops the error of `GetTag`, whose value is then nil. In `aid[8] == 0 && aid[9] == 6` the
    model reads `aid[9]` before the test: the `Sprintf` that follows reads it anyway, so no
    outcome changes. -/
def GpgData.update : Method Unit := do
  let aid ← (← get).getTag "6E.4F" 13
  let serial := fmtX (← aid[10]?).toNat ++ fmtPadX 2 (← aid[11]?).toNat ++
    fmtPadX 2 (← aid[12]?).toNat ++ fmtPadX 2 (← aid[13]?).toNat
  modify fun g => { g with serial }
  let serialInt ← bigEndianUint32 (← slice aid 10 14)
  modify fun g => { g with serialInt }
  let g ← get
  let longName := g.reader ++ str " SN " ++ g.serial ++ str " OpenPGP " ++
    fmtX (← aid[6]?).toNat ++ str "." ++ fmtX (← aid[7]?).toNat
  modify fun g => { g with longName }
  let cardHolderBytes := match (← get).getTag "65.5B" 0 with
    | .ok v => v
    | _ => []
  modify fun g => { g with cardHolder := parseCardHolderName cardHolderBytes }
  let rid := upperCaseHexString (← slice aid 0 5)
  modify fun g => { g with rid }
  let app := if (← aid[5]?) = 1 then str " (OpenPGP)" else []
  let application := upperCaseHexString (← slice aid 5 6) ++ app
  modify fun g => { g with application }
  let version := fmtX (← aid[6]?).toNat ++ str "." ++ fmtX (← aid[7]?).toNat
  modify fun g => { g with version }
  let a8 ← aid[8]?
  let a9 ← aid[9]?
  let mfg := if a8 = 0 ∧ a9 = 6 then str " (YubiCo)" else []
  let manufacturer := fmtPadX 2 a8.toNat ++ fmtPadX 2 a9.toNat ++ mfg
  modify fun g => { g with manufacturer }
  GpgData.loadExtendedData secureMessagingAlgorithmLast

end Update

-- ---------------------------------------------------------------------------
-- What a run does
-- ---------------------------------------------------------------------------

/-- The record as `update` leaves it before it loads the extended capabilities, from an
    identifier of 14 bytes or more (`b i` is byte `i`). -/
def GpgData.identify (g : GpgData) (aid : Bytes) : GpgData :=
  let b (i : Nat) : UInt8 := aid.getD i 0
  let serial := fmtX (b 10).toNat ++ fmtPadX 2 (b 11).toNat ++ fmtPadX 2 (b 12).toNat ++
    fmtPadX 2 (b 13).toNat
  { g with
    serial
    serialInt := UInt32.ofNat ((((b 10).toNat * 256 + (b 11).toNat) * 256 + (b 12).toNat) * 256 +
      (b 13).toNat)
    longName := g.reader ++ str " SN " ++ serial ++ str " OpenPGP " ++ fmtX (b 6).toNat ++
      str "." ++ fmtX (b 7).toNat
    cardHolder := parseCardHolderName (match g.getTag "65.5B" 0 with
      | .ok v => v
      | _ => [])
    rid := upperCaseHexString (aid.take 5)
    application := upperCaseHexString [b 5] ++ if b 5 = 1 then str " (OpenPGP)" else []
    version := fmtX (b 6).toNat ++ str "." ++ fmtX (b 7).toNat
    manufacturer := fmtPadX 2 (b 8).toNat ++ fmtPadX 2 (b 9).toNat ++
      if b 8 = 0 ∧ b 9 = 6 then str " (YubiCo)" else [] }

/-- The eight identity fields `update` derives. -/
structure Identity where
  serial : Bytes
  serialInt : UInt32
  longName : Bytes
  cardHolder : Bytes
  rid : Bytes
  application : Bytes
  version : Bytes
  manufacturer : Bytes
  deriving DecidableEq, Repr

/-- The identity fields of `g`. -/
def GpgData.identity (g : GpgData) : Identity :=
  ⟨g.serial, g.serialInt, g.longName, g.cardHolder, g.rid, g.application, g.version,
    g.manufacturer⟩

/-- `g` with every field that `update` derives back at its zero value: only the reader, the tag
    map and the applet version are kept. -/
def GpgData.clearDerived (g : GpgData) : GpgData :=
  { reader := g.reader, tlvValues := g.tlvValues, appletVersion := g.appletVersion }

/-- The identity `identify` gives reads the reader and the tag map only. -/
theorem GpgData.identify_identity_congr {g g' : GpgData} (aid : Bytes) (hr : g.reader = g'.reader)
    (ht : g.tlvValues = g'.tlvValues) : (g.identify aid).identity = (g'.identify aid).identity := by
  simp only [GpgData.identify, GpgData.identity, hr, GpgData.getTag_congr ht]

/-- A record that already holds the identity `identify` gives is left as it is. -/
theorem GpgData.identify_of_identity {g : GpgData} {aid : Bytes}
    (h : g.identity = (g.identify aid).identity) : g.identify aid = g := by
  cases g
  simp only [GpgData.identify, GpgData.identity, Identity.mk.injEq, GpgData.mk.injEq, true_and,
    and_true] at h ⊢
  obtain ⟨h1, h2, h3, h4, h5, h6, h7, h8⟩ := h
  exact ⟨h1.symm, h2.symm, h3.symm, h4.symm, h5.symm, h6.symm, h7.symm, h8.symm⟩

/-- `loadExtendedData` writes capability fields only. -/
theorem GpgData.loadExtendedData_identity (secureMessagingAlgorithmLast : UInt8) (g : GpgData) :
    (GpgData.loadExtendedData secureMessagingAlgorithmLast g).2.identity = g.identity := by
  rcases g.getTag_ok_or_error extendedCapabilitiesTag 10 with ⟨t, ht⟩ | ⟨e, he⟩
  · rw [GpgData.loadExtendedData_of_getTag_ok _ ht,
      GpgData.decodeExtendedCapabilities_eq _ (GpgData.getTag_eq_ok.mp ht).2]
    split <;> rfl
  · rw [GpgData.loadExtendedData_of_getTag_error _ he]
    rfl

section Runs

variable (secureMessagingAlgorithmLast : UInt8) {g : GpgData} {aid : Bytes}

/-- `GetTag` refusing the identifier ends the run with its error, the record untouched. -/
theorem GpgData.update_of_getTag_error {e : Error} (h : g.getTag "6E.4F" 13 = .error e) :
    GpgData.update secureMessagingAlgorithmLast g = (.error e, g) := by
  simp only [GpgData.update, Method.bind_apply, Method.get_apply, Method.lift_apply, h]

/-- An identifier of exactly 13 bytes passes `GetTag` and faults at `aid[13]`, before anything
    is assigned. -/
theorem GpgData.update_of_thirteen_bytes (h : g.getTag "6E.4F" 13 = .ok aid)
    (h13 : aid.length = 13) : GpgData.update secureMessagingAlgorithmLast g = (.panic, g) := by
  have hb : ∀ i, i < 13 → aid[i]? = some (aid.getD i 0) := fun i hi =>
    getElem?_eq_some_getD (by omega)
  have hpast : aid[13]? = none := List.getElem?_eq_none (by omega)
  simp only [GpgData.update, Method.bind_apply, Method.get_apply, Method.lift_apply,
    Method.liftOption_apply, h, hb 10 (by omega), hb 11 (by omega), hb 12 (by omega), hpast,
    Result.lift_some, Result.lift_none]

/-- From an identifier of 14 bytes or more, `update` is `loadExtendedData` on the record
    `identify` describes. -/
theorem GpgData.update_of_long_aid (h : g.getTag "6E.4F" 13 = .ok aid) (h14 : 14 ≤ aid.length) :
    GpgData.update secureMessagingAlgorithmLast g =
      GpgData.loadExtendedData secureMessagingAlgorithmLast (g.identify aid) := by
  have hb : ∀ i, i < 14 → aid[i]? = some (aid.getD i 0) := fun i hi =>
    getElem?_eq_some_getD (by omega)
  have hserial : slice aid 10 14 =
      some [aid.getD 10 0, aid.getD 11 0, aid.getD 12 0, aid.getD 13 0] := by
    rw [slice_eq_some (by omega) h14, take_succ_drop (by omega), take_succ_drop (by omega),
      take_succ_drop (by omega), take_succ_drop (by omega), List.take_zero]
  have happ : slice aid 5 6 = some [aid.getD 5 0] := by
    rw [slice_eq_some (by omega) (by omega), take_succ_drop (by omega), List.take_zero]
  simp only [GpgData.update, Method.bind_apply, Method.get_apply, Method.lift_apply,
    Method.liftOption_apply, Method.modify_apply, h, hb 5 (by omega), hb 6 (by omega),
    hb 7 (by omega), hb 8 (by omega), hb 9 (by omega), hb 10 (by omega), hb 11 (by omega),
    hb 12 (by omega), hb 13 (by omega), hserial, happ,
    slice_eq_some (show 0 ≤ 5 by omega) (show 5 ≤ aid.length by omega), Result.lift_some,
    bigEndianUint32]
  rfl

/-- From an identifier of 14 bytes or more, the identity fields are those `identify` gives. -/
theorem GpgData.update_identity_of_long_aid (h : g.getTag "6E.4F" 13 = .ok aid)
    (h14 : 14 ≤ aid.length) :
    (GpgData.update secureMessagingAlgorithmLast g).2.identity = (g.identify aid).identity := by
  rw [GpgData.update_of_long_aid _ h h14, GpgData.loadExtendedData_identity]

/-- What a run of `update` can do: `GetTag` refuses the identifier and the record is untouched;
    or the identifier has exactly 13 bytes and the run faults before any assignment; or it has
    14 bytes or more and the run is `loadExtendedData` on `identify`. -/
theorem GpgData.update_cases (g : GpgData) :
    (∃ e, g.getTag "6E.4F" 13 = .error e ∧
      GpgData.update secureMessagingAlgorithmLast g = (.error e, g)) ∨
    (∃ aid, g.getTag "6E.4F" 13 = .ok aid ∧ aid.length = 13 ∧
      GpgData.update secureMessagingAlgorithmLast g = (.panic, g)) ∨
    (∃ aid, g.getTag "6E.4F" 13 = .ok aid ∧ 14 ≤ aid.length ∧
      GpgData.update secureMessagingAlgorithmLast g =
        GpgData.loadExtendedData secureMessagingAlgorithmLast (g.identify aid)) := by
  rcases g.getTag_ok_or_error "6E.4F" 13 with ⟨aid, h⟩ | ⟨e, h⟩
  · have hl := (GpgData.getTag_eq_ok.mp h).2
    rcases Nat.lt_or_ge 13 aid.length with hlt | hge
    · exact .inr (.inr ⟨aid, h, hlt, GpgData.update_of_long_aid _ h hlt⟩)
    · exact .inr (.inl ⟨aid, h, by omega, GpgData.update_of_thirteen_bytes _ h (by omega)⟩)
  · exact .inl ⟨e, h, GpgData.update_of_getTag_error _ h⟩

/-- `update` faults exactly on an identifier of 13 bytes. -/
theorem GpgData.update_panics_iff :
    (GpgData.update secureMessagingAlgorithmLast g).1 = .panic ↔
      ∃ aid, g.tlvValues.lookup "6E.4F" = some aid ∧ aid.length = 13 := by
  constructor
  · intro hp
    rcases GpgData.update_cases secureMessagingAlgorithmLast g with
      ⟨e, -, he⟩ | ⟨aid, h, h13, -⟩ | ⟨aid, -, -, hl⟩
    · rw [he] at hp; cases hp
    · exact ⟨aid, (GpgData.getTag_eq_ok.mp h).1, h13⟩
    · exact absurd (hl ▸ hp) (GpgData.loadExtendedData_ne_panic _ _)
  · rintro ⟨aid, haid, h13⟩
    rw [GpgData.update_of_thirteen_bytes _ (GpgData.getTag_eq_ok.mpr ⟨haid, h13.ge⟩) h13]

/-- Every identifier of 13 bytes passes the length check of `GetTag`, and then `update` faults
    on it. -/
theorem GpgData.update_faults_on_thirteen_byte_aid (g : GpgData) {aid : Bytes}
    (haid : g.tlvValues.lookup "6E.4F" = some aid) (h13 : aid.length = 13) :
    g.getTag "6E.4F" 13 = .ok aid ∧ GpgData.update secureMessagingAlgorithmLast g = (.panic, g) :=
  have h := GpgData.getTag_eq_ok.mpr ⟨haid, h13.ge⟩
  ⟨h, GpgData.update_of_thirteen_bytes _ h h13⟩

/-- An OpenPGP card identifier, manufacturer `00 06`, cut to 13 bytes. -/
theorem GpgData.update_faults_on_aid13 :
    let aid : Bytes := [0xD2, 0x76, 0x00, 0x01, 0x24, 0x01, 0x03, 0x04, 0x00, 0x06, 0x12, 0x34, 0x56]
    let g : GpgData := { tlvValues := [("6E.4F", aid)] }
    g.tlvValues.lookup "6E.4F" = some aid ∧ aid.length = 13 ∧
      g.getTag "6E.4F" 13 = .ok aid ∧ GpgData.update 3 g = (.panic, g) :=
  ⟨rfl, rfl, GpgData.update_faults_on_thirteen_byte_aid 3
    { tlvValues := [("6E.4F", [0xD2, 0x76, 0x00, 0x01, 0x24, 0x01, 0x03, 0x04, 0x00, 0x06, 0x12,
      0x34, 0x56])] } rfl rfl⟩

end Runs

-- ---------------------------------------------------------------------------
-- The two serial numbers
-- ---------------------------------------------------------------------------

/-- The serial number as text, from the number: its eight hexadecimal digits with leading
    zeros, the first dropped when it is `0`. -/
def serialHex (serialInt : UInt32) : Bytes :=
  let digits := fmtPadX 8 serialInt.toNat
  if digits.head? = some (digitByte 0) then digits.tail else digits

/-- The text reads back as the number. -/
theorem readHex_serialHex (n : UInt32) : readHex (serialHex n) = n.toNat := by
  dsimp only [serialHex]
  split
  · rename_i h
    obtain ⟨t, ht⟩ := List.head?_eq_some_iff.mp h
    have hread := readHex_fmtPadX 8 n.toNat
    rw [ht, ← List.singleton_append, readHex_append] at hread
    rw [ht, List.tail_cons, ← hread]
    simp [readHex, hexValue_digitByte]
  · exact readHex_fmtPadX 8 n.toNat

/-- Two numbers never print as the same serial number. -/
theorem serialHex_injective : Function.Injective serialHex := fun n m h =>
  UInt32.toNat.inj (by rw [← readHex_serialHex n, h, readHex_serialHex])

/-- `%08X` of four bytes' big-endian value is their `%02X` one after another. -/
theorem fmtPadX_eight_bytes (b0 b1 b2 b3 : UInt8) :
    fmtPadX 8 (2 ^ 24 * b0.toNat + 2 ^ 16 * b1.toNat + 2 ^ 8 * b2.toNat + b3.toNat) =
      fmtPadX 2 b0.toNat ++ fmtPadX 2 b1.toNat ++ fmtPadX 2 b2.toNat ++ fmtPadX 2 b3.toNat := by
  have := b0.toNat_lt_size; have := b1.toNat_lt_size
  have := b2.toNat_lt_size; have := b3.toNat_lt_size
  have hd : ∀ d ∈ [b0.toNat / 16, b0.toNat % 16, b1.toNat / 16, b1.toNat % 16,
      b2.toNat / 16, b2.toNat % 16, b3.toNat / 16, b3.toNat % 16], d < 16 := by
    simp only [UInt8.size] at *; simp; omega
  have hval : 2 ^ 24 * b0.toNat + 2 ^ 16 * b1.toNat + 2 ^ 8 * b2.toNat + b3.toNat =
      Nat.ofDigits 16 [b0.toNat / 16, b0.toNat % 16, b1.toNat / 16, b1.toNat % 16,
        b2.toNat / 16, b2.toNat % 16, b3.toNat / 16, b3.toNat % 16].reverse := by
    simp [Nat.ofDigits]; omega
  rw [hval, fmtPadX_ofDigits (by norm_num : 0 < 8) hd rfl, fmtPadX_two_byte b0.toNat_lt_size,
    fmtPadX_two_byte b1.toNat_lt_size, fmtPadX_two_byte b2.toNat_lt_size,
    fmtPadX_two_byte b3.toNat_lt_size]
  rfl

/-- The text `update` formats, `%X%02X%02X%02X` of bytes 10 to 13, is `serialHex` of the
    number it reads from them: `%X` of byte 10 drops exactly the leading zero that `%08X` would
    print. -/
theorem GpgData.identify_serial (g : GpgData) (aid : Bytes) :
    (g.identify aid).serial = serialHex (g.identify aid).serialInt := by
  simp only [GpgData.identify, serialHex]
  rw [toNat_uint32_ofNat_quad, fmtPadX_eight_bytes]
  generalize aid.getD 10 0 = b0
  have h0 := b0.toNat_lt_size
  have hd : digitByte (b0.toNat / 16) = digitByte 0 ↔ b0.toNat < 16 := by
    rw [digitByte_inj (by simp only [UInt8.size] at h0; omega) (by norm_num)]; omega
  rw [fmtX_byte h0, fmtPadX_two_byte h0]
  by_cases h16 : b0.toNat < 16 <;> simp [hd, h16]

section Serial

variable (secureMessagingAlgorithmLast : UInt8)

/-- The two serial numbers of a record `update` builds agree: the text read as a hexadecimal
    numeral is the number, the text is `serialHex` of the number, and no other number prints
    as the same text. -/
theorem GpgData.update_serial_spells_serialInt (g : GpgData) {aid : Bytes}
    (haid : g.tlvValues.lookup "6E.4F" = some aid) (h14 : 14 ≤ aid.length) :
    let g' := (GpgData.update secureMessagingAlgorithmLast g).2
    readHex g'.serial = g'.serialInt.toNat ∧ g'.serial = serialHex g'.serialInt ∧
      ∀ n : UInt32, serialHex n = g'.serial → n = g'.serialInt := by
  intro g'
  have hid : g'.identity = (g.identify aid).identity := GpgData.update_identity_of_long_aid _
    (GpgData.getTag_eq_ok.mpr ⟨haid, by omega⟩) h14
  have hs : g'.serial = serialHex g'.serialInt := by
    rw [show g'.serial = g'.identity.serial from rfl, show g'.serialInt = g'.identity.serialInt
      from rfl, hid]
    exact GpgData.identify_serial g aid
  exact ⟨by rw [hs, readHex_serialHex], hs, fun n hn => serialHex_injective (hn.trans hs)⟩

/-- An identifier whose byte 10 is below 16, so that `%X` prints it as one digit. -/
theorem GpgData.update_serial_spells_serialInt_shortFirstByte :
    let aid : Bytes :=
      [0xD2, 0x76, 0x00, 0x01, 0x24, 0x01, 0x03, 0x04, 0x00, 0x06, 0x01, 0x23, 0x45, 0x67, 0x00, 0x00]
    let g : GpgData := { tlvValues := [("6E.4F", aid)] }
    let g' := (GpgData.update 3 g).2
    g.tlvValues.lookup "6E.4F" = some aid ∧ 14 ≤ aid.length ∧
      readHex g'.serial = g'.serialInt.toNat ∧ g'.serial = serialHex g'.serialInt ∧
      ∀ n : UInt32, serialHex n = g'.serial → n = g'.serialInt :=
  ⟨rfl, by decide, GpgData.update_serial_spells_serialInt 3
    { tlvValues := [("6E.4F", [0xD2, 0x76, 0x00, 0x01, 0x24, 0x01, 0x03, 0x04, 0x00, 0x06, 0x01,
      0x23, 0x45, 0x67, 0x00, 0x00])] } rfl (by decide)⟩

end Serial

/-- The text fields `update` builds from the identifier are ASCII, whatever the reader's name,
    and the long name, which starts with the reader's name, is valid UTF-8 exactly when that name
    is. -/
theorem GpgData.update_text_is_utf8 (secureMessagingAlgorithmLast : UInt8) (g : GpgData)
    {aid : Bytes} (haid : g.tlvValues.lookup "6E.4F" = some aid) (h14 : 14 ≤ aid.length) :
    let g' := (GpgData.update secureMessagingAlgorithmLast g).2
    Ascii g'.serial ∧ Ascii g'.rid ∧ Ascii g'.application ∧ Ascii g'.version ∧
      Ascii g'.manufacturer ∧ (Utf8.Valid g'.longName ↔ Utf8.Valid g.reader) := by
  intro g'
  have hid : g'.identity = (g.identify aid).identity := GpgData.update_identity_of_long_aid _
    (GpgData.getTag_eq_ok.mpr ⟨haid, by omega⟩) h14
  show Ascii g'.identity.serial ∧ Ascii g'.identity.rid ∧ Ascii g'.identity.application ∧
    Ascii g'.identity.version ∧ Ascii g'.identity.manufacturer ∧
      (Utf8.Valid g'.identity.longName ↔ Utf8.Valid g.reader)
  rw [hid]
  have hserial : Ascii (g.identify aid).serial :=
    (((ascii_fmtX _).append (ascii_fmtPadX _ _)).append (ascii_fmtPadX _ _)).append
      (ascii_fmtPadX _ _)
  have hversion : Ascii (g.identify aid).version :=
    ((ascii_fmtX _).append (by decide)).append (ascii_fmtX _)
  refine ⟨hserial, ascii_upperCaseHexString _,
    (ascii_upperCaseHexString _).append (by split <;> decide), hversion,
    ((ascii_fmtPadX _ _).append (ascii_fmtPadX _ _)).append (by split <;> decide), ?_⟩
  have hname : (g.identify aid).longName =
      g.reader ++ (str " SN " ++ (g.identify aid).serial ++ str " OpenPGP " ++
        (g.identify aid).version) := by
    simp only [GpgData.identify, List.append_assoc]
  have htail : Ascii (str " SN " ++ (g.identify aid).serial ++ str " OpenPGP " ++
      (g.identify aid).version) :=
    (((by decide : Ascii (str " SN ")).append hserial).append (by decide)).append hversion
  show Utf8.Valid (g.identify aid).longName ↔ Utf8.Valid g.reader
  rw [hname]
  refine ⟨fun h => ?_, fun h => h.append (.of_ascii htail)⟩
  have hspace : g.reader ++ (str " SN " ++ (g.identify aid).serial ++ str " OpenPGP " ++
      (g.identify aid).version) = g.reader ++ 0x20 :: (str "SN " ++ (g.identify aid).serial ++
      str " OpenPGP " ++ (g.identify aid).version) := rfl
  exact (Utf8.Valid.split (hspace ▸ h) (by decide)).1

/-- A 16-byte identifier under a reader name with an accented letter, `à` as `C3 A0`. -/
theorem GpgData.update_text_is_utf8_accentedReader :
    let aid : Bytes :=
      [0xD2, 0x76, 0x00, 0x01, 0x24, 0x01, 0x03, 0x04, 0x00, 0x06, 0x12, 0x34, 0x56, 0x78, 0x00, 0x00]
    let g : GpgData := { reader := str "Lecteur de carte " ++ [0xC3, 0xA0] ++ str " puce",
                         tlvValues := [("6E.4F", aid)] }
    let g' := (GpgData.update 3 g).2
    g.tlvValues.lookup "6E.4F" = some aid ∧ 14 ≤ aid.length ∧
      Ascii g'.serial ∧ Ascii g'.rid ∧ Ascii g'.application ∧ Ascii g'.version ∧
      Ascii g'.manufacturer ∧ (Utf8.Valid g'.longName ↔ Utf8.Valid g.reader) :=
  ⟨rfl, by decide, GpgData.update_text_is_utf8 3
    { reader := str "Lecteur de carte " ++ [0xC3, 0xA0] ++ str " puce",
      tlvValues := [("6E.4F", [0xD2, 0x76, 0x00, 0x01, 0x24, 0x01, 0x03, 0x04, 0x00, 0x06, 0x12,
        0x34, 0x56, 0x78, 0x00, 0x00])] } rfl (by decide)⟩

-- ---------------------------------------------------------------------------
-- Stale capability flags
-- ---------------------------------------------------------------------------

section Stale

variable (secureMessagingAlgorithmLast : UInt8)

/-- Where the card has no extended-capabilities block, `update` on a record and on the same
    record with every derived field cleared both succeed with the same identity, and the
    cleared run ends with every capability at zero. The other run does not: `loadExtendedData`
    resets six capability fields, and the flags of secure messaging, GET CHALLENGE and the six
    `isSupported` tests keep whatever the record held before. -/
theorem GpgData.update_keeps_stale_flags (g : GpgData) {aid : Bytes}
    (haid : g.tlvValues.lookup "6E.4F" = some aid) (h14 : 14 ≤ aid.length)
    (hx : g.tlvValues.lookup extendedCapabilitiesTag = none) :
    let r := GpgData.update secureMessagingAlgorithmLast g
    let r₀ := GpgData.update secureMessagingAlgorithmLast g.clearDerived
    r.1 = .ok () ∧ r₀.1 = .ok () ∧ r.2.identity = r₀.2.identity ∧
      r₀.2.capabilities = Capabilities.zero ∧
      r.2.capabilities = { Capabilities.zero with
        secureMessagingSupported := g.secureMessagingSupported
        getChallengeSupported := g.getChallengeSupported
        keyImportSupported := g.keyImportSupported
        pwStatusChangeable := g.pwStatusChangeable
        privateUseDOsSupported := g.privateUseDOsSupported
        algorithmAttributesChangeable := g.algorithmAttributesChangeable
        supportsPSODecryptionEncryptionWithAES := g.supportsPSODecryptionEncryptionWithAES
        kdfSupported := g.kdfSupported } := by
  intro r r₀
  have h : g.getTag "6E.4F" 13 = .ok aid := GpgData.getTag_eq_ok.mpr ⟨haid, by omega⟩
  have h₀ : g.clearDerived.getTag "6E.4F" 13 = .ok aid := h
  have hnone : ∀ c : GpgData, c.tlvValues = g.tlvValues →
      c.getTag extendedCapabilitiesTag 10 = .error (.sentinel .noSuchTag) := fun c hc => by
    simp [GpgData.getTag, hc, hx]
  simp only [r, r₀, GpgData.update_of_long_aid _ h h14, GpgData.update_of_long_aid _ h₀ h14,
    GpgData.loadExtendedData_of_getTag_error _ (hnone (g.identify aid) rfl),
    GpgData.loadExtendedData_of_getTag_error _ (hnone (g.clearDerived.identify aid) rfl),
    Error.is_sentinel, decide_True,
    if_true]
  exact ⟨trivial, trivial, rfl, rfl, rfl⟩

/-- A record that still says it supports secure messaging, from an earlier card, run on a
    card without an extended-capabilities block. -/
theorem GpgData.update_keeps_stale_secureMessagingSupported :
    let aid : Bytes :=
      [0xD2, 0x76, 0x00, 0x01, 0x24, 0x01, 0x03, 0x04, 0x00, 0x06, 0x12, 0x34, 0x56, 0x78, 0x00, 0x00]
    let g : GpgData := { tlvValues := [("6E.4F", aid)], secureMessagingSupported := true }
    let r := GpgData.update 3 g
    let r₀ := GpgData.update 3 g.clearDerived
    g.tlvValues.lookup "6E.4F" = some aid ∧ 14 ≤ aid.length ∧
      g.tlvValues.lookup extendedCapabilitiesTag = none ∧
      r.1 = .ok () ∧ r₀.1 = .ok () ∧ r.2.secureMessagingSupported = true ∧
      r₀.2.secureMessagingSupported = false := by
  intro aid g r r₀
  obtain ⟨h, h₀, -, hc₀, hc⟩ :=
    GpgData.update_keeps_stale_flags 3 g (show g.tlvValues.lookup "6E.4F" = some aid from rfl)
      (by decide) rfl
  exact ⟨rfl, by decide, rfl, h, h₀, congrArg Capabilities.secureMessagingSupported hc,
    congrArg Capabilities.secureMessagingSupported hc₀⟩

/-- What `update` returns, and on success the identity and capabilities it leaves, depend on
    the reader, the tag map and the eight capability flags `loadExtendedData` does not reset, and
    on no other field of the record it starts from. -/
theorem GpgData.update_snapshot_but_unreset_flags (g g' : GpgData) (hr : g.reader = g'.reader)
    (ht : g.tlvValues = g'.tlvValues)
    (hf : g.resetExtendedData.capabilities = g'.resetExtendedData.capabilities) :
    (GpgData.update secureMessagingAlgorithmLast g).1 =
        (GpgData.update secureMessagingAlgorithmLast g').1 ∧
      ((GpgData.update secureMessagingAlgorithmLast g).1 = .ok () →
        (GpgData.update secureMessagingAlgorithmLast g).2.identity =
          (GpgData.update secureMessagingAlgorithmLast g').2.identity ∧
        (GpgData.update secureMessagingAlgorithmLast g).2.capabilities =
          (GpgData.update secureMessagingAlgorithmLast g').2.capabilities) := by
  have hT := GpgData.getTag_congr ht
  rcases GpgData.update_cases secureMessagingAlgorithmLast g with
    ⟨e, h, hu⟩ | ⟨aid, h, h13, hu⟩ | ⟨aid, h, h14, hu⟩
  · rw [hu, GpgData.update_of_getTag_error _ (hT ▸ h)]
    exact ⟨rfl, fun h => by cases h⟩
  · rw [hu, GpgData.update_of_thirteen_bytes _ (hT ▸ h) h13]
    exact ⟨rfl, fun h => by cases h⟩
  · rw [hu, GpgData.update_of_long_aid _ (hT ▸ h) h14]
    have hid := GpgData.identify_identity_congr aid hr ht
    obtain ⟨h1, h2⟩ := GpgData.loadExtendedData_congr secureMessagingAlgorithmLast
      (show (g.identify aid).tlvValues = (g'.identify aid).tlvValues from ht)
      (show (g.identify aid).resetExtendedData.capabilities =
        (g'.identify aid).resetExtendedData.capabilities from hf)
    refine ⟨h1, fun _ => ⟨?_, h2⟩⟩
    rw [GpgData.loadExtendedData_identity, GpgData.loadExtendedData_identity, hid]

/-- A record with a stale serial number and cardholder name against the same record cleared:
    the eight unreset flags are false in both, so `update` gives the same record. -/
theorem GpgData.update_snapshot_of_stale_identity :
    let g : GpgData := { tlvValues := [("6E.4F", [0xD2, 0x76, 0x00, 0x01, 0x24, 0x01, 0x03, 0x04,
      0x00, 0x06, 0x12, 0x34, 0x56, 0x78, 0x00, 0x00])], serial := str "1234", cardHolder := str "X" }
    g.reader = g.clearDerived.reader ∧ g.tlvValues = g.clearDerived.tlvValues ∧
      g.resetExtendedData.capabilities = g.clearDerived.resetExtendedData.capabilities ∧
      (GpgData.update 3 g).1 = (GpgData.update 3 g.clearDerived).1 ∧
      ((GpgData.update 3 g).1 = .ok () →
        (GpgData.update 3 g).2.identity = (GpgData.update 3 g.clearDerived).2.identity ∧
        (GpgData.update 3 g).2.capabilities = (GpgData.update 3 g.clearDerived).2.capabilities) :=
  ⟨rfl, rfl, rfl, GpgData.update_snapshot_but_unreset_flags 3 _ _ rfl rfl rfl⟩

/-- Run again on the record it built, a successful `update` changes nothing: the stale flags
    do not pile up. -/
theorem GpgData.update_idempotent (g : GpgData)
    (h : (GpgData.update secureMessagingAlgorithmLast g).1 = .ok ()) :
    GpgData.update secureMessagingAlgorithmLast (GpgData.update secureMessagingAlgorithmLast g).2 =
      (.ok (), (GpgData.update secureMessagingAlgorithmLast g).2) := by
  rcases GpgData.update_cases secureMessagingAlgorithmLast g with
    ⟨e, -, hu⟩ | ⟨aid, -, -, hu⟩ | ⟨aid, hA, h14, hu⟩
  · rw [hu] at h; cases h
  · rw [hu] at h; cases h
  · rw [hu] at h ⊢
    obtain ⟨hr, ht⟩ :=
      GpgData.loadExtendedData_source secureMessagingAlgorithmLast (g.identify aid)
    have hA' := GpgData.getTag_congr ht ▸ hA
    have hid : (GpgData.loadExtendedData secureMessagingAlgorithmLast (g.identify aid)).2.identity =
        ((GpgData.loadExtendedData secureMessagingAlgorithmLast (g.identify aid)).2.identify
          aid).identity := by
      rw [GpgData.loadExtendedData_identity, GpgData.identify_identity_congr aid hr ht]
      rfl
    rw [GpgData.update_of_long_aid _ hA' h14, GpgData.identify_of_identity hid,
      GpgData.loadExtendedData_idem _ h]

/-- A card with secure messaging announced, on a fresh record. -/
theorem GpgData.update_idempotent_sampleCard :
    let g : GpgData := { tlvValues := [("6E.4F", [0xD2, 0x76, 0x00, 0x01, 0x24, 0x01, 0x03, 0x04,
      0x00, 0x06, 0x12, 0x34, 0x56, 0x78, 0x00, 0x00]), (extendedCapabilitiesTag,
      [0xFD, 0x00, 0x0B, 0xFE, 0x08, 0x00, 0x00, 0xFF, 0x00, 0x00])] }
    (GpgData.update 3 g).1 = .ok () ∧
      GpgData.update 3 (GpgData.update 3 g).2 = (.ok (), (GpgData.update 3 g).2) :=
  have h : (GpgData.update 3 { tlvValues := [("6E.4F", [0xD2, 0x76, 0x00, 0x01, 0x24, 0x01, 0x03,
      0x04, 0x00, 0x06, 0x12, 0x34, 0x56, 0x78, 0x00, 0x00]), (extendedCapabilitiesTag,
      [0xFD, 0x00, 0x0B, 0xFE, 0x08, 0x00, 0x00, 0xFF, 0x00, 0x00])] }).1 = .ok () := by
    decide
  ⟨h, GpgData.update_idempotent 3 _ h⟩

end Stale

end Piv
