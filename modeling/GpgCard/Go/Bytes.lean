-- SUMMARY: Go byte strings, slice expressions, big-endian reads, and the `fmt` verbs the package formats numbers with.
import Mathlib.Data.Nat.Digits
import Mathlib.Data.List.GetD

/-!
# Byte strings and formatting

A Go `string` and a `[]byte` are both the list of their bytes here. This file
models the parts of the Go runtime and standard library that `gpg_data.go`
leans on: slice expressions (which panic out of range), `encoding/binary`'s
big-endian reads, and the `fmt` verbs `%X`, `%0wX`, `%d` and `%-*d`. It also
reads a hexadecimal numeral back, which is how the two serial numbers that
`update` derives are compared.
-/

namespace Go

/-- A Go `string` or `[]byte`: its bytes. A nil slice and an empty one are the same list; a
    function that tells them apart (`b == nil`) takes an `Option Bytes`, `none` the nil slice. -/
abbrev Bytes := List UInt8

/-- A string literal of ASCII characters, as its bytes. -/
def str (s : String) : Bytes := s.toList.map fun c => UInt8.ofNat c.toNat

-- ---------------------------------------------------------------------------
-- Slices and big-endian reads
-- ---------------------------------------------------------------------------

/-- The slice expression `b[lo:hi]`; `none` is the run-time panic when a bound is out of
    range. Go checks `hi` against the capacity, which the model takes to be the length. -/
def slice (b : Bytes) (lo hi : Nat) : Option Bytes :=
  if lo ≤ hi ∧ hi ≤ b.length then some ((b.drop lo).take (hi - lo)) else none

/-- The slice expression `b[lo:hi]` with `int` bounds: it panics unless `0 ≤ lo ≤ hi ≤ len(b)`,
    so a negative bound panics as well. -/
def sliceInt (b : Bytes) (lo hi : Int) : Option Bytes :=
  if 0 ≤ lo ∧ 0 ≤ hi then slice b lo.toNat hi.toNat else none

/-- The index expression `b[i]` with an `int` index: it panics unless `0 ≤ i < len(b)`. -/
def indexInt (b : Bytes) (i : Int) : Option UInt8 := if 0 ≤ i then b[i.toNat]? else none

/-- `binary.BigEndian.Uint16`: the first two bytes, most significant first. It panics on a
    shorter slice. -/
def bigEndianUint16 : Bytes → Option UInt16
  | b0 :: b1 :: _ => some (UInt16.ofNat (b0.toNat * 256 + b1.toNat))
  | _ => none

/-- `binary.BigEndian.Uint32`: the first four bytes, most significant first. It panics on a
    shorter slice. -/
def bigEndianUint32 : Bytes → Option UInt32
  | b0 :: b1 :: b2 :: b3 :: _ =>
    some (UInt32.ofNat (((b0.toNat * 256 + b1.toNat) * 256 + b2.toNat) * 256 + b3.toNat))
  | _ => none

theorem slice_eq_some {b : Bytes} {lo hi : Nat} (h : lo ≤ hi) (h' : hi ≤ b.length) :
    slice b lo hi = some ((b.drop lo).take (hi - lo)) := if_pos ⟨h, h'⟩

/-- An index inside the slice reads the byte there. -/
theorem getElem?_eq_some_getD {b : Bytes} {i : Nat} (h : i < b.length) :
    b[i]? = some (b.getD i 0) := by
  rw [List.getElem?_eq_getElem h, List.getD_eq_getElem _ _ h]

theorem sliceInt_eq_some {b : Bytes} {lo hi : Int} (h0 : 0 ≤ lo) (h : lo ≤ hi)
    (h' : hi ≤ b.length) : sliceInt b lo hi = some ((b.drop lo.toNat).take (hi - lo).toNat) := by
  rw [sliceInt, if_pos ⟨h0, by omega⟩, slice_eq_some (by omega) (by omega)]
  congr 2
  omega

theorem indexInt_eq_some {b : Bytes} {i : Int} (h0 : 0 ≤ i) (h : i < b.length) :
    indexInt b i = some (b.getD i.toNat 0) := by
  rw [indexInt, if_pos h0, getElem?_eq_some_getD (by omega)]

theorem slice_length {b s : Bytes} {lo hi : Nat} (h : slice b lo hi = some s) :
    s.length = hi - lo := by
  unfold slice at h
  split at h
  · cases h; simp only [List.length_take, List.length_drop]; omega
  · cases h

/-- The number two bytes spell as a `uint16`, most significant first. -/
theorem toNat_uint16_ofNat_pair (b0 b1 : UInt8) :
    (UInt16.ofNat (b0.toNat * 256 + b1.toNat)).toNat = 256 * b0.toNat + b1.toNat := by
  have := b0.toNat_lt_size; have := b1.toNat_lt_size
  rw [UInt16.toNat_ofNat_of_lt (by simp only [UInt16.size, UInt8.size] at *; omega)]
  ring

/-- `uint16(b0)*256 + uint16(b1)` does not wrap: it is the number the two bytes spell. -/
theorem toNat_uint16_mul_add (b0 b1 : UInt8) :
    (b0.toUInt16 * 256 + b1.toUInt16).toNat = 256 * b0.toNat + b1.toNat := by
  have h0 := b0.toNat_lt_size; have h1 := b1.toNat_lt_size
  simp only [UInt8.size] at h0 h1
  have hadd : ∀ a b : UInt16, (a + b).toNat = (a.toNat + b.toNat) % 2 ^ 16 :=
    fun _ _ => BitVec.toNat_add _ _
  have hmul : ∀ a b : UInt16, (a * b).toNat = a.toNat * b.toNat % 2 ^ 16 :=
    fun _ _ => BitVec.toNat_mul _ _
  rw [hadd, hmul]
  change (b0.toNat * 256 % 2 ^ 16 + b1.toNat) % 2 ^ 16 = _
  omega

/-- The number four bytes spell as a `uint32`, most significant first. -/
theorem toNat_uint32_ofNat_quad (b0 b1 b2 b3 : UInt8) :
    (UInt32.ofNat (((b0.toNat * 256 + b1.toNat) * 256 + b2.toNat) * 256 + b3.toNat)).toNat =
      2 ^ 24 * b0.toNat + 2 ^ 16 * b1.toNat + 2 ^ 8 * b2.toNat + b3.toNat := by
  have := b0.toNat_lt_size; have := b1.toNat_lt_size
  have := b2.toNat_lt_size; have := b3.toNat_lt_size
  rw [UInt32.toNat_ofNat_of_lt (by simp only [UInt32.size, UInt8.size] at *; omega)]
  ring

theorem bigEndianUint32_toNat (b0 b1 b2 b3 : UInt8) (rest : Bytes) :
    (bigEndianUint32 (b0 :: b1 :: b2 :: b3 :: rest)).map UInt32.toNat =
      some (2 ^ 24 * b0.toNat + 2 ^ 16 * b1.toNat + 2 ^ 8 * b2.toNat + b3.toNat) := by
  rw [bigEndianUint32, Option.map_some', toNat_uint32_ofNat_quad]

/-- The `n + 1` bytes from `i` on are byte `i` and the `n` after it. -/
theorem take_succ_drop {b : Bytes} {i n : Nat} (h : i < b.length) :
    (b.drop i).take (n + 1) = b.getD i 0 :: (b.drop (i + 1)).take n := by
  rw [List.drop_eq_getElem_cons h, List.getD_eq_getElem _ _ h]; rfl

-- ---------------------------------------------------------------------------
-- The fmt verbs
-- ---------------------------------------------------------------------------

/-- The digit `d < 16` as `fmt` prints it: `0`–`9`, then `A`–`F`. -/
def digitByte (d : Nat) : UInt8 := UInt8.ofNat (if d < 10 then 48 + d else 55 + d)

/-- The digits of `n` in base `base`, most significant first and with no leading zero; zero
    is the one digit `0`. -/
def digitsOf (base n : Nat) : List Nat := if n = 0 then [0] else (Nat.digits base n).reverse

/-- `ds` padded on the left with zeros to `w` digits, as a `0` flag with width `w` pads. -/
def padDigits (w : Nat) (ds : List Nat) : List Nat := List.replicate (w - ds.length) 0 ++ ds

/-- The verb `%X`: `n` in upper-case hexadecimal. -/
def fmtX (n : Nat) : Bytes := (digitsOf 16 n).map digitByte

/-- The verb `%0wX` (`%02X` at `w = 2`): `%X` padded on the left with zeros to `w` digits. -/
def fmtPadX (w n : Nat) : Bytes := (padDigits w (digitsOf 16 n)).map digitByte

/-- The verb `%d`: `n` in decimal. -/
def fmtD (n : Nat) : Bytes := (digitsOf 10 n).map digitByte

/-- The verb `%-*d` with width `w`: `%d` padded on the right with spaces to `w` bytes. -/
def fmtLeftD (w n : Nat) : Bytes := fmtD n ++ List.replicate (w - (fmtD n).length) 32

/-- The value of a hexadecimal digit byte: the inverse of `digitByte`. -/
def hexValue (c : UInt8) : Nat := if c.toNat < 58 then c.toNat - 48 else c.toNat - 55

/-- A string read as a base-16 numeral, its last byte the least significant digit. -/
def readHex (s : Bytes) : Nat := Nat.ofDigits 16 (s.reverse.map hexValue)

theorem hexValue_digitByte {d : Nat} (h : d < 16) : hexValue (digitByte d) = d := by
  unfold hexValue digitByte
  split <;> rw [UInt8.toNat_ofNat_of_lt (by simp only [UInt8.size]; omega)] <;> split <;> omega

theorem readHex_append (s t : Bytes) :
    readHex (s ++ t) = 16 ^ t.length * readHex s + readHex t := by
  simp only [readHex, List.reverse_append, List.map_append, Nat.ofDigits_append,
    List.length_map, List.length_reverse]
  ring

/-- Reading back a string of digit bytes gives the number its digits spell. -/
theorem readHex_map_digitByte {ds : List Nat} (h : ∀ d ∈ ds, d < 16) :
    readHex (ds.map digitByte) = Nat.ofDigits 16 ds.reverse := by
  have : ds.reverse.map (hexValue ∘ digitByte) = ds.reverse.map id :=
    List.map_congr_left fun d hd => hexValue_digitByte (h d (List.mem_reverse.mp hd))
  rw [List.map_id] at this
  simp only [readHex, List.map_reverse, List.map_map, ← List.map_reverse, this]

theorem digitsOf_lt {base n d : Nat} (hb : 1 < base) (h : d ∈ digitsOf base n) : d < base := by
  unfold digitsOf at h
  split at h
  · simp only [List.mem_singleton] at h; omega
  · exact Nat.digits_lt_base hb (List.mem_reverse.mp h)

theorem ofDigits_digitsOf (base n : Nat) :
    Nat.ofDigits base (digitsOf base n).reverse = n := by
  unfold digitsOf
  split
  · simp [*]
  · simp [Nat.ofDigits_digits]

theorem padDigits_lt {w b : Nat} {ds : List Nat} (hb : 0 < b) (h : ∀ d ∈ ds, d < b) :
    ∀ d ∈ padDigits w ds, d < b := by
  intro d hd
  rcases List.mem_append.mp hd with hd | hd
  · rw [List.eq_of_mem_replicate hd]; exact hb
  · exact h d hd

private theorem ofDigits_replicate_zero (b k : Nat) : Nat.ofDigits b (List.replicate k 0) = 0 := by
  induction k with
  | zero => rfl
  | succ k ih => simp [List.replicate_succ, Nat.ofDigits_cons, ih]

theorem ofDigits_padDigits (b w : Nat) (ds : List Nat) :
    Nat.ofDigits b (padDigits w ds).reverse = Nat.ofDigits b ds.reverse := by
  simp [padDigits, Nat.ofDigits_append, ofDigits_replicate_zero]

/-- `%X` read back as a hexadecimal numeral is the number printed. -/
theorem readHex_fmtX (n : Nat) : readHex (fmtX n) = n := by
  rw [fmtX, readHex_map_digitByte (fun d => digitsOf_lt (by norm_num)), ofDigits_digitsOf]

/-- So is `%0wX`: the padding zeros add nothing. -/
theorem readHex_fmtPadX (w n : Nat) : readHex (fmtPadX w n) = n := by
  rw [fmtPadX, readHex_map_digitByte (padDigits_lt (by norm_num)
    (fun d => digitsOf_lt (by norm_num))), ofDigits_padDigits, ofDigits_digitsOf]

/-- Two digit strings of one length that spell the same number are the same string. -/
theorem eq_of_ofDigits_eq {b : Nat} {ds es : List Nat} (hd : ∀ d ∈ ds, d < b)
    (he : ∀ e ∈ es, e < b) (hl : ds.length = es.length)
    (h : Nat.ofDigits b ds = Nat.ofDigits b es) : ds = es := by
  induction ds generalizing es with
  | nil => cases es <;> simp_all
  | cons d ds ih =>
    cases es with
    | nil => simp at hl
    | cons e es =>
      simp only [List.mem_cons, forall_eq_or_imp, Nat.ofDigits_cons, List.length_cons,
        Nat.add_right_cancel_iff] at hd he hl h
      have hde : d = e := by
        have := congrArg (· % b) h
        simpa [Nat.add_mul_mod_self_left, Nat.mod_eq_of_lt hd.1, Nat.mod_eq_of_lt he.1] using this
      subst hde
      have hpos : 0 < b := by omega
      rw [ih hd.2 he.2 hl (Nat.eq_of_mul_eq_mul_left hpos (by omega))]

/-- Two digits print as the same byte only if they are the same digit. -/
theorem digitByte_inj {d e : Nat} (hd : d < 16) (he : e < 16) : digitByte d = digitByte e ↔ d = e :=
  ⟨fun h => by rw [← hexValue_digitByte hd, h, hexValue_digitByte he], congrArg digitByte⟩

theorem length_digitsOf_le {base n w : Nat} (hb : 1 < base) (hw : 0 < w) (h : n < base ^ w) :
    (digitsOf base n).length ≤ w := by
  unfold digitsOf
  split
  · simpa using hw
  · rw [List.length_reverse, Nat.digits_len _ _ hb ‹_›]
    have := Nat.log_lt_of_lt_pow ‹_› h
    omega

theorem length_padDigits {w : Nat} {ds : List Nat} (h : ds.length ≤ w) :
    (padDigits w ds).length = w := by
  simp only [padDigits, List.length_append, List.length_replicate]; omega

/-- A string of `w > 0` digits is `%0wX` of the number it spells. -/
theorem fmtPadX_ofDigits {w : Nat} {ds : List Nat} (hw : 0 < w) (hd : ∀ d ∈ ds, d < 16)
    (hl : ds.length = w) : fmtPadX w (Nat.ofDigits 16 ds.reverse) = ds.map digitByte := by
  have hlt : Nat.ofDigits 16 ds.reverse < 16 ^ w := by
    simpa [hl] using Nat.ofDigits_lt_base_pow_length (by norm_num : 1 < 16)
      (fun d h => hd d (List.mem_reverse.mp h))
  have hlen := length_padDigits (length_digitsOf_le (by norm_num) hw hlt)
  rw [fmtPadX]
  congr 1
  apply List.reverse_injective
  apply eq_of_ofDigits_eq (fun d h => padDigits_lt (by norm_num)
    (fun d => digitsOf_lt (by norm_num)) d (List.mem_reverse.mp h))
    (fun d h => hd d (List.mem_reverse.mp h)) (by simp [hlen, hl])
  rw [ofDigits_padDigits, ofDigits_digitsOf]

/-- The base-16 digits of a byte: one digit below 16, two from 16 on. -/
theorem digitsOf_byte {n : Nat} (h : n < 256) :
    digitsOf 16 n = if n < 16 then [n] else [n / 16, n % 16] := by
  unfold digitsOf
  split_ifs with h0 h16 h16
  · rw [h0]
  · omega
  · simp [Nat.digits_of_lt _ _ h0 h16]
  · rw [Nat.digits_def' (by norm_num) (by omega),
      Nat.digits_of_lt _ _ (by omega) (by omega)]
    rfl

/-- `%02X` of a byte is its two hexadecimal digits. -/
theorem fmtPadX_two_byte {n : Nat} (h : n < 256) :
    fmtPadX 2 n = [digitByte (n / 16), digitByte (n % 16)] := by
  rw [fmtPadX, digitsOf_byte h]
  split_ifs with h16
  · simp [padDigits, Nat.div_eq_of_lt h16, Nat.mod_eq_of_lt h16]
  · simp [padDigits]

/-- `%X` of a byte is `%02X` without its leading zero. -/
theorem fmtX_byte {n : Nat} (h : n < 256) :
    fmtX n = if n < 16 then (fmtPadX 2 n).tail else fmtPadX 2 n := by
  rw [fmtPadX_two_byte h, fmtX, digitsOf_byte h]
  split_ifs with h16 <;> simp [Nat.mod_eq_of_lt, *]

-- ---------------------------------------------------------------------------
-- ASCII
-- ---------------------------------------------------------------------------

/-- Every byte of `s` is ASCII. -/
def Ascii (s : Bytes) : Prop := ∀ b ∈ s, b < 0x80

instance : DecidablePred Ascii := fun s => inferInstanceAs (Decidable (∀ b ∈ s, b < 0x80))

theorem Ascii.append {s t : Bytes} (hs : Ascii s) (ht : Ascii t) : Ascii (s ++ t) := fun b hb =>
  (List.mem_append.mp hb).elim (hs b) (ht b)

/-- Digits print as ASCII bytes. -/
theorem ascii_map_digitByte {ds : List Nat} (h : ∀ d ∈ ds, d < 16) : Ascii (ds.map digitByte) := by
  intro b hb
  obtain ⟨d, hd, rfl⟩ := List.mem_map.mp hb
  have := h d hd
  change (digitByte d).toNat < 128
  unfold digitByte
  split <;> rw [UInt8.toNat_ofNat_of_lt (by simp only [UInt8.size]; omega)] <;> omega

theorem ascii_fmtX (n : Nat) : Ascii (fmtX n) :=
  ascii_map_digitByte fun _ => digitsOf_lt (by norm_num)

theorem ascii_fmtPadX (w n : Nat) : Ascii (fmtPadX w n) :=
  ascii_map_digitByte (padDigits_lt (by norm_num) fun _ => digitsOf_lt (by norm_num))

end Go
