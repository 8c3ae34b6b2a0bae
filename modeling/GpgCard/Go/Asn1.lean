-- SUMMARY: `encoding/asn1`'s DER encoder for what `x509.MarshalPKIXPublicKey` writes (tags and lengths, INTEGERs from `*big.Int` and `int`, object identifiers, bit strings), and a DER reader for elements and INTEGERs.
import GpgCard.Go.Bytes
import Mathlib.Data.Nat.Bitwise

/-!
# DER

`asn1.Marshal` writes each value as a tag, a length and the content octets.
This file models the encoders `x509.MarshalPKIXPublicKey` reaches for an RSA
key: `appendTagAndLength`, `makeBigInt` for the `*big.Int` modulus,
`int64Encoder` for the `int` exponent, `makeObjectIdentifier`, and the bit
string encoder.

Both integer encoders write the shortest two's complement of their value,
`twos`: `makeBigInt_eq_twos` and `int64Encoder_eq_twos`. What is
proved about `twos` (it reads back with `readInt`, and it has no redundant
leading octet) then holds for both. `readTlv` reads one element from the front
of a byte string, and `readTlv_taggedEncoder` says that it takes back what
`appendTagAndLength` wrote.
-/

namespace Go.Asn1

/-- `asn1.StructuralError`, by its `Msg`; its `Error()` is `"asn1: structure error: " + Msg`. -/
structure StructuralError where
  msg : String
  deriving DecidableEq, Repr

/-- `byte(x)` for a signed `x`: its low eight bits. -/
def lowByte (x : Int) : UInt8 := UInt8.ofNat (x % 256).toNat

-- ---------------------------------------------------------------------------
-- Tags and lengths
-- ---------------------------------------------------------------------------

/-- `lengthLength(i)`: `numBytes := 1; for i > 255 { numBytes++; i >>= 8 }`. -/
def lengthLength (i : Nat) : Nat := if i > 255 then lengthLength (i >>> 8) + 1 else 1
termination_by i
decreasing_by rw [Nat.shiftRight_eq_div_pow]; omega

/-- `appendLength(dst, i)`: `byte(i>>uint((n-1)*8))` for `n` from `lengthLength(i)` down to 1. -/
def appendLength (i : Nat) : Bytes :=
  (List.range (lengthLength i)).reverse.map fun (n : Nat) => UInt8.ofNat (i >>> (n * 8))

/-- `base128IntLength`'s loop: `for i := n; i > 0; i >>= 7 { l++ }`. -/
def base128IntLength.loop (i : Nat) : Nat := if i > 0 then loop (i >>> 7) + 1 else 0
termination_by i
decreasing_by rw [Nat.shiftRight_eq_div_pow]; omega

/-- `base128IntLength(n)` for a non-negative `n`. -/
def base128IntLength (n : Nat) : Nat := if n = 0 then 1 else base128IntLength.loop n

/-- `appendBase128Int(dst, n)`: seven bits an octet, most significant first, the high bit set on
    every octet but the last. -/
def appendBase128Int (n : Nat) : Bytes :=
  (List.range (base128IntLength n)).reverse.map fun i =>
    let o := UInt8.ofNat (n >>> (i * 7)) &&& 0x7f
    if i ≠ 0 then o ||| 0x80 else o

/-- `appendTagAndLength(dst, tagAndLength{class, tag, length, isCompound})`: the identifier
    octets, then the length in one octet below 128 and in the long form from 128 on. -/
def appendTagAndLength (cls tag length : Nat) (isCompound : Bool) : Bytes :=
  let b : UInt8 := UInt8.ofNat cls <<< 6 ||| (if isCompound then 0x20 else 0)
  let ident := if tag ≥ 31 then (b ||| 0x1f) :: appendBase128Int tag else [b ||| UInt8.ofNat tag]
  ident ++ if length ≥ 128 then
    (0x80 ||| UInt8.ofNat (lengthLength length)) :: appendLength length
  else [UInt8.ofNat length]

/-- A `taggedEncoder` of the universal class, as `makeField` builds it: the tag and length of
    the body, then the body. -/
def taggedEncoder (tag : Nat) (isCompound : Bool) (body : Bytes) : Bytes :=
  appendTagAndLength 0 tag body.length isCompound ++ body

-- ---------------------------------------------------------------------------
-- Content encoders
-- ---------------------------------------------------------------------------

/-- `makeObjectIdentifier(oid)` with its `oidEncoder`: the first two components as
    `oid[0]*40+oid[1]`, then the others, each in base 128. The components here are
    non-negative. -/
def makeObjectIdentifier : List Nat → Except StructuralError Bytes
  | o0 :: o1 :: rest =>
    if o0 > 2 ∨ (o0 < 2 ∧ o1 ≥ 40) then .error ⟨"invalid object identifier"⟩
    else .ok (appendBase128Int (o0 * 40 + o1) ++ (rest.map appendBase128Int).flatten)
  | _ => .error ⟨"invalid object identifier"⟩

/-- `(*big.Int).Bytes()` of a non-negative value: its magnitude, most significant octet first,
    with no leading zero octet; zero has none. -/
def bigBytes (n : Nat) : Bytes := if n = 0 then [] else bigBytes (n / 256) ++ [UInt8.ofNat n]
termination_by n
decreasing_by omega

/-- `makeBigInt(n)`, the content octets of an INTEGER from a `*big.Int`. A nil pointer is a
    structural error. A negative `n` is written as the complement of the magnitude of `-n - 1`,
    after an `0xff` octet where its top bit is clear; zero is one `0x00`; a positive `n` is its
    magnitude, after a `0x00` octet where its top bit is set. -/
def makeBigInt : Option Int → Except StructuralError Bytes
  | none => .error ⟨"empty integer"⟩
  | some n =>
    if n < 0 then
      let bytes := (bigBytes (-n - 1).toNat).map (· ^^^ 0xff)
      if bytes.length = 0 ∨ bytes.headD 0 &&& 0x80 = 0 then .ok (0xff :: bytes) else .ok bytes
    else if n = 0 then .ok [0x00]
    else
      let bytes := bigBytes n.toNat
      if bytes.length > 0 ∧ bytes.headD 0 &&& 0x80 ≠ 0 then .ok (0x00 :: bytes) else .ok bytes

/-- The first loop of `int64Length`: `for i > 127 { numBytes++; i >>= 8 }`. -/
def int64Length.up (i : Int) (numBytes : Nat) : Int × Nat :=
  if i > 127 then up (i >>> (8 : Nat)) (numBytes + 1) else (i, numBytes)
termination_by i.toNat
decreasing_by rw [Int.shiftRight_eq_div_pow]; omega

/-- The second loop of `int64Length`: `for i < -128 { numBytes++; i >>= 8 }`. -/
def int64Length.down (i : Int) (numBytes : Nat) : Nat :=
  if i < -128 then down (i >>> (8 : Nat)) (numBytes + 1) else numBytes
termination_by (-i).toNat
decreasing_by rw [Int.shiftRight_eq_div_pow]; omega

/-- `int64Length(i)`: the octets of the shortest two's complement of `i`. -/
def int64Length (i : Int) : Nat :=
  let r := int64Length.up i 1
  int64Length.down r.1 r.2

/-- `int64Encoder(i).Encode`: `byte(i >> uint((n-1-j)*8))` for `j` from 0 to `n - 1`, where
    `n = int64Length(i)`. Go's `int` is 64 bits wide; the definition reads any integer. -/
def int64Encoder (i : Int) : Bytes :=
  let n := int64Length i
  (List.range n).map fun (j : Nat) => lowByte (i >>> ((n - 1 - j) * 8))

/-- `asn1.BitString`: the bits' octets and how many bits there are. -/
structure BitString where
  bytes : Bytes
  bitLength : Nat

/-- `bitStringEncoder`: the count of unused bits in the last octet, then the octets. -/
def bitStringEncoder (b : BitString) : Bytes :=
  UInt8.ofNat ((8 - b.bitLength % 8) % 8) :: b.bytes

-- ---------------------------------------------------------------------------
-- Two's complement
-- ---------------------------------------------------------------------------

/-- The shortest two's complement of `i`, most significant octet first: the
    content octets of a DER INTEGER. -/
def twos (i : Int) : Bytes :=
  if -128 ≤ i ∧ i < 128 then [lowByte i] else twos (i >>> (8 : Nat)) ++ [lowByte i]
termination_by i.toNat + (-i).toNat
decreasing_by rw [Int.shiftRight_eq_div_pow]; omega

/-- The integer that octets stand for in two's complement, most significant first. -/
def signedValue : Bytes → Int
  | [] => 0
  | b :: rest =>
    rest.foldl (fun acc x => acc * 256 + x.toNat) (if b < 0x80 then b.toNat else b.toNat - 256)

/-- No redundant leading octet: the first nine bits are neither all zero nor all one. -/
def Minimal : Bytes → Prop
  | b0 :: b1 :: _ => ¬ (b0 = 0x00 ∧ b1 < 0x80) ∧ ¬ (b0 = 0xff ∧ 0x80 ≤ b1)
  | _ => True

instance : DecidablePred Minimal
  | _ :: _ :: _ => inferInstanceAs (Decidable (¬ _ ∧ ¬ _))
  | [_] => isTrue trivial
  | [] => isTrue trivial

/-- The content octets of a DER INTEGER read back: one octet or more, none of them redundant. -/
def readInt (c : Bytes) : Option Int := if c ≠ [] ∧ Minimal c then some (signedValue c) else none

theorem byte_lt_iff {a b : UInt8} : a < b ↔ a.toNat < b.toNat := Iff.rfl

theorem byte_le_iff {a b : UInt8} : a ≤ b ↔ a.toNat ≤ b.toNat := Iff.rfl

theorem byte_ext {a b : UInt8} (h : a.toNat = b.toNat) : a = b := UInt8.toNat.inj h

theorem lowByte_toNat (x : Int) : ((lowByte x).toNat : Int) = x % 256 := by
  have h0 : 0 ≤ x % 256 := Int.emod_nonneg _ (by decide)
  have h1 : x % 256 < 256 := Int.emod_lt_of_pos _ (by decide)
  rw [lowByte, UInt8.toNat_ofNat_of_lt (by simp only [UInt8.size]; omega), Int.toNat_of_nonneg h0]

theorem twos_of_small {i : Int} (h : -128 ≤ i ∧ i < 128) : twos i = [lowByte i] := by
  rw [twos, if_pos h]

theorem twos_of_large {i : Int} (h : ¬ (-128 ≤ i ∧ i < 128)) :
    twos i = twos (i / 256) ++ [lowByte i] := by
  rw [twos, if_neg h, Int.shiftRight_eq_div_pow]
  rfl

theorem twos_ne_nil (i : Int) : twos i ≠ [] := by
  by_cases h : -128 ≤ i ∧ i < 128
  · simp [twos_of_small h]
  · simp [twos_of_large h]

theorem signedValue_append_single {xs : Bytes} (h : xs ≠ []) (b : UInt8) :
    signedValue (xs ++ [b]) = signedValue xs * 256 + b.toNat := by
  obtain ⟨a, as, rfl⟩ := List.exists_cons_of_ne_nil h
  simp only [List.cons_append, signedValue, List.foldl_append, List.foldl_cons, List.foldl_nil]

/-- The shortest two's complement stands for the integer it was written from. -/
theorem signedValue_twos (i : Int) : signedValue (twos i) = i := by
  induction i using twos.induct with
  | case1 i h =>
    have hb := lowByte_toNat i
    rw [twos_of_small h, signedValue, List.foldl_nil]
    split
    · next hlt => rw [byte_lt_iff] at hlt; change _ < 128 at hlt; omega
    · next hlt => rw [byte_lt_iff] at hlt; change ¬ _ < 128 at hlt; omega
  | case2 i h ih =>
    rw [Int.shiftRight_eq_div_pow] at ih
    have ih' : signedValue (twos (i / 256)) = i / 256 := ih
    rw [twos_of_large h, signedValue_append_single (twos_ne_nil _), ih', lowByte_toNat]
    omega

theorem Minimal.append_single {xs : Bytes} (h : 2 ≤ xs.length) (hm : Minimal xs) (b : UInt8) :
    Minimal (xs ++ [b]) := by
  match xs, h with
  | _ :: _ :: _, _ => exact hm

/-- The shortest two's complement has no redundant leading octet. -/
theorem minimal_twos (i : Int) : Minimal (twos i) := by
  induction i using twos.induct with
  | case1 i h => rw [twos_of_small h]; trivial
  | case2 i h ih =>
    rw [Int.shiftRight_eq_div_pow] at ih
    change Minimal (twos (i / 256)) at ih
    rw [twos_of_large h]
    by_cases hj : -128 ≤ i / 256 ∧ i / 256 < 128
    · have hj0 := lowByte_toNat (i / 256)
      have hi0 := lowByte_toNat i
      rw [twos_of_small hj]
      refine ⟨fun ⟨h0, h1⟩ => ?_, fun ⟨h0, h1⟩ => ?_⟩
      · have := congrArg UInt8.toNat h0
        rw [byte_lt_iff] at h1; change _ < 128 at h1
        change _ = 0 at this; omega
      · have := congrArg UInt8.toNat h0
        rw [byte_le_iff] at h1; change 128 ≤ _ at h1
        change _ = 255 at this; omega
    · rw [twos_of_large hj] at ih ⊢
      exact ih.append_single (by simp [List.length_append]; exact List.length_pos.mpr (twos_ne_nil _)) _

/-- `readInt` reads back every shortest two's complement. -/
theorem readInt_twos (i : Int) : readInt (twos i) = some i := by
  rw [readInt, if_pos ⟨twos_ne_nil i, minimal_twos i⟩, signedValue_twos]

-- ---------------------------------------------------------------------------
-- Both integer encoders write the shortest two's complement
-- ---------------------------------------------------------------------------

theorem toNat_ofNat (n : Nat) : (UInt8.ofNat n).toNat = n % 256 := BitVec.toNat_ofNat n 8

theorem lowByte_natCast (n : Nat) : lowByte n = UInt8.ofNat n := by
  apply byte_ext
  have := lowByte_toNat n
  rw [toNat_ofNat]; omega

/-- `b&0x80 == 0`: the top bit of `b` is clear. -/
theorem highBit_eq_zero_iff (b : UInt8) : b &&& 0x80 = 0 ↔ b.toNat < 128 := by
  have hb := b.toNat_lt_size
  have hand : (b &&& 0x80).toNat = 2 ^ 7 * (b.toNat.testBit 7).toNat := by
    change (b.toBitVec &&& 0x80#8).toNat = _
    rw [BitVec.toNat_and, Nat.and_comm, show (0x80#8).toNat = 2 ^ 7 from rfl, Nat.two_pow_and]
    rfl
  have hzero : b &&& 0x80 = 0 ↔ (b &&& 0x80).toNat = 0 :=
    ⟨fun h => by rw [h]; rfl, fun h => byte_ext (by rw [h]; rfl)⟩
  rw [hzero, hand, Nat.testBit_to_div_mod]
  simp only [UInt8.size] at hb
  by_cases h : b.toNat / 2 ^ 7 % 2 = 1
  · simp only [h, decide_True, Bool.toNat_true]; omega
  · simp only [h, decide_False, Bool.toNat_false]; omega

/-- `b ^ 0xff` is the complement of `b`. -/
theorem xor_ff_toNat (b : UInt8) : (b ^^^ 0xff).toNat = 255 - b.toNat := by
  change (b.toBitVec ^^^ BitVec.allOnes 8).toNat = _
  rw [BitVec.xor_allOnes, BitVec.toNat_not]
  rfl

theorem bigBytes_zero : bigBytes 0 = [] := by rw [bigBytes, if_pos rfl]

theorem bigBytes_pos {n : Nat} (h : 0 < n) : bigBytes n = bigBytes (n / 256) ++ [UInt8.ofNat n] := by
  rw [bigBytes, if_neg (by omega)]

theorem headD_append_single {xs : Bytes} (h : xs ≠ []) (b d : UInt8) :
    (xs ++ [b]).headD d = xs.headD d := by
  obtain ⟨a, as, rfl⟩ := List.exists_cons_of_ne_nil h
  rfl

/-- The positive branch of `makeBigInt`: the magnitude after a `0x00` where its top bit is set. -/
def padPositive (bytes : Bytes) : Bytes :=
  if bytes.length > 0 ∧ bytes.headD 0 &&& 0x80 ≠ 0 then 0x00 :: bytes else bytes

/-- The negative branch of `makeBigInt`: the complement after an `0xff` where its top bit is
    clear. -/
def padNegative (bytes : Bytes) : Bytes :=
  if bytes.length = 0 ∨ bytes.headD 0 &&& 0x80 = 0 then 0xff :: bytes else bytes

theorem padPositive_append {xs : Bytes} (h : xs ≠ []) (b : UInt8) :
    padPositive (xs ++ [b]) = padPositive xs ++ [b] := by
  have : 0 < xs.length := List.length_pos.mpr h
  unfold padPositive
  rw [headD_append_single h]
  split_ifs <;> simp_all

theorem padNegative_append {xs : Bytes} (h : xs ≠ []) (b : UInt8) :
    padNegative (xs ++ [b]) = padNegative xs ++ [b] := by
  have : 0 < xs.length := List.length_pos.mpr h
  unfold padNegative
  rw [headD_append_single h]
  split_ifs <;> simp_all

/-- A positive magnitude, padded as `makeBigInt` pads it, is the shortest two's complement. -/
theorem padPositive_bigBytes {n : Nat} (hn : 0 < n) : padPositive (bigBytes n) = twos n := by
  induction n using Nat.strong_induction_on with
  | _ n ih =>
    rw [bigBytes_pos hn]
    by_cases hsmall : n < 256
    · have hb : (UInt8.ofNat n).toNat = n := by rw [toNat_ofNat]; omega
      rw [Nat.div_eq_of_lt hsmall, bigBytes_zero, List.nil_append, padPositive]
      simp only [List.length_singleton, List.headD_cons, Nat.lt_irrefl, gt_iff_lt, Nat.lt_one_iff,
        true_and, ne_eq, highBit_eq_zero_iff, hb, Nat.not_lt]
      split_ifs with h128
      · rw [twos_of_large (by omega), show (n : Int) / 256 = 0 by omega,
          twos_of_small (by decide), lowByte_natCast]
        rfl
      · rw [twos_of_small (by omega), lowByte_natCast]
    · have hq : 0 < n / 256 := by omega
      rw [padPositive_append (by rw [bigBytes_pos hq]; simp), ih (n / 256) (by omega) hq,
        @twos_of_large (n : Int) (by omega), lowByte_natCast, Int.natCast_div]
      rfl

/-- The complement of the magnitude of `-n - 1`, padded as `makeBigInt` pads it, is the shortest
    two's complement of the negative `n`. -/
theorem padNegative_bigBytes (m : Nat) :
    padNegative ((bigBytes m).map (· ^^^ 0xff)) = twos (-(m : Int) - 1) := by
  induction m using Nat.strong_induction_on with
  | _ m ih =>
    by_cases h0 : m = 0
    · subst h0
      rw [bigBytes_zero, twos_of_small (by decide)]
      rfl
    have hc : ((UInt8.ofNat m) ^^^ 0xff).toNat = 255 - m % 256 := by
      rw [xor_ff_toNat, toNat_ofNat]
    have hlow := lowByte_toNat (-(m : Int) - 1)
    have hcl : (UInt8.ofNat m) ^^^ 0xff = lowByte (-(m : Int) - 1) := by
      apply byte_ext; rw [hc]; omega
    rw [bigBytes_pos (by omega), List.map_append, List.map_singleton, hcl]
    by_cases hsmall : m < 256
    · rw [Nat.div_eq_of_lt hsmall, bigBytes_zero, List.map_nil, List.nil_append, padNegative]
      simp only [List.length_singleton, List.headD_cons, highBit_eq_zero_iff, Nat.one_ne_zero,
        false_or]
      split_ifs with h128
      · rw [twos_of_large (by omega), show (-(m : Int) - 1) / 256 = -1 by omega,
          twos_of_small (by decide)]
        rfl
      · rw [twos_of_small (by omega)]
    · have hq : 0 < m / 256 := by omega
      have hne : (bigBytes (m / 256)).map (· ^^^ 0xff) ≠ [] := by
        rw [bigBytes_pos hq]; simp
      rw [padNegative_append hne, ih (m / 256) (by omega), @twos_of_large (-(m : Int) - 1) (by omega),
        show (-(m : Int) - 1) / 256 = -((m / 256 : Nat) : Int) - 1 by omega]

/-- `makeBigInt` of a value writes its shortest two's complement. -/
theorem makeBigInt_eq_twos (n : Int) : makeBigInt (some n) = .ok (twos n) := by
  simp only [makeBigInt]
  split_ifs with hneg hc h0 hc'
  · have := padNegative_bigBytes (-n - 1).toNat
    rw [show -(((-n - 1).toNat : Nat) : Int) - 1 = n by omega, padNegative, if_pos hc] at this
    rw [this]
  · have := padNegative_bigBytes (-n - 1).toNat
    rw [show -(((-n - 1).toNat : Nat) : Int) - 1 = n by omega, padNegative, if_neg hc] at this
    rw [this]
  · subst h0; rw [twos_of_small (by decide)]; rfl
  · have := padPositive_bigBytes (show 0 < n.toNat by omega)
    rw [Int.toNat_of_nonneg (by omega), padPositive, if_pos hc'] at this
    rw [this]
  · have := padPositive_bigBytes (show 0 < n.toNat by omega)
    rw [Int.toNat_of_nonneg (by omega), padPositive, if_neg hc'] at this
    rw [this]

/-- The low `n` octets of `i`, most significant first. -/
def beOctets (n : Nat) (i : Int) : Bytes :=
  (List.range n).reverse.map fun (k : Nat) => lowByte (i >>> (k * 8))

theorem shiftRight_eight (i : Int) : i >>> (8 : Nat) = i / 256 := by
  rw [Int.shiftRight_eq_div_pow]; rfl

theorem beOctets_succ (n : Nat) (i : Int) :
    beOctets (n + 1) i = beOctets n (i >>> (8 : Nat)) ++ [lowByte i] := by
  simp only [beOctets, List.range_succ_eq_map, List.reverse_cons, List.map_append,
    List.map_reverse, List.map_map, List.map_singleton]
  congr 2
  · refine List.map_congr_left fun k _ => ?_
    simp only [Function.comp, Nat.succ_mul, Nat.add_comm _ 8, Int.shiftRight_add]
  · rw [Nat.zero_mul, Int.shiftRight_eq_div_pow, pow_zero, Nat.cast_one, Int.ediv_one]

theorem length_twos_of_large {i : Int} (h : ¬ (-128 ≤ i ∧ i < 128)) :
    (twos i).length = (twos (i / 256)).length + 1 := by
  rw [twos_of_large h, List.length_append, List.length_singleton]

/-- The shortest two's complement is the low octets of `i`, as many as it has. -/
theorem twos_eq_beOctets (i : Int) : twos i = beOctets (twos i).length i := by
  induction i using twos.induct with
  | case1 i h =>
    rw [twos_of_small h, List.length_singleton, beOctets_succ]
    rfl
  | case2 i h ih =>
    rw [shiftRight_eight] at ih
    rw [length_twos_of_large h, beOctets_succ, shiftRight_eight, ← ih, twos_of_large h]

/-- Go's loop over `j` writes the octets from the most significant down. -/
theorem int64Encoder_eq_beOctets (i : Int) : int64Encoder i = beOctets (int64Length i) i := by
  apply List.ext_getElem (by simp [int64Encoder, beOctets])
  intro j h1 h2
  simp only [int64Encoder, beOctets, List.getElem_map, List.getElem_range, List.getElem_reverse,
    List.length_range]

/-- The first loop of `int64Length` on a non-negative value counts the octets above the last
    and stops below 128. -/
theorem int64Length_up (i : Int) (n : Nat) (hi : 0 ≤ i) :
    (int64Length.up i n).2 = n + (twos i).length - 1 ∧ 0 ≤ (int64Length.up i n).1 ∧
      (int64Length.up i n).1 < 128 := by
  induction i, n using int64Length.up.induct with
  | case1 i n h ih =>
    rw [shiftRight_eight] at ih
    obtain ⟨h1, h2, h3⟩ := ih (by omega)
    rw [int64Length.up, if_pos h, shiftRight_eight]
    refine ⟨?_, h2, h3⟩
    rw [h1, @length_twos_of_large i (by omega)]
    omega
  | case2 i n h =>
    rw [int64Length.up, if_neg h, twos_of_small (by omega)]
    exact ⟨by simp, hi, by omega⟩

/-- The second loop of `int64Length`, from a value below 128, counts the octets of a negative
    value and none for a non-negative one. -/
theorem int64Length_down (i : Int) (n : Nat) (hi : i < 128) :
    int64Length.down i n = n + (twos i).length - 1 := by
  induction i, n using int64Length.down.induct with
  | case1 i n h ih =>
    rw [shiftRight_eight] at ih
    rw [int64Length.down, if_pos h, shiftRight_eight, ih (by omega),
      @length_twos_of_large i (by omega)]
    omega
  | case2 i n h =>
    rw [int64Length.down, if_neg h, twos_of_small (by omega)]
    simp

/-- `int64Length` counts the octets of the shortest two's complement. -/
theorem int64Length_eq (i : Int) : int64Length i = (twos i).length := by
  unfold int64Length
  by_cases hi : 0 ≤ i
  · obtain ⟨h1, h2, h3⟩ := int64Length_up i 1 hi
    rw [int64Length_down _ _ h3, h1, @twos_of_small (int64Length.up i 1).1 ⟨by omega, h3⟩]
    simp only [List.length_singleton]
    have := List.length_pos.mpr (twos_ne_nil i)
    omega
  · rw [int64Length.up, if_neg (by omega)]
    show int64Length.down i 1 = _
    rw [int64Length_down _ _ (by omega)]
    omega

/-- `int64Encoder` writes the shortest two's complement. -/
theorem int64Encoder_eq_twos (i : Int) : int64Encoder i = twos i := by
  rw [int64Encoder_eq_beOctets, int64Length_eq, ← twos_eq_beOctets]

/-- A value in `[-256^k, 256^k)` has a shortest two's complement of at most `k + 1` octets. -/
theorem length_twos_le {i : Int} {k : Nat} (h : -((256 : Int) ^ k) ≤ i ∧ i < 256 ^ k) :
    (twos i).length ≤ k + 1 := by
  induction i using twos.induct generalizing k with
  | case1 i hs => rw [twos_of_small hs]; simp
  | case2 i hs ih =>
    rw [shiftRight_eight] at ih
    rw [length_twos_of_large hs]
    cases k with
    | zero => simp only [pow_zero] at h; omega
    | succ k =>
      have hp : (256 : Int) ^ (k + 1) = 256 ^ k * 256 := pow_succ _ _
      have := ih (k := k) (by omega)
      omega

-- ---------------------------------------------------------------------------
-- Reading DER back
-- ---------------------------------------------------------------------------

/-- The number octets stand for, most significant first. -/
def beNat (b : Bytes) : Nat := b.foldl (fun acc x => acc * 256 + x.toNat) 0

/-- One DER element read from the front of `s`: its identifier octet, its content octets and
    what follows. The identifier is one octet (tag numbers below 31). The length is one octet
    below 128, or `0x80` plus the number of length octets and then those, most significant
    first, with no leading zero and only for lengths of 128 or more. -/
def readTlv : Bytes → Option (UInt8 × Bytes × Bytes)
  | ident :: l0 :: rest =>
    if l0 < 0x80 then
      if l0.toNat ≤ rest.length then some (ident, rest.take l0.toNat, rest.drop l0.toNat)
      else none
    else
      let k := l0.toNat - 128
      let len := beNat (rest.take k)
      if 0 < k ∧ k ≤ rest.length ∧ (rest.take k).headD 0 ≠ 0 ∧ 128 ≤ len ∧
          len ≤ (rest.drop k).length then
        some (ident, (rest.drop k).take len, (rest.drop k).drop len)
      else none
  | _ => none

/-- The identifier octet `appendTagAndLength` writes for a universal tag below 31. -/
def identOctet (tag : Nat) (isCompound : Bool) : UInt8 :=
  UInt8.ofNat 0 <<< 6 ||| (if isCompound then 0x20 else 0) ||| UInt8.ofNat tag

theorem beNat_append_single (xs : Bytes) (b : UInt8) :
    beNat (xs ++ [b]) = beNat xs * 256 + b.toNat := by
  simp only [beNat, List.foldl_append, List.foldl_cons, List.foldl_nil]

theorem beNat_cons (b : UInt8) (xs : Bytes) :
    beNat (b :: xs) = b.toNat * 256 ^ xs.length + beNat xs := by
  induction xs using List.reverseRecOn with
  | nil => simp [beNat]
  | append_singleton xs x ih =>
    rw [← List.cons_append, beNat_append_single, beNat_append_single, ih, List.length_append,
      List.length_singleton, pow_succ]
    ring

theorem beNat_lt (xs : Bytes) : beNat xs < 256 ^ xs.length := by
  induction xs using List.reverseRecOn with
  | nil => simp [beNat]
  | append_singleton xs x ih =>
    have := x.toNat_lt_size
    rw [beNat_append_single, List.length_append, List.length_singleton, pow_succ]
    simp only [UInt8.size] at this
    omega

/-- The low `n` octets of `x`, most significant first: what `appendLength` writes. -/
def natOctets (n x : Nat) : Bytes :=
  (List.range n).reverse.map fun (k : Nat) => UInt8.ofNat (x >>> (k * 8))

theorem natOctets_succ (n x : Nat) :
    natOctets (n + 1) x = natOctets n (x / 256) ++ [UInt8.ofNat x] := by
  simp only [natOctets, List.range_succ_eq_map, List.reverse_cons, List.map_append,
    List.map_reverse, List.map_map, List.map_singleton]
  congr 2
  refine List.map_congr_left fun k _ => ?_
  show UInt8.ofNat (x >>> ((k + 1) * 8)) = UInt8.ofNat ((x / 256) >>> (k * 8))
  rw [Nat.shiftRight_eq_div_pow, Nat.shiftRight_eq_div_pow, Nat.div_div_eq_div_mul,
    show (k + 1) * 8 = 8 + k * 8 by ring, pow_add]
  rfl

theorem beNat_natOctets (n x : Nat) : beNat (natOctets n x) = x % 256 ^ n := by
  induction n generalizing x with
  | zero => simp [natOctets, beNat, Nat.mod_one]
  | succ n ih =>
    rw [natOctets_succ, beNat_append_single, ih, toNat_ofNat, pow_succ', Nat.mod_mul]
    ring

theorem length_natOctets (n x : Nat) : (natOctets n x).length = n := by simp [natOctets]

/-- `lengthLength` counts enough octets for `i`, and no more than it needs. -/
theorem lengthLength_spec (i : Nat) :
    i < 256 ^ lengthLength i ∧ 256 ^ (lengthLength i - 1) ≤ max i 1 := by
  induction i using lengthLength.induct with
  | case1 i h ih =>
    rw [Nat.shiftRight_eq_div_pow] at ih
    change i / 256 < _ ∧ _ ≤ max (i / 256) 1 at ih
    obtain ⟨h1, h2⟩ := ih
    rw [lengthLength, if_pos h, Nat.shiftRight_eq_div_pow]
    change i < 256 ^ (lengthLength (i / 256) + 1) ∧ 256 ^ (lengthLength (i / 256) + 1 - 1) ≤ _
    have hL : 1 ≤ lengthLength (i / 256) := by
      rw [lengthLength]; split <;> omega
    obtain ⟨L, hL'⟩ : ∃ L, lengthLength (i / 256) = L + 1 := ⟨_, (Nat.sub_add_cancel hL).symm⟩
    rw [hL'] at h1 h2 ⊢
    simp only [Nat.add_sub_cancel, pow_succ] at h1 h2 ⊢
    constructor <;> omega
  | case2 i h =>
    rw [lengthLength, if_neg h]
    simp only [pow_one, Nat.sub_self, pow_zero]
    omega

theorem lengthLength_le {i : Nat} (h : i < 256 ^ 127) : lengthLength i ≤ 127 := by
  by_contra hc
  have h2 := (lengthLength_spec i).2
  have : 256 ^ 127 ≤ 256 ^ (lengthLength i - 1) := Nat.pow_le_pow_right (by decide) (by omega)
  have : 1 < 256 ^ 127 := Nat.one_lt_pow (by decide) (by decide)
  omega

theorem appendLength_eq (i : Nat) : appendLength i = natOctets (lengthLength i) i := rfl

theorem headD_ne_zero {xs : Bytes} (hne : xs ≠ []) (h : 256 ^ (xs.length - 1) ≤ beNat xs) :
    xs.headD 0 ≠ 0 := by
  obtain ⟨a, as, rfl⟩ := List.exists_cons_of_ne_nil hne
  intro h0
  change a = 0 at h0
  subst h0
  rw [beNat_cons] at h
  have := beNat_lt as
  simp only [List.length_cons, Nat.add_sub_cancel, UInt8.toNat_zero, Nat.zero_mul,
    Nat.zero_add] at h
  omega

/-- `0x80|byte(l)` for a count below 128 is `0x80` plus the count. -/
theorem toNat_or_0x80 {l : Nat} (h : l < 128) : (0x80 ||| UInt8.ofNat l).toNat = 128 + l := by
  change (0x80#8 ||| (UInt8.ofNat l).toBitVec).toNat = _
  rw [BitVec.toNat_or, show (0x80#8).toNat = 2 ^ 7 * 1 from rfl,
    show (UInt8.ofNat l).toBitVec.toNat = l from (toNat_ofNat l).trans (by omega),
    ← Nat.mul_add_lt_is_or (by omega)]

/-- The octets `appendTagAndLength` writes for a universal tag below 31: the identifier, then
    the length. -/
theorem appendTagAndLength_eq {tag : Nat} (htag : tag < 31) (len : Nat) (c : Bool) :
    appendTagAndLength 0 tag len c = identOctet tag c ::
      if len ≥ 128 then (0x80 ||| UInt8.ofNat (lengthLength len)) :: appendLength len
      else [UInt8.ofNat len] := by
  simp only [appendTagAndLength, if_neg (show ¬ tag ≥ 31 by omega)]
  rfl

/-- `readTlv` takes back an element `taggedEncoder` writes, whatever follows it. -/
theorem readTlv_taggedEncoder {tag : Nat} (htag : tag < 31) (c : Bool) {body : Bytes}
    (hlen : body.length < 256 ^ 127) (rest : Bytes) :
    readTlv (taggedEncoder tag c body ++ rest) = some (identOctet tag c, body, rest) := by
  rw [taggedEncoder, appendTagAndLength_eq htag]
  split_ifs with hl
  · obtain ⟨hk, -⟩ := lengthLength_spec body.length
    have hL := lengthLength_le hlen
    have hpos : 1 ≤ lengthLength body.length :=
      Nat.pos_of_ne_zero fun h => by rw [h, pow_zero] at hk; omega
    have hoct : (0x80 ||| UInt8.ofNat (lengthLength body.length)).toNat =
        128 + lengthLength body.length := toNat_or_0x80 (by omega)
    have hlenb := length_natOctets (lengthLength body.length) body.length
    have hval : beNat (appendLength body.length) = body.length := by
      rw [appendLength_eq, beNat_natOctets, Nat.mod_eq_of_lt hk]
    simp only [List.cons_append, List.append_assoc, readTlv]
    rw [if_neg (by rw [byte_lt_iff, hoct]; change ¬ _ < 128; omega), hoct,
      Nat.add_sub_cancel_left, appendLength_eq, List.take_left' hlenb, List.drop_left' hlenb,
      ← appendLength_eq, hval, if_pos, List.take_left, List.drop_left]
    refine ⟨hpos, by simp only [List.length_append, appendLength_eq, hlenb]; omega,
      headD_ne_zero ?_ ?_, hl, by simp⟩
    · rw [← List.length_pos, appendLength_eq, hlenb]; omega
    · rw [hval, appendLength_eq, hlenb]
      have := (lengthLength_spec body.length).2
      rwa [Nat.max_eq_left (by omega)] at this
  · have hb : (UInt8.ofNat body.length).toNat = body.length := by rw [toNat_ofNat]; omega
    simp only [List.cons_append, List.nil_append, List.append_assoc, readTlv]
    rw [if_pos (by rw [byte_lt_iff, hb]; change _ < 128; omega), hb, if_pos (by simp),
      List.take_left, List.drop_left]

/-- An element takes at most 129 octets more than its content. -/
theorem length_taggedEncoder_le {tag : Nat} (htag : tag < 31) (c : Bool) {body : Bytes}
    (hlen : body.length < 256 ^ 127) : (taggedEncoder tag c body).length ≤ body.length + 129 := by
  have hL := lengthLength_le hlen
  rw [taggedEncoder, appendTagAndLength_eq htag]
  split_ifs
  · simp only [List.length_cons, List.length_append, appendLength_eq, length_natOctets]; omega
  · simp

theorem length_le_taggedEncoder (tag : Nat) (c : Bool) (body : Bytes) :
    body.length ≤ (taggedEncoder tag c body).length := by
  simp [taggedEncoder]

end Go.Asn1
