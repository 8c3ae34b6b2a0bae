-- SUMMARY: `encoding/base64` with the standard alphabet: the block encoder, the streaming encoder `pem` writes through, and the reading that takes the text back to bytes.
import GpgCard.Go.Bytes

/-!
# Base64

`pem.Encode` writes a block's bytes through the encoder that
`base64.NewEncoder(base64.StdEncoding, w)` returns: one `Write` with every byte
and then `Close`. The encoder passes `Encoding.Encode` of 768-byte stretches to
`w` as it goes and keeps up to two bytes back for `Close`, which pads them.
`Encoder.writes_close` says the writes add up to `encode` of the whole input,
whatever the stretches.

`decode` is standard base64 as it is read: four characters to three bytes, the
last group padded with `'='`. It is the reading the encoder writes for, and
`decode_encode` proves that it gives the bytes back.
-/

namespace Go.Base64

/-- `encodeStd`, the standard alphabet. -/
def encodeStd : Bytes := str "ABCDEFGHIJKLMNOPQRSTUVWXYZabcdefghijklmnopqrstuvwxyz0123456789+/"

/-- `StdPadding`, the character `'='`. -/
def stdPadding : UInt8 := 0x3D

/-- `enc.encode[v]`: the character for a six-bit value. -/
def sym (v : Nat) : UInt8 := encodeStd.getD v 0

/-- `Encoding.Encode` with `StdEncoding`. The loop reads three bytes as
    `val := uint(src[si+0])<<16 | uint(src[si+1])<<8 | uint(src[si+2])` and writes four
    characters; one or two bytes left over give two or three characters and the padding. -/
def encode : Bytes → Bytes
  | b0 :: b1 :: b2 :: src =>
    let val := b0.toNat <<< 16 ||| b1.toNat <<< 8 ||| b2.toNat
    sym (val >>> 18 &&& 0x3F) :: sym (val >>> 12 &&& 0x3F) :: sym (val >>> 6 &&& 0x3F) ::
      sym (val &&& 0x3F) :: encode src
  | [b0, b1] =>
    let val := b0.toNat <<< 16 ||| b1.toNat <<< 8
    [sym (val >>> 18 &&& 0x3F), sym (val >>> 12 &&& 0x3F), sym (val >>> 6 &&& 0x3F), stdPadding]
  | [b0] =>
    let val := b0.toNat <<< 16
    [sym (val >>> 18 &&& 0x3F), sym (val >>> 12 &&& 0x3F), stdPadding, stdPadding]
  | [] => []

-- ---------------------------------------------------------------------------
-- The encoder's arithmetic
-- ---------------------------------------------------------------------------

/-- A shift and an or of disjoint bits is a sum. -/
theorem shiftLeft_or_eq_add (a : Nat) {b k : Nat} (hb : b < 2 ^ k) :
    a <<< k ||| b = 2 ^ k * a + b := by
  rw [Nat.shiftLeft_eq, Nat.mul_comm, Nat.mul_add_lt_is_or hb]

theorem shiftLeft_or_shiftLeft (a b k : Nat) : (a ||| b) <<< k = a <<< k ||| b <<< k := by
  apply Nat.eq_of_testBit_eq
  intro j
  simp only [Nat.testBit_shiftLeft, Nat.testBit_or, Bool.and_or_distrib_left]

/-- `val>>s&0x3F` is the six bits of `val` from bit `s` up. -/
theorem shiftRight_and_mask (val s : Nat) : val >>> s &&& 0x3F = val / 2 ^ s % 64 := by
  rw [Nat.shiftRight_eq_div_pow, show (0x3F : Nat) = 2 ^ 6 - 1 from rfl,
    Nat.and_pow_two_sub_one_eq_mod]

theorem and_mask (val : Nat) : val &&& 0x3F = val % 64 := by
  rw [show (0x3F : Nat) = 2 ^ 6 - 1 from rfl, Nat.and_pow_two_sub_one_eq_mod]

/-- The three bytes of a group, as the one number `val` the encoder cuts into four. -/
theorem groupVal (b0 b1 b2 : UInt8) :
    b0.toNat <<< 16 ||| b1.toNat <<< 8 ||| b2.toNat =
      65536 * b0.toNat + 256 * b1.toNat + b2.toNat := by
  have h1 := b1.toNat_lt_size
  have h2 := b2.toNat_lt_size
  rw [show (16 : Nat) = 8 + 8 from rfl, Nat.shiftLeft_add, ← shiftLeft_or_shiftLeft,
    shiftLeft_or_eq_add _ h1, shiftLeft_or_eq_add _ h2]
  ring

theorem length_encodeStd : encodeStd.length = 64 := by decide

theorem sym_eq_getElem {v : Nat} (h : v < encodeStd.length) : sym v = encodeStd[v] :=
  List.getD_eq_getElem _ _ h

theorem sym_mem {v : Nat} (h : v < 64) : sym v ∈ encodeStd := by
  rw [← length_encodeStd] at h
  rw [sym_eq_getElem h]
  exact List.getElem_mem h

theorem sym_mod_mem (v : Nat) : sym (v % 64) ∈ encodeStd := sym_mem (Nat.mod_lt _ (by decide))

/-- Every character the encoder writes is of the alphabet or the padding. -/
theorem mem_encode {b : Bytes} {c : UInt8} (h : c ∈ encode b) :
    c ∈ encodeStd ∨ c = stdPadding := by
  induction b using encode.induct with
  | case1 b0 b1 b2 src ih =>
    simp only [encode, List.mem_cons, shiftRight_and_mask, and_mask] at h
    rcases h with rfl | rfl | rfl | rfl | h
    iterate 4 exact .inl (sym_mod_mem _)
    exact ih h
  | case2 b0 b1 =>
    simp only [encode, List.mem_cons, List.not_mem_nil, or_false, shiftRight_and_mask] at h
    rcases h with rfl | rfl | rfl | rfl
    iterate 3 exact .inl (sym_mod_mem _)
    exact .inr rfl
  | case3 b0 =>
    simp only [encode, List.mem_cons, List.not_mem_nil, or_false, shiftRight_and_mask] at h
    rcases h with rfl | rfl | rfl | rfl
    iterate 2 exact .inl (sym_mod_mem _)
    all_goals exact .inr rfl
  | case4 => simp [encode] at h

/-- Every character of the encoding is ASCII and none is a newline. -/
theorem char_of_mem_encode {b : Bytes} {c : UInt8} (h : c ∈ encode b) : c < 0x80 ∧ c ≠ 10 := by
  have hstd : ∀ c ∈ encodeStd, c < 0x80 ∧ c ≠ 10 := by decide
  rcases mem_encode h with h | rfl
  · exact hstd c h
  · decide

/-- Groups of three bytes are encoded on their own: `Encode` of a whole number of groups and
    of what follows is the two encodings one after the other. -/
theorem encode_append {a : Bytes} (h : a.length % 3 = 0) (b : Bytes) :
    encode (a ++ b) = encode a ++ encode b := by
  induction a using encode.induct with
  | case1 b0 b1 b2 src ih =>
    simp only [List.length_cons] at h
    show encode (b0 :: b1 :: b2 :: (src ++ b)) = _
    simp only [encode, ih (by omega), List.cons_append]
  | case2 | case3 => simp at h
  | case4 => rfl

-- ---------------------------------------------------------------------------
-- The streaming encoder
-- ---------------------------------------------------------------------------

/-- `nn` in `encoder.Write`: `len(e.out) / 4 * 3` bytes, or the whole groups left if fewer. -/
def chunkLen (len : Nat) : Nat := if 1024 / 4 * 3 > len then len - len % 3 else 1024 / 4 * 3

/-- The loop of `encoder.Write` over large interior chunks: while three bytes or more are left
    it encodes `nn` of them, `len(e.out) / 4 * 3` or the whole groups left if fewer, and writes
    the characters. It returns the writes and the bytes left. -/
def interior (p : Bytes) : List Bytes × Bytes :=
  if 3 ≤ p.length then
    let r := interior (p.drop (chunkLen p.length))
    (encode (p.take (chunkLen p.length)) :: r.1, r.2)
  else ([], p)
termination_by p.length
decreasing_by simp only [List.length_drop, chunkLen]; split <;> omega

/-- The interior loop leaves fewer than three bytes, and what it writes and what it leaves
    encode to the encoding of its input. -/
theorem interior_spec (p : Bytes) :
    (interior p).2.length < 3 ∧ (interior p).1.flatten ++ encode (interior p).2 = encode p := by
  induction p using interior.induct with
  | case1 p h ih =>
    rw [interior, if_pos h]
    refine ⟨ih.1, ?_⟩
    have hnn : (p.take (chunkLen p.length)).length % 3 = 0 := by
      simp only [List.length_take, chunkLen]; split <;> omega
    simp only [List.flatten_cons, List.append_assoc, ih.2, ← encode_append hnn,
      List.take_append_drop]
  | case2 p h =>
    rw [interior, if_neg h]
    exact ⟨show p.length < 3 by omega, rfl⟩

/-- The encoder `NewEncoder` returns: `buf[:nbuf]`, the bytes that wait for a group of three.
    Its writer is the caller's; each operation returns the writes it makes. -/
structure Encoder where
  buf : Bytes
  nbuf_lt : buf.length < 3

/-- The encoder `NewEncoder` starts with. -/
def Encoder.init : Encoder := ⟨[], by decide⟩

/-- `encoder.Write(p)`. Bytes that wait from an earlier write are topped up to a group and
    written first; the interior loop follows, and the last one or two bytes wait. The writer is a
    `lineBreaker` on a `bytes.Buffer`, which does not fail, so `e.err` stays nil. -/
def Encoder.write (e : Encoder) (p : Bytes) : Encoder × List Bytes :=
  if e.buf = [] then
    ((⟨(interior p).2, (interior_spec p).1⟩ : Encoder), (interior p).1)
  else
    let i := min (3 - e.buf.length) p.length
    let buf := e.buf ++ p.take i
    if h : buf.length < 3 then ((⟨buf, h⟩ : Encoder), [])
    else
      (⟨(interior (p.drop i)).2, (interior_spec _).1⟩, encode buf :: (interior (p.drop i)).1)

/-- `encoder.Close()`: the bytes that wait, encoded and padded. -/
def Encoder.close (e : Encoder) : List Bytes := if e.buf.length > 0 then [encode e.buf] else []

/-- A write makes the writes that, with the encoding of what then waits, spell the encoding of
    what waited before and the new bytes. -/
theorem Encoder.write_spec (e : Encoder) (p : Bytes) :
    (e.write p).2.flatten ++ encode (e.write p).1.buf = encode (e.buf ++ p) := by
  by_cases h0 : e.buf = []
  · rw [Encoder.write, if_pos h0, h0, List.nil_append]
    exact (interior_spec p).2
  by_cases h : (e.buf ++ p.take (min (3 - e.buf.length) p.length)).length < 3
  · simp only [Encoder.write, if_neg h0, dif_pos h, List.flatten_nil, List.nil_append]
    rw [List.take_of_length_le (by simp only [List.length_append, List.length_take] at h; omega)]
  · have h3 : (e.buf ++ p.take (min (3 - e.buf.length) p.length)).length % 3 = 0 := by
      have := e.nbuf_lt
      simp only [List.length_append, List.length_take] at h ⊢; omega
    simp only [Encoder.write, if_neg h0, dif_neg h, List.flatten_cons, List.append_assoc,
      (interior_spec _).2, ← encode_append h3, List.take_append_drop]

/-- Closing writes the encoding of the bytes that wait. -/
theorem Encoder.close_flatten (e : Encoder) : e.close.flatten = encode e.buf := by
  unfold Encoder.close
  split
  · simp
  · next h => simp [List.eq_nil_of_length_eq_zero (Nat.eq_zero_of_not_pos h), encode]

/-- One `Write` of every byte and a `Close`, as `pem.Encode` makes them, write `Encode` of the
    bytes, however the interior loop cut them. -/
theorem Encoder.writes_close (p : Bytes) :
    ((Encoder.init.write p).2 ++ (Encoder.init.write p).1.close).flatten = encode p := by
  rw [List.flatten_append, close_flatten, write_spec]
  rfl

-- ---------------------------------------------------------------------------
-- Reading base64 back
-- ---------------------------------------------------------------------------

/-- The six-bit value of a character of the alphabet. -/
def value (c : UInt8) : Option Nat := if c ∈ encodeStd then some (encodeStd.indexOf c) else none

/-- Standard base64 read back, four characters to three bytes; a last group with one or two
    `'='` at its end stands for two bytes or one. -/
def decode : Bytes → Option Bytes
  | [] => some []
  | c0 :: c1 :: c2 :: c3 :: rest => do
    let v0 ← value c0
    let v1 ← value c1
    if c2 = stdPadding ∧ c3 = stdPadding ∧ rest = [] then
      pure [UInt8.ofNat (v0 * 4 + v1 / 16)]
    else
      let v2 ← value c2
      if c3 = stdPadding ∧ rest = [] then
        pure [UInt8.ofNat (v0 * 4 + v1 / 16), UInt8.ofNat (v1 % 16 * 16 + v2 / 4)]
      else
        let v3 ← value c3
        let bytes ← decode rest
        pure (UInt8.ofNat (v0 * 4 + v1 / 16) :: UInt8.ofNat (v1 % 16 * 16 + v2 / 4) ::
          UInt8.ofNat (v2 % 4 * 64 + v3) :: bytes)
  | _ => none

/-- No character appears twice in the alphabet, so a character's place in it is its value. -/
theorem nodup_encodeStd : encodeStd.Nodup := by decide

theorem stdPadding_not_mem : stdPadding ∉ encodeStd := by decide

theorem value_sym {v : Nat} (h : v < 64) : value (sym v) = some v := by
  rw [value, if_pos (sym_mem h)]
  rw [← length_encodeStd] at h
  rw [sym_eq_getElem h, List.indexOf_getElem nodup_encodeStd]

theorem sym_ne_stdPadding {v : Nat} (h : v < 64) : sym v ≠ stdPadding :=
  fun heq => stdPadding_not_mem (heq ▸ sym_mem h)

theorem ofNat_eq_of_toNat {n : Nat} {b : UInt8} (h : n = b.toNat) : UInt8.ofNat n = b :=
  UInt8.toNat.inj (by rw [UInt8.toNat_ofNat_of_lt (h ▸ b.toNat_lt_size), h])

/-- The four characters `Encode` writes for a group of three bytes. -/
theorem encode_group (b0 b1 b2 : UInt8) (src : Bytes) :
    encode (b0 :: b1 :: b2 :: src) =
      let v := 65536 * b0.toNat + 256 * b1.toNat + b2.toNat
      sym (v / 262144 % 64) :: sym (v / 4096 % 64) :: sym (v / 64 % 64) :: sym (v % 64) ::
        encode src := by
  simp only [encode, groupVal, Nat.shiftRight_eq_div_pow, and_mask]

/-- The characters `Encode` writes for the last two bytes. -/
theorem encode_pair (b0 b1 : UInt8) :
    encode [b0, b1] =
      let v := 65536 * b0.toNat + 256 * b1.toNat
      [sym (v / 262144 % 64), sym (v / 4096 % 64), sym (v / 64 % 64), stdPadding] := by
  have := groupVal b0 b1 0
  simp only [UInt8.toNat_zero, Nat.or_zero, Nat.add_zero] at this
  simp only [encode, this, Nat.shiftRight_eq_div_pow, and_mask]

/-- The characters `Encode` writes for a last single byte. -/
theorem encode_single (b0 : UInt8) :
    encode [b0] =
      [sym (65536 * b0.toNat / 262144 % 64), sym (65536 * b0.toNat / 4096 % 64), stdPadding,
        stdPadding] := by
  simp only [encode, Nat.shiftLeft_eq, Nat.shiftRight_eq_div_pow, and_mask,
    Nat.mul_comm b0.toNat]

/-- `decode` gives back every byte string `Encode` writes. -/
theorem decode_encode (b : Bytes) : decode (encode b) = some b := by
  have hv : ∀ n : Nat, value (sym (n % 64)) = some (n % 64) :=
    fun n => value_sym (Nat.mod_lt _ (by decide))
  have hp : ∀ n : Nat, sym (n % 64) ≠ stdPadding :=
    fun n => sym_ne_stdPadding (Nat.mod_lt _ (by decide))
  induction b using encode.induct with
  | case1 b0 b1 b2 src ih =>
    have h0 := b0.toNat_lt_size
    have h1 := b1.toNat_lt_size
    have h2 := b2.toNat_lt_size
    simp only [UInt8.size] at h0 h1 h2
    rw [encode_group]
    simp only [decode, hv, hp, false_and, if_false, ih, Option.pure_def,
      Option.bind_eq_bind, Option.some_bind, Option.some.injEq, List.cons.injEq, and_true]
    exact ⟨ofNat_eq_of_toNat (by omega), ofNat_eq_of_toNat (by omega),
      ofNat_eq_of_toNat (by omega)⟩
  | case2 b0 b1 =>
    have h0 := b0.toNat_lt_size
    have h1 := b1.toNat_lt_size
    simp only [UInt8.size] at h0 h1
    rw [encode_pair]
    simp only [decode, hv, hp, false_and, if_false, and_true, if_true,
      Option.pure_def, Option.bind_eq_bind, Option.some_bind, Option.some.injEq,
      List.cons.injEq]
    exact ⟨ofNat_eq_of_toNat (by omega), ofNat_eq_of_toNat (by omega)⟩
  | case3 b0 =>
    have h0 := b0.toNat_lt_size
    simp only [UInt8.size] at h0
    rw [encode_single]
    simp only [decode, hv, and_self, if_true, Option.pure_def,
      Option.bind_eq_bind, Option.some_bind, Option.some.injEq, List.cons.injEq, and_true]
    exact ofNat_eq_of_toNat (by omega)
  | case4 => rfl

end Go.Base64
