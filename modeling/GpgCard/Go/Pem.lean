-- SUMMARY: `encoding/pem`: the line breaker that cuts base64 into 64-character lines, `EncodeToMemory` for a block without headers, and reading such a block back.
import GpgCard.Go.Base64

/-!
# PEM

`pem.EncodeToMemory` writes a block as a `-----BEGIN <type>-----` line, the
base64 of its bytes, and an `-----END <type>-----` line. The base64 encoder
writes to a `lineBreaker`, which keeps a line of up to 64 characters and puts
out each full line with a newline; `Close` puts out the last, shorter line.

`LineBreaker.write_spec` says what one write does, whatever the writes before
it: the text so far is whole lines written out and a short line kept. From it,
`encodeToMemory_eq` says the body is `lines` of the base64 of the bytes, however
the encoder cut its writes. `decode` reads a block back, and `decode_encodeToMemory`
proves that it gives the bytes back.
-/

namespace Go.Pem

open Base64

/-- `pemLineLength`. -/
def pemLineLength : Nat := 64

/-- `nl`, the newline the line breaker writes. -/
def nl : UInt8 := 10

/-- A `lineBreaker`: `line[0:used]`, the characters of the line not written out yet. -/
structure LineBreaker where
  line : Bytes
  used_lt : line.length < pemLineLength

/-- A `lineBreaker` as `pem.Encode` declares it: no line yet. -/
def LineBreaker.init : LineBreaker := ⟨[], by decide⟩

/-- `lineBreaker.Write(b)`, with what it writes to `out`. While the line stays shorter than
    `pemLineLength` it keeps `b`; otherwise it writes the line, the `excess` bytes of `b` that fill
    it and a newline, and writes the rest of `b` from an empty line. Its `out` is a
    `bytes.Buffer`, which does not fail. -/
def LineBreaker.write (l : LineBreaker) (b : Bytes) : LineBreaker × Bytes :=
  if h : l.line.length + b.length < pemLineLength then
    (⟨l.line ++ b, by simpa only [List.length_append] using h⟩, [])
  else
    let excess := pemLineLength - l.line.length
    let r := LineBreaker.init.write (b.drop excess)
    (r.1, l.line ++ b.take excess ++ [nl] ++ r.2)
termination_by b.length
decreasing_by have := l.used_lt; simp only [List.length_drop, pemLineLength] at *; omega

/-- `lineBreaker.Close()`: the rest of the line and a newline, if there is a rest. -/
def LineBreaker.close (l : LineBreaker) : Bytes :=
  if l.line.length > 0 then l.line ++ [nl] else []

/-- The line breaker given the writes of the base64 encoder, one after the other. -/
def LineBreaker.writeAll (l : LineBreaker) : List Bytes → LineBreaker × Bytes
  | [] => (l, [])
  | b :: bs =>
    let r := l.write b
    let s := r.1.writeAll bs
    (s.1, r.2 ++ s.2)

/-- A `pem.Block` with a `Type` and `Bytes` and no `Headers`, as `ExportRsaPublicKeyAsPemStr`
    builds it. -/
structure Block where
  type : Bytes
  bytes : Bytes

/-- The line `pem.Encode` writes first. -/
def header (type : Bytes) : Bytes := str "-----BEGIN " ++ type ++ str "-----\n"

/-- The line `pem.Encode` writes last. -/
def footer (type : Bytes) : Bytes := str "-----END " ++ type ++ str "-----\n"

/-- `pem.EncodeToMemory(b)` for a block without headers: `pem.Encode` into a `bytes.Buffer`,
    which does not fail. It writes `pemStart[1:]`, the type and `"-----\n"`; the bytes through
    `base64.NewEncoder` into a `lineBreaker`, closing the encoder and then the breaker; and
    `pemEnd[1:]`, the type and `"-----\n"`. -/
def encodeToMemory (b : Block) : Bytes :=
  let enc := Encoder.init.write b.bytes
  let breaker := LineBreaker.init.writeAll (enc.2 ++ enc.1.close)
  header b.type ++ breaker.2 ++ breaker.1.close ++ footer b.type

-- ---------------------------------------------------------------------------
-- Lines
-- ---------------------------------------------------------------------------

/-- Text cut into lines of `pemLineLength` characters, each followed by a newline; the last line
    may be shorter, and empty text has no line. -/
def lines (s : Bytes) : Bytes :=
  if s.length ≤ pemLineLength then (if s = [] then [] else s ++ [nl])
  else s.take pemLineLength ++ [nl] ++ lines (s.drop pemLineLength)
termination_by s.length
decreasing_by simp only [List.length_drop, pemLineLength] at *; omega

theorem lines_nil : lines [] = [] := by rw [lines]; rfl

/-- A full line and what follows. -/
theorem lines_full {f : Bytes} (hf : f.length = pemLineLength) (r : Bytes) :
    lines (f ++ r) = f ++ [nl] ++ lines r := by
  rw [lines]
  split
  · next h =>
    have hr : r = [] := by
      simp only [List.length_append, hf] at h
      exact List.eq_nil_of_length_eq_zero (by omega)
    subst hr
    rw [List.append_nil, if_neg (by simp [← List.length_pos, hf, pemLineLength]), lines_nil,
      List.append_nil]
  · rw [← hf, List.take_left, List.drop_left]

/-- Whole lines and what follows are cut on their own. -/
theorem lines_append {f : Bytes} (hf : f.length % pemLineLength = 0) (r : Bytes) :
    lines (f ++ r) = lines f ++ lines r := by
  induction f using lines.induct with
  | case1 => rw [lines_nil]; rfl
  | case2 f h hne =>
    have hlen : f.length = pemLineLength := by
      have := List.length_pos.mpr hne
      simp only [pemLineLength] at *; omega
    have := lines_full hlen []
    rw [List.append_nil, lines_nil, List.append_nil] at this
    rw [lines_full hlen, this, List.append_assoc]
  | case3 f h ih =>
    have hlen : (f.take pemLineLength).length = pemLineLength := by
      simp only [List.length_take]; omega
    have hf' : (f.drop pemLineLength).length % pemLineLength = 0 := by
      simp only [List.length_drop, pemLineLength] at *; omega
    conv_lhs => rw [← List.take_append_drop pemLineLength f, List.append_assoc]
    conv_rhs => rw [← List.take_append_drop pemLineLength f]
    rw [lines_full hlen, lines_full hlen, ih hf']
    simp only [List.append_assoc]

/-- Closing puts out the kept line as the last line. -/
theorem LineBreaker.close_eq_lines (l : LineBreaker) : l.close = lines l.line := by
  have := l.used_lt
  rw [close, lines, if_pos (Nat.le_of_lt this)]
  split
  · next h => rw [if_neg (by simpa [← List.length_pos] using h)]
  · next h => rw [if_pos (List.eq_nil_of_length_eq_zero (by omega))]

/-- One write: the kept line and the new bytes are whole lines, which it writes out, and the
    line it keeps. -/
theorem LineBreaker.write_spec (l : LineBreaker) (b : Bytes) :
    ∃ f, l.line ++ b = f ++ (l.write b).1.line ∧ f.length % pemLineLength = 0 ∧
      (l.write b).2 = lines f := by
  induction l, b using LineBreaker.write.induct with
  | case1 l b h =>
    rw [write, dif_pos h]
    exact ⟨[], rfl, rfl, lines_nil.symm⟩
  | case2 l b h excess ih =>
    obtain ⟨f, hf, hmod, hout⟩ := ih
    have hfull : (l.line ++ b.take excess).length = pemLineLength := by
      have := l.used_lt
      simp only [List.length_append, List.length_take, excess] at h ⊢; omega
    rw [write, dif_neg h]
    refine ⟨l.line ++ b.take excess ++ f, ?_, ?_, ?_⟩
    · have hf' : b.drop excess = f ++ (init.write (b.drop excess)).1.line := hf
      conv_lhs => rw [← List.take_append_drop excess b, hf']
      simp only [List.append_assoc]
    · rw [List.length_append, hfull]; simp only [pemLineLength] at *; omega
    · rw [lines_full hfull, ← hout]

/-- Any run of writes: the kept line and all that was written to the breaker are whole lines,
    written out, and the line it keeps. -/
theorem LineBreaker.writeAll_spec (l : LineBreaker) (bs : List Bytes) :
    ∃ f, l.line ++ bs.flatten = f ++ (l.writeAll bs).1.line ∧ f.length % pemLineLength = 0 ∧
      (l.writeAll bs).2 = lines f := by
  induction bs generalizing l with
  | nil => exact ⟨[], by simp [writeAll], rfl, lines_nil.symm⟩
  | cons b bs ih =>
    obtain ⟨f, hf, hmod, hout⟩ := l.write_spec b
    obtain ⟨g, hg, hmod', hout'⟩ := ih (l.write b).1
    refine ⟨f ++ g, ?_, ?_, ?_⟩
    · rw [List.flatten_cons, ← List.append_assoc, hf, List.append_assoc, hg, List.append_assoc]
      rfl
    · rw [List.length_append]; simp only [pemLineLength] at *; omega
    · simp only [writeAll, hout, hout', lines_append hmod]

/-- What the breaker writes for a run of writes, and then for `Close`, is the text of the writes
    cut into lines. -/
theorem LineBreaker.writeAll_close (bs : List Bytes) :
    (init.writeAll bs).2 ++ (init.writeAll bs).1.close = lines bs.flatten := by
  obtain ⟨f, hf, hmod, hout⟩ := init.writeAll_spec bs
  rw [close_eq_lines, hout, ← lines_append hmod, ← hf]
  rfl

/-- The text `EncodeToMemory` writes: the `BEGIN` line, the base64 of the bytes in lines of 64,
    and the `END` line. -/
theorem encodeToMemory_eq (b : Block) :
    encodeToMemory b = header b.type ++ lines (Base64.encode b.bytes) ++ footer b.type := by
  rw [encodeToMemory, List.append_assoc (header b.type), LineBreaker.writeAll_close,
    Encoder.writes_close]

theorem mem_lines {s : Bytes} {c : UInt8} (h : c ∈ lines s) : c ∈ s ∨ c = nl := by
  induction s using lines.induct with
  | case1 => rw [lines_nil] at h; cases h
  | case2 s hs hne =>
    rw [lines, if_pos hs, if_neg hne, List.mem_append, List.mem_singleton] at h
    exact h
  | case3 s hs ih =>
    rw [lines, if_neg hs, List.mem_append, List.mem_append, List.mem_singleton] at h
    rcases h with (h | h) | h
    · exact .inl (List.mem_of_mem_take h)
    · exact .inr h
    · exact (ih h).imp_left List.mem_of_mem_drop

/-- A block whose type is ASCII is written as ASCII text. -/
theorem ascii_encodeToMemory (b : Block) (h : Ascii b.type) : Ascii (encodeToMemory b) := by
  have hstr : ∀ s : String, s.toList.all (·.toNat < 128) → Ascii (str s) := fun s hs c hc => by
    obtain ⟨ch, hch, rfl⟩ := List.mem_map.mp hc
    have := List.all_eq_true.mp hs ch hch
    simp only [decide_eq_true_eq] at this
    change (UInt8.ofNat ch.toNat).toNat < 128
    rw [UInt8.toNat_ofNat_of_lt (by simp only [UInt8.size]; omega)]
    exact this
  have hlines : Ascii (lines (Base64.encode b.bytes)) := fun c hc =>
    (mem_lines hc).elim (fun h => (char_of_mem_encode h).1) (fun h => h ▸ by decide)
  rw [encodeToMemory_eq]
  exact ((((hstr _ (by decide)).append h).append (hstr _ (by decide))).append hlines).append
    (((hstr _ (by decide)).append h).append (hstr _ (by decide)))

-- ---------------------------------------------------------------------------
-- Reading a block back
-- ---------------------------------------------------------------------------

/-- Lines read back: each of 1 to `pemLineLength` characters and a newline, every one but the
    last exactly `pemLineLength` long; the characters without the newlines. -/
def unlines (s : Bytes) : Option Bytes :=
  if s = [] then some []
  else
    let line := s.takeWhile (· != nl)
    if 0 < line.length ∧ line.length ≤ pemLineLength ∧ s.getD line.length 0 = nl ∧
        (s.drop (line.length + 1) = [] ∨ line.length = pemLineLength) then
      (unlines (s.drop (line.length + 1))).map (line ++ ·)
    else none
termination_by s.length
decreasing_by
  have : 0 < s.length := List.length_pos.mpr ‹_›
  simp only [List.length_drop]; omega

/-- The bytes of a PEM block of type `type` read back: the text is the `BEGIN` line, lines of
    base64 as `unlines` reads them, and the `END` line. -/
def decode (type text : Bytes) : Option Bytes :=
  let body := (text.drop (header type).length).take
    (text.length - (header type).length - (footer type).length)
  if header type ++ body ++ footer type = text then (unlines body).bind Base64.decode else none

theorem takeWhile_append_nl {t : Bytes} (ht : nl ∉ t) (r : Bytes) :
    (t ++ nl :: r).takeWhile (· != nl) = t := by
  induction t with
  | nil => simp [List.takeWhile_cons]
  | cons c t ih =>
    rw [List.mem_cons, not_or] at ht
    rw [List.cons_append, List.takeWhile_cons_of_pos (by simpa using Ne.symm ht.1), ih ht.2]

/-- One line of `t` read back. -/
theorem unlines_line {t : Bytes} (ht : nl ∉ t) (h0 : t ≠ []) (h64 : t.length ≤ pemLineLength)
    (r : Bytes) (hr : r = [] ∨ t.length = pemLineLength) :
    unlines (t ++ nl :: r) = (unlines r).map (t ++ ·) := by
  rw [unlines, if_neg (by simp), takeWhile_append_nl ht]
  have hget : (t ++ nl :: r).getD t.length 0 = nl := by
    rw [List.getD_eq_getElem?_getD, List.getElem?_append_right (le_refl _), Nat.sub_self,
      List.getElem?_cons_zero, Option.getD_some]
  have hdrop : (t ++ nl :: r).drop (t.length + 1) = r := by
    rw [← List.drop_drop, List.drop_left]; rfl
  rw [if_pos ⟨List.length_pos.mpr h0, h64, hget, by rw [hdrop]; exact hr⟩, hdrop]

/-- `unlines` reads back every text without a newline that `lines` cuts. -/
theorem unlines_lines {s : Bytes} (h : nl ∉ s) : unlines (lines s) = some s := by
  induction s using lines.induct with
  | case1 => rw [lines_nil, unlines, if_pos rfl]
  | case2 s hs hne =>
    rw [lines, if_pos hs, if_neg hne, unlines_line h hne hs [] (.inl rfl), unlines, if_pos rfl]
    simp
  | case3 s hs ih =>
    have hlen : (s.take pemLineLength).length = pemLineLength := by
      simp only [List.length_take]; omega
    have ht : nl ∉ s.take pemLineLength := fun hm => h (List.mem_of_mem_take hm)
    have hne : s.take pemLineLength ≠ [] := by
      rw [← List.length_pos, hlen]; decide
    rw [lines, if_neg hs, List.append_assoc, List.singleton_append,
      unlines_line ht hne hlen.le _ (.inr hlen),
      ih (fun hm => h (List.mem_of_mem_drop hm)), Option.map_some', List.take_append_drop]

/-- The body between a header and a footer. -/
theorem body_between (h l f : Bytes) :
    ((h ++ l ++ f).drop h.length).take ((h ++ l ++ f).length - h.length - f.length) = l := by
  rw [List.append_assoc, List.drop_left, List.length_append, List.length_append,
    show h.length + (l.length + f.length) - h.length - f.length = l.length by omega,
    List.take_left]

/-- `decode` gives back the bytes of every block `EncodeToMemory` writes. -/
theorem decode_encodeToMemory (type bytes : Bytes) :
    decode type (encodeToMemory ⟨type, bytes⟩) = some bytes := by
  have hnl : nl ∉ Base64.encode bytes := fun h => (char_of_mem_encode h).2 rfl
  rw [encodeToMemory_eq, decode]
  simp only [body_between, if_pos, unlines_lines hnl, Option.some_bind, decode_encode]

end Go.Pem
