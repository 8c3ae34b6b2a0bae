-- SUMMARY: Go's `utf8.Valid` as a byte-at-a-time machine, and the facts that cutting at an ASCII byte, joining, and swapping ASCII bytes keep a string valid.
import GpgCard.Go.Bytes

/-!
# Valid UTF-8

`utf8.Valid` reads a lead byte, looks up in its `first` table how many
continuation bytes follow and in `acceptRanges` what the next one may be, and
checks them. The model runs the same check one byte at a time: the state says
how many continuation bytes are still owed and the range of the next.

Every accept range lies above the ASCII bytes, so an ASCII byte is only ever
read between characters. That one fact gives the three lemmas the cardholder
name needs: a valid string cut at an ASCII byte leaves two valid strings, two
valid strings join into one, and swapping ASCII bytes for ASCII bytes keeps a
string valid.
-/

namespace Go.Utf8

/-- The ranges a continuation byte may fall in (`acceptRanges`). -/
inductive AcceptRange where
  /-- `0x80`–`0xBF`, any continuation byte. -/
  | any
  /-- `0xA0`–`0xBF`, after `0xE0` (no overlong three-byte form). -/
  | afterE0
  /-- `0x80`–`0x9F`, after `0xED` (no surrogate). -/
  | afterED
  /-- `0x90`–`0xBF`, after `0xF0` (no overlong four-byte form). -/
  | afterF0
  /-- `0x80`–`0x8F`, after `0xF4` (nothing past U+10FFFF). -/
  | afterF4
  deriving DecidableEq, Repr

/-- The least byte a range accepts. -/
def AcceptRange.lo : AcceptRange → UInt8
  | .any | .afterED | .afterF4 => 0x80
  | .afterE0 => 0xA0
  | .afterF0 => 0x90

/-- The greatest byte a range accepts. -/
def AcceptRange.hi : AcceptRange → UInt8
  | .any | .afterE0 | .afterF0 => 0xBF
  | .afterED => 0x9F
  | .afterF4 => 0x8F

theorem AcceptRange.lo_ge (r : AcceptRange) : 0x80 ≤ r.lo.toNat := by
  cases r <;> decide

/-- Where the check stands between two bytes. -/
inductive State where
  /-- Between characters. -/
  | start
  /-- Inside a character: the next byte must fall in `r`, and `more` continuation bytes
      follow it. -/
  | inside (more : Nat) (r : AcceptRange)
  deriving DecidableEq, Repr

/-- The `first` table for a byte that is not ASCII: `none` where it cannot start a character,
    else how many continuation bytes follow the next one and the range of the next one. -/
def first (b : UInt8) : Option (Nat × AcceptRange) :=
  if b < 0xC2 then none
  else if b ≤ 0xDF then some (0, .any)
  else if b = 0xE0 then some (1, .afterE0)
  else if b = 0xED then some (1, .afterED)
  else if b ≤ 0xEF then some (1, .any)
  else if b = 0xF0 then some (2, .afterF0)
  else if b ≤ 0xF3 then some (2, .any)
  else if b = 0xF4 then some (2, .afterF4)
  else none

/-- One byte of the check: the state after it, or `none` where `utf8.Valid` returns false. -/
def step : State → UInt8 → Option State
  | .start, b => if b < 0x80 then some .start else (first b).map fun (n, r) => .inside n r
  | .inside n r, b =>
    if r.lo ≤ b ∧ b ≤ r.hi then
      some (match n with
        | 0 => .start
        | n + 1 => .inside n .any)
    else none

/-- The state after every byte of `p`, from `q`. -/
def run (q : State) (p : Bytes) : Option State := p.foldlM step q

/-- `utf8.Valid(p)`: the check ends between characters. -/
def Valid (p : Bytes) : Prop := run .start p = some .start

instance : DecidablePred Valid := fun p => inferInstanceAs (Decidable (run .start p = some .start))

@[simp] theorem run_nil (q : State) : run q [] = some q := rfl

theorem run_cons (q : State) (b : UInt8) (p : Bytes) :
    run q (b :: p) = (step q b).bind fun q' => run q' p := rfl

theorem run_append (q : State) (p p' : Bytes) :
    run q (p ++ p') = (run q p).bind fun q' => run q' p' :=
  List.foldlM_append _ _ _ _

/-- An ASCII byte is read only between characters, and leaves the check there. -/
theorem step_ascii {q : State} {b : UInt8} (hb : b < 0x80) :
    step q b = if q = .start then some .start else none := by
  cases q with
  | start => simp [step, hb]
  | inside n r =>
    have := r.lo_ge
    have : ¬ r.lo ≤ b := by change ¬ r.lo.toNat ≤ b.toNat; change b.toNat < 128 at hb; omega
    simp [step, this]

theorem valid_nil : Valid [] := rfl

/-- Two valid strings join into a valid one. -/
theorem Valid.append {p p' : Bytes} (h : Valid p) (h' : Valid p') : Valid (p ++ p') := by
  rw [Valid, run_append, h]; exact h'

/-- A valid string cut at an ASCII byte leaves a valid string on each side. -/
theorem Valid.split {p p' : Bytes} {b : UInt8} (h : Valid (p ++ b :: p')) (hb : b < 0x80) :
    Valid p ∧ Valid p' := by
  rw [Valid, run_append] at h
  obtain ⟨q, hq, h⟩ := Option.bind_eq_some.mp h
  rw [run_cons] at h
  obtain ⟨q', hq', hrest⟩ := Option.bind_eq_some.mp h
  rw [step_ascii hb] at hq'
  split at hq'
  · cases hq'; subst q; exact ⟨hq, hrest⟩
  · cases hq'

/-- A map that sends ASCII bytes to ASCII bytes and keeps every other byte steps alike. -/
theorem step_map {f : UInt8 → UInt8} (hf : ∀ b, b < 0x80 → f b < 0x80)
    (hfix : ∀ b, ¬ b < 0x80 → f b = b) (q : State) (b : UInt8) : step q (f b) = step q b := by
  by_cases hb : b < 0x80
  · rw [step_ascii (hf b hb), step_ascii hb]
  · rw [hfix b hb]

theorem run_map {f : UInt8 → UInt8} (hf : ∀ b, b < 0x80 → f b < 0x80)
    (hfix : ∀ b, ¬ b < 0x80 → f b = b) (q : State) (p : Bytes) : run q (p.map f) = run q p := by
  induction p generalizing q with
  | nil => rfl
  | cons b p ih => simp only [List.map_cons, run_cons, step_map hf hfix, ih]

/-- Swapping ASCII bytes for ASCII bytes keeps a string valid. -/
theorem Valid.map {f : UInt8 → UInt8} (hf : ∀ b, b < 0x80 → f b < 0x80)
    (hfix : ∀ b, ¬ b < 0x80 → f b = b) {p : Bytes} (h : Valid p) : Valid (p.map f) := by
  rw [Valid, run_map hf hfix]; exact h

/-- An ASCII string is valid UTF-8. -/
theorem Valid.of_ascii {s : Bytes} (h : Ascii s) : Valid s := by
  induction s with
  | nil => rfl
  | cons b s ih =>
    rw [Valid, run_cons, step_ascii (h b (List.mem_cons_self b s)), if_pos rfl]
    exact ih fun c hc => h c (List.mem_cons_of_mem b hc)

end Go.Utf8
