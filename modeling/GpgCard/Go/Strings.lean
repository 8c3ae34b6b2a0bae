-- SUMMARY: `strings.Index` and `strings.ReplaceAll` on byte strings: where `Index` stops, and that a one-byte ASCII `ReplaceAll` keeps UTF-8 valid.
import GpgCard.Go.Utf8
import Mathlib.Data.List.Infix

/-!
# Searching and replacing in byte strings

`ParseCardHolderName` finds the first `<<` with `strings.Index` and turns every
other `<` into a space with `strings.ReplaceAll`. Both work on bytes: Go's
strings are byte strings, and `Index` returns a byte position.
-/

namespace Go.Strings

/-- `strings.Index(s, substr)`: the byte position of the first occurrence of `substr` in `s`,
    or `none` where Go returns `-1`. -/
def index (s substr : Bytes) : Option Nat :=
  if substr.isPrefixOf s then some 0
  else match s with
    | [] => none
    | _ :: s' => (index s' substr).map (· + 1)

/-- `strings.ReplaceAll(s, old, new)` with a one-byte `old` and `new`, the only way the package
    calls it: every byte `old` becomes `new`. -/
def replaceAll (s : Bytes) (old new : UInt8) : Bytes := s.map fun c => if c = old then new else c

theorem index_cons (c : UInt8) (s substr : Bytes) :
    index (c :: s) substr =
      if substr.isPrefixOf (c :: s) then some 0 else (index s substr).map (· + 1) := by
  rw [index]

/-- Where `index` stops, `substr` starts. -/
theorem prefix_drop_of_index {s substr : Bytes} {i : Nat} (h : index s substr = some i) :
    substr <+: s.drop i := by
  induction s generalizing i with
  | nil =>
    unfold index at h
    split at h
    · cases h; exact List.isPrefixOf_iff_prefix.mp ‹_›
    · cases h
  | cons c s ih =>
    rw [index_cons] at h
    split at h
    · cases h; exact List.isPrefixOf_iff_prefix.mp ‹_›
    · obtain ⟨j, hj, rfl⟩ := Option.map_eq_some'.mp h
      exact ih hj

/-- Where `index` stops, `s` splits into what comes before, `substr`, and what follows. -/
theorem eq_append_of_index {s substr : Bytes} {i : Nat} (h : index s substr = some i) :
    s = s.take i ++ substr ++ s.drop (i + substr.length) := by
  obtain ⟨u, hu⟩ := prefix_drop_of_index h
  have hu' : s.drop (i + substr.length) = u := by
    rw [← List.drop_drop, ← hu, List.drop_left]
  rw [hu', List.append_assoc, hu, List.take_append_drop]

/-- A string that does not contain `substr` has no index of it. -/
theorem index_eq_none {s substr : Bytes} (h : ¬ substr <:+: s) : index s substr = none := by
  induction s with
  | nil =>
    rw [index, if_neg]
    exact fun hp => h (List.isPrefixOf_iff_prefix.mp hp).isInfix
  | cons c s ih =>
    rw [List.infix_cons_iff, not_or] at h
    rw [index_cons, if_neg (fun hp => h.1 (List.isPrefixOf_iff_prefix.mp hp)), ih h.2]
    rfl

/-- The first `c c` in `s ++ c :: c :: f` starts right after `s` when `s` has no `c c` and does
    not end in `c`. -/
theorem index_append_pair {c : UInt8} {s : Bytes} (hs : ¬ [c, c] <:+: s)
    (hl : s.getLast? ≠ some c) (f : Bytes) :
    index (s ++ c :: c :: f) [c, c] = some s.length := by
  induction s with
  | nil => simp [index]
  | cons x s ih =>
    have hx : ¬ [c, c] <+: x :: (s ++ c :: c :: f) := by
      rintro ⟨t, ht⟩
      cases s with
      | nil => simp_all
      | cons y s =>
        obtain ⟨rfl, rfl, -⟩ : c = x ∧ c = y ∧ _ := by simpa using ht
        exact hs (List.prefix_append [c, c] s).isInfix
    have hs' : ¬ [c, c] <:+: s := fun h => hs (h.trans (List.suffix_cons x s).isInfix)
    have hl' : s.getLast? ≠ some c := by
      cases s with
      | nil => simp
      | cons y s => simpa using hl
    rw [List.cons_append, index_cons, if_neg (fun hp => hx (List.isPrefixOf_iff_prefix.mp hp)),
      ih hs' hl']
    rfl

theorem replaceAll_append (s t : Bytes) (old new : UInt8) :
    replaceAll (s ++ t) old new = replaceAll s old new ++ replaceAll t old new :=
  List.map_append _ _ _

theorem length_replaceAll (s : Bytes) (old new : UInt8) :
    (replaceAll s old new).length = s.length :=
  List.length_map _ _

end Go.Strings

namespace Go.Utf8

/-- Replacing an ASCII byte by an ASCII byte keeps a string valid UTF-8. -/
theorem Valid.replaceAll {s : Bytes} (h : Valid s) {old new : UInt8} (ho : old < 0x80)
    (hn : new < 0x80) : Valid (Strings.replaceAll s old new) := by
  refine h.map (fun b hb => ?_) (fun b hb => ?_)
  · split <;> assumption
  · rw [if_neg (fun he : b = old => hb (he ▸ ho))]

end Go.Utf8
