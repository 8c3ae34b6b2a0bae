-- SUMMARY: `ParseCardHolderName`: the card's surname<<forename convention turned into "forename, newline, surname", and that a valid UTF-8 name stays valid.
import GpgCard.Go.Strings

/-!
# The cardholder name

The card stores the cardholder's name as `surname<<forename`, with `<` for
every space. `ParseCardHolderName` puts the forename first,
on a line of its own, and turns the remaining `<` into spaces.

It cuts the name at a byte position that `strings.Index` returns and maps
single bytes, so it could in principle split a multi-byte character. It does
not: the marker and the replaced byte are ASCII, and a valid UTF-8 string only
holds ASCII bytes between characters.
-/

namespace Piv

open Go

/-- `NameNotSet`, what an empty name reads as. -/
def nameNotSet : Bytes := str "[not set]"

/-- `suffix`, the marker between surname and forename. -/
def suffix : Bytes := str "<<"

/-- `suffixLen`. -/
def suffixLen : Nat := suffix.length

/-- `ParseCardHolderName`. `nameString := string(name)` has the same bytes, so its emptiness test
    repeats the one on `name`; `strings.ReplaceAll(..., "<", " ")` maps byte `0x3C` to `0x20`. -/
def parseCardHolderName (name : Bytes) : Bytes :=
  if name.length = 0 then nameNotSet else
  let nameString := name
  if nameString.length = 0 then nameNotSet else
  let i? := Strings.index nameString (str "<<")
  let front := match i? with
    | some i => nameString.drop (i + suffixLen) ++
        (if i + suffixLen < nameString.length then str "\n" else [])
    | none => []
  let i := i?.getD nameString.length
  front ++ Strings.replaceAll (nameString.take i) 0x3C 0x20

@[simp] theorem str_marker : str "<<" = [0x3C, 0x3C] := rfl

@[simp] theorem suffixLen_eq : suffixLen = 2 := rfl

theorem parseCardHolderName_of_index_none {name : Bytes} (h0 : name ≠ [])
    (h : Strings.index name [0x3C, 0x3C] = none) :
    parseCardHolderName name = Strings.replaceAll name 0x3C 0x20 := by
  simp [parseCardHolderName, h0, h]

theorem parseCardHolderName_of_index_some {name : Bytes} {i : Nat}
    (h : Strings.index name [0x3C, 0x3C] = some i) :
    parseCardHolderName name = name.drop (i + 2) ++
      (if i + 2 < name.length then str "\n" else []) ++ Strings.replaceAll (name.take i) 0x3C 0x20 := by
  have h0 : name ≠ [] := by
    rintro rfl
    simpa using Strings.prefix_drop_of_index h
  simp [parseCardHolderName, h0, h]

/-- `ParseCardHolderName` follows the surname<<forename convention: a name with no `<<` is all
    surname, and a surname with no `<<` and no `<` at its end, a marker and a forename read as
    the forename, a newline if there is one, and the surname, every `<` a space. -/
theorem parseCardHolderName_convention :
    (∀ n : Bytes, n ≠ [] → ¬ str "<<" <:+: n →
      parseCardHolderName n = n.map fun c => if c = 0x3C then 0x20 else c) ∧
    (∀ s f : Bytes, ¬ str "<<" <:+: s → s.getLast? ≠ some 0x3C →
      parseCardHolderName (s ++ str "<<" ++ f) =
        f ++ (if f ≠ [] then str "\n" else []) ++ s.map fun c => if c = 0x3C then 0x20 else c) := by
  refine ⟨fun n hn h => ?_, fun s f hs hl => ?_⟩
  · exact parseCardHolderName_of_index_none hn (Strings.index_eq_none h)
  · rw [str_marker] at hs ⊢
    have hi := Strings.index_append_pair hs hl f
    rw [List.append_assoc, List.cons_append, List.cons_append, List.nil_append,
      parseCardHolderName_of_index_some hi]
    have hd : (s ++ 0x3C :: 0x3C :: f).drop (s.length + 2) = f := by
      simp [List.drop_append_eq_append_drop]
    by_cases hf : f = [] <;> simp [hd, hf, Strings.replaceAll]

/-- The convention on the specification's own example, `VAN<DER<BERG<<ANNA`. -/
theorem parseCardHolderName_vanDerBerg :
    parseCardHolderName (str "VAN<DER<BERG") = str "VAN DER BERG" ∧
      parseCardHolderName (str "VAN<DER<BERG" ++ str "<<" ++ str "ANNA") = str "ANNA\nVAN DER BERG" :=
  ⟨(parseCardHolderName_convention.1 _ (by decide) (by decide)).trans (by decide),
    (parseCardHolderName_convention.2 _ _ (by decide) (by decide)).trans (by decide)⟩

/-- `ParseCardHolderName` prints nothing for exactly one name, the bare marker `<<`: an empty
    name reads `[not set]`, every other name keeps a byte. -/
theorem parseCardHolderName_eq_nil_iff (name : Bytes) :
    parseCardHolderName [] = nameNotSet ∧ (parseCardHolderName name = [] ↔ name = str "<<") := by
  refine ⟨rfl, fun h => ?_, fun h => h ▸ by decide⟩
  by_cases h0 : name = []
  · subst h0; simp [parseCardHolderName, nameNotSet, str] at h
  cases hi : Strings.index name [0x3C, 0x3C] with
  | none =>
    rw [parseCardHolderName_of_index_none h0 hi] at h
    exact absurd (List.map_eq_nil_iff.mp h) h0
  | some i =>
    rw [parseCardHolderName_of_index_some hi] at h
    simp only [List.append_eq_nil, Strings.replaceAll, List.map_eq_nil_iff, List.drop_eq_nil_iff,
      List.take_eq_nil_iff] at h
    obtain ⟨⟨hd, -⟩, hi0 | hn⟩ := h
    · subst hi0
      rw [Strings.eq_append_of_index hi, List.drop_eq_nil_of_le (by simpa using hd)]
      rfl
    · exact absurd hn h0

/-- A valid UTF-8 name reads as a valid UTF-8 name: the cut at the first `<<` and the `<` that
    become spaces are all ASCII, and a valid string only holds ASCII bytes between
    characters. -/
theorem parseCardHolderName_valid {name : Bytes} (h : Utf8.Valid name) :
    Utf8.Valid (parseCardHolderName name) := by
  by_cases h0 : name = []
  · subst h0; decide
  cases hi : Strings.index name [0x3C, 0x3C] with
  | none =>
    rw [parseCardHolderName_of_index_none h0 hi]
    exact h.replaceAll (by decide) (by decide)
  | some i =>
    rw [parseCardHolderName_of_index_some hi]
    rw [Strings.eq_append_of_index hi, List.append_assoc, List.cons_append, List.cons_append,
      List.nil_append] at h
    obtain ⟨hsurname, hmarker⟩ := Utf8.Valid.split h (by decide)
    have hforename :=
      (Utf8.Valid.split (show Utf8.Valid ([] ++ 0x3C :: name.drop (i + 2)) from hmarker)
        (by decide)).2
    refine (hforename.append ?_).append (hsurname.replaceAll (by decide) (by decide))
    split <;> decide

/-- `MÜLLER<<JÜRGEN`, each `Ü` the two bytes `C3 9C`, reads as valid UTF-8. -/
theorem parseCardHolderName_valid_mueller :
    let name := str "M" ++ [0xC3, 0x9C] ++ str "LLER<<J" ++ [0xC3, 0x9C] ++ str "RGEN"
    Utf8.Valid name ∧ Utf8.Valid (parseCardHolderName name) :=
  ⟨by decide, parseCardHolderName_valid (by decide)⟩

end Piv
