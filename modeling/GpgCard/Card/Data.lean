-- SUMMARY: The package's errors, how a call ends (a value, an error or a panic), the `GpgData` record and its tag map, and the methods that run on it.
import GpgCard.Go.Bytes

/-!
# The card record

`GpgData` is the record that `gpg_data.go` fills in from the card's answers: a
map from TLV tag paths (`"6E.73.C5"`) to the bytes stored there, and the fields
decoded from it. The record's declaration, `GetTag`, the error values and the
constants are in files of the package that are not part of this development;
each definition that stands in for one says `Modelled from the spec:`.

A call ends in one of three ways (`Result`): it returns a value with a nil
error, it returns an error, or it panics at run time. A method on a `*GpgData`
receiver (`Method`) also leaves the record as its assignments made it, and it
does so when it returns an error part way through as well: the model keeps
those assignments.
-/

namespace Piv

open Go

-- ---------------------------------------------------------------------------
-- Errors and results
-- ---------------------------------------------------------------------------

/-- Modelled from the spec: the package's sentinel errors (`ErrKeyNotPresent`, `ErrNoSuchTag`,
    `ErrNoSuchAlgorithm`, `ErrUnknownKeyOrigin`, `ErrNotFound`, `ErrTooShort`). -/
inductive Sentinel where
  | keyNotPresent
  | noSuchTag
  | noSuchAlgorithm
  | unknownKeyOrigin
  | notFound
  | tooShort
  deriving DecidableEq, Repr

/-- An `error` value: a sentinel, or `fmt.Errorf(format, ..., err)` with `%w` around `err`.
    The format is kept as the source writes it; the other values it prints (tag paths, key
    types, lengths) are not. -/
inductive Error where
  | sentinel (s : Sentinel)
  | wrap (format : String) (cause : Error)
  deriving DecidableEq, Repr

/-- `errors.Is(err, target)` for a sentinel `target`: `err` is `target` or wraps it. -/
def Error.is : Error → Sentinel → Bool
  | .sentinel s, t => s == t
  | .wrap _ e, t => e.is t

/-- How a call ends: it returns `a` and a nil error, it returns a non-nil error, or it panics
    (an index or a slice bound out of range). -/
inductive Result (α : Type) where
  | ok (a : α)
  | error (e : Error)
  | panic
  deriving DecidableEq, Repr

instance : Monad Result where
  pure := .ok
  bind r f := match r with
    | .ok a => f a
    | .error e => .error e
    | .panic => .panic

/-- A lookup of the Go runtime lifts in with `none` as the panic: `← aid[10]?` is `aid[10]`. -/
instance : MonadLift Option Result where
  monadLift
    | some a => .ok a
    | none => .panic

/-- `fmt.Errorf(format, ..., err)` around the error of a call; a value or a panic passes. -/
def Result.wrapErr {α : Type} (format : String) : Result α → Result α
  | .error e => .error (.wrap format e)
  | r => r

section ResultLemmas

variable {α β : Type}

@[simp] theorem Result.pure_eq (a : α) : (pure a : Result α) = .ok a := rfl
@[simp] theorem Result.ok_bind (a : α) (f : α → Result β) : (Result.ok a >>= f) = f a := rfl
@[simp] theorem Result.error_bind (e : Error) (f : α → Result β) :
    (Result.error e >>= f) = .error e := rfl
@[simp] theorem Result.panic_bind (f : α → Result β) : (Result.panic >>= f) = .panic := rfl
@[simp] theorem Result.lift_some (a : α) : (monadLift (some a) : Result α) = .ok a := rfl
@[simp] theorem Result.lift_none : (monadLift (none : Option α) : Result α) = .panic := rfl
@[simp] theorem Result.wrapErr_ok (f : String) (a : α) : (Result.ok a).wrapErr f = .ok a := rfl
@[simp] theorem Result.wrapErr_error (f : String) (e : Error) :
    (Result.error e : Result α).wrapErr f = .error (.wrap f e) := rfl
@[simp] theorem Result.wrapErr_panic (f : String) : (Result.panic : Result α).wrapErr f = .panic :=
  rfl

@[simp] theorem Error.is_sentinel (s t : Sentinel) : (Error.sentinel s).is t = decide (s = t) :=
  rfl

@[simp] theorem Error.is_wrap (f : String) (e : Error) (t : Sentinel) :
    (Error.wrap f e).is t = e.is t := rfl

end ResultLemmas

-- ---------------------------------------------------------------------------
-- The record
-- ---------------------------------------------------------------------------

/-- Modelled from the spec: the fields of `GpgData` that the modelled functions read or write,
    each at its Go zero value. `tlvValues` is the map from tag paths to values;
    `secureMessaging` holds a `SecureMessagingAlgorithm`, a one-byte code. -/
structure GpgData where
  reader : Bytes := []
  tlvValues : List (String × Bytes) := []
  serial : Bytes := []
  serialInt : UInt32 := 0
  longName : Bytes := []
  cardHolder : Bytes := []
  rid : Bytes := []
  application : Bytes := []
  version : Bytes := []
  manufacturer : Bytes := []
  appletVersion : Bytes := []
  secureMessagingSupported : Bool := false
  secureMessaging : UInt8 := 0
  getChallengeSupported : Bool := false
  maximumChallengeLength : UInt16 := 0
  keyImportSupported : Bool := false
  pwStatusChangeable : Bool := false
  privateUseDOsSupported : Bool := false
  algorithmAttributesChangeable : Bool := false
  supportsPSODecryptionEncryptionWithAES : Bool := false
  kdfSupported : Bool := false
  maximumCardholderCertificatesLength : UInt16 := 0
  maximumSpecialDOsLength : UInt16 := 0
  pinBlock2Supported : Bool := false
  mseCommandSupported : Bool := false
  deriving DecidableEq, Repr

/-- Modelled from the spec: `GetTag(key, minLen)`, the value stored under the tag path `key`.
    It fails with `ErrNoSuchTag` where the path is absent and with `ErrTooShort` where the value
    is shorter than `minLen`. -/
def GpgData.getTag (g : GpgData) (key : String) (minLen : Nat) : Result Bytes :=
  match g.tlvValues.lookup key with
  | none => .error (.sentinel .noSuchTag)
  | some v => if v.length < minLen then .error (.sentinel .tooShort) else .ok v

/-- `HasTag`: the length of the value stored under `key`, and whether there is one. -/
def GpgData.hasTag (g : GpgData) (key : String) : Nat × Bool :=
  match g.tlvValues.lookup key with
  | some v => (v.length, true)
  | none => (0, false)

theorem GpgData.getTag_eq_ok {g : GpgData} {key : String} {minLen : Nat} {v : Bytes} :
    g.getTag key minLen = .ok v ↔ g.tlvValues.lookup key = some v ∧ minLen ≤ v.length := by
  unfold GpgData.getTag
  cases g.tlvValues.lookup key with
  | none => simp
  | some w =>
    by_cases hw : w.length < minLen
    · simp only [hw, if_true, Option.some.injEq, reduceCtorEq, false_iff, not_and]
      rintro rfl; omega
    · simp only [hw, if_false, Result.ok.injEq, Option.some.injEq]
      exact ⟨fun h => ⟨h, h ▸ Nat.not_lt.mp hw⟩, And.left⟩

/-- `GetTag` never panics: it returns the value or an error. -/
theorem GpgData.getTag_ok_or_error (g : GpgData) (key : String) (minLen : Nat) :
    (∃ v, g.getTag key minLen = .ok v) ∨ ∃ e, g.getTag key minLen = .error e := by
  unfold GpgData.getTag
  split
  · exact .inr ⟨_, rfl⟩
  · split
    · exact .inr ⟨_, rfl⟩
    · exact .inl ⟨_, rfl⟩

/-- `GetTag` reads the tag map only. -/
theorem GpgData.getTag_congr {g g' : GpgData} (h : g.tlvValues = g'.tlvValues) :
    g.getTag = g'.getTag := by
  unfold GpgData.getTag; rw [h]

-- ---------------------------------------------------------------------------
-- Methods
-- ---------------------------------------------------------------------------

/-- A method on a `*GpgData` receiver: run on the record, it ends in a `Result` and leaves the
    record as its assignments made it. -/
def Method (α : Type) := GpgData → Result α × GpgData

instance : Monad Method where
  pure a g := (.ok a, g)
  bind x f g := match x g with
    | (.ok a, g') => f a g'
    | (.error e, g') => (.error e, g')
    | (.panic, g') => (.panic, g')

instance : MonadLift Result Method where
  monadLift r g := (r, g)

instance : MonadStateOf GpgData Method where
  get g := (.ok g, g)
  set g _ := (.ok (), g)
  modifyGet f g := (.ok (f g).1, (f g).2)

instance : MonadExceptOf Error Method where
  throw e g := (.error e, g)
  tryCatch x h g := match x g with
    | (.error e, g') => h e g'
    | r => r

/-- `fmt.Errorf(format, ..., err)` around the error a method returns. -/
def Method.wrapErr {α : Type} (format : String) (m : Method α) : Method α :=
  fun g => ((m g).1.wrapErr format, (m g).2)

namespace Method

variable {α β : Type}

@[simp] theorem bind_apply (x : Method α) (f : α → Method β) (g : GpgData) :
    (x >>= f) g = match x g with
      | (.ok a, g') => f a g'
      | (.error e, g') => (.error e, g')
      | (.panic, g') => (.panic, g') := rfl

@[simp] theorem pure_apply (a : α) (g : GpgData) : (pure a : Method α) g = (.ok a, g) := rfl

@[simp] theorem lift_apply (r : Result α) (g : GpgData) :
    (monadLift r : Method α) g = (r, g) := rfl

@[simp] theorem liftOption_apply (o : Option α) (g : GpgData) :
    (monadLift o : Method α) g = (monadLift o, g) := rfl

@[simp] theorem get_apply (g : GpgData) : (get : Method GpgData) g = (.ok g, g) := rfl

@[simp] theorem modify_apply (f : GpgData → GpgData) (g : GpgData) :
    (modify f : Method Unit) g = (.ok (), f g) := rfl

@[simp] theorem throw_apply (e : Error) (g : GpgData) :
    (throw e : Method α) g = (.error e, g) := rfl

@[simp] theorem wrapErr_apply (format : String) (m : Method α) (g : GpgData) :
    m.wrapErr format g = ((m g).1.wrapErr format, (m g).2) := rfl

@[simp] theorem ite_apply (c : Prop) [Decidable c] (x y : Method α) (g : GpgData) :
    (if c then x else y) g = if c then x g else y g := by
  split <;> rfl

end Method

end Piv
