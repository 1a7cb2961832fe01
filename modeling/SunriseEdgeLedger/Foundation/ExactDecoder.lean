import Mathlib

/-!
# Exact decoders

A decoder from an input type to `Except` is *exact* for an encoder when it accepts precisely the
encodings of the valid values and returns the value it was given the encoding of.  Exactness is the
strongest form of a round-trip law: it contains both directions of the round trip, injectivity of
the encoder on valid values, and uniqueness of the accepted input of every value.

The first sections collect how `Except` computations succeed and fail, so that a function written as
a chain of fallible steps can be opened one step at a time.
-/

namespace SunriseEdgeLedger.Foundation

universe u

section Success

variable {ε ε' α β : Type u}

/-- A bind succeeds exactly when its first stage succeeds and hands a good value to the second. -/
theorem bind_eq_ok_iff {first : Except ε α} {next : α → Except ε β} {result : β} :
    (first >>= next) = .ok result ↔ ∃ value, first = .ok value ∧ next value = .ok result := by
  cases first with
  | error failure => simp [bind, Except.bind]
  | ok value => simp [bind, Except.bind]

/-- A bind fails where its first stage fails, and else where the second does. -/
theorem bind_eq_error_iff {first : Except ε α} {next : α → Except ε β} {failure : ε} :
    (first >>= next) = .error failure ↔
      first = .error failure ∨ ∃ value, first = .ok value ∧ next value = .error failure := by
  cases first with
  | error failure' => simp [bind, Except.bind]
  | ok value => simp [bind, Except.bind]

@[simp]
theorem ok_bind (value : α) (next : α → Except ε β) :
    ((.ok value : Except ε α) >>= next) = next value := rfl

@[simp]
theorem error_bind (failure : ε) (next : α → Except ε β) :
    ((.error failure : Except ε α) >>= next) = .error failure := rfl

/-- Sequences are equal if their first parts are, and their second parts on what these return. -/
theorem bind_congr_of_ok {first first' : Except ε α} {next next' : α → Except ε β}
    (hfirst : first = first') (hnext : ∀ value, first = .ok value → next value = next' value) :
    (first >>= next) = (first' >>= next') := by
  subst hfirst
  cases first with
  | error failure => rfl
  | ok value => exact hnext value rfl

/-- Renaming errors neither adds nor removes successes. -/
@[simp]
theorem mapError_eq_ok_iff {rename : ε → ε'} {computation : Except ε α} {value : α} :
    computation.mapError rename = .ok value ↔ computation = .ok value := by
  cases computation <;> simp [Except.mapError]

@[simp]
theorem mapError_ok (rename : ε → ε') (value : α) :
    (Except.ok value : Except ε α).mapError rename = .ok value := rfl

theorem mapError_eq_error_iff {rename : ε → ε'} {computation : Except ε α} {failure : ε'} :
    computation.mapError rename = .error failure ↔
      ∃ cause, computation = .error cause ∧ rename cause = failure := by
  cases computation <;> simp [Except.mapError]

@[simp]
theorem map_eq_ok_iff {transform : α → β} {computation : Except ε α} {result : β} :
    computation.map transform = .ok result ↔
      ∃ value, computation = .ok value ∧ transform value = result := by
  cases computation <;> simp [Except.map]

/-- `Option::ok_or`: a missing value becomes the given error. -/
def okOr (failure : ε) : Option α → Except ε α
  | some value => .ok value
  | none => .error failure

@[simp]
theorem okOr_some (failure : ε) (value : α) : okOr failure (some value) = .ok value := rfl

@[simp]
theorem okOr_none (failure : ε) : okOr failure (none : Option α) = .error failure := rfl

@[simp]
theorem okOr_eq_ok_iff {failure : ε} {candidate : Option α} {value : α} :
    okOr failure candidate = .ok value ↔ candidate = some value := by
  cases candidate <;> simp

theorem okOr_eq_error_iff {failure failure' : ε} {candidate : Option α} :
    okOr failure candidate = .error failure' ↔ candidate = none ∧ failure = failure' := by
  cases candidate <;> simp

/-- An early return with an error unless the condition holds. -/
def ensure (condition : Prop) [Decidable condition] (failure : ε) : Except ε PUnit :=
  if condition then .ok ⟨⟩ else .error failure

@[simp]
theorem ensure_eq_ok_iff {condition : Prop} [Decidable condition] {failure : ε} {result : PUnit} :
    ensure condition failure = .ok result ↔ condition := by
  unfold ensure
  split_ifs with hcondition <;> simp [hcondition]

theorem ensure_of_true {condition : Prop} [Decidable condition] (hcondition : condition)
    (failure : ε) : ensure condition failure = .ok ⟨⟩ := if_pos hcondition

theorem ensure_of_false {condition : Prop} [Decidable condition] (hcondition : ¬ condition)
    (failure : ε) : ensure condition failure = .error failure := if_neg hcondition

theorem ensure_congr {first second : Prop} [Decidable first] [Decidable second]
    (hconditions : first ↔ second) (failure : ε) : ensure first failure = ensure second failure :=
  if_congr hconditions rfl rfl

theorem ensure_eq_error_iff {condition : Prop} [Decidable condition] {failure failure' : ε} :
    ensure condition failure = .error failure' ↔ ¬ condition ∧ failure = failure' := by
  unfold ensure
  split_ifs with hcondition <;> simp [hcondition]

@[simp]
theorem toOption_eq_some_iff {computation : Except ε α} {value : α} :
    computation.toOption = some value ↔ computation = .ok value := by
  cases computation <;> simp [Except.toOption]

end Success

section Failure

variable {ε ε' α β : Type u} {Allowed : ε → Prop}

/-- Every error of the computation is an allowed one. -/
def FailsOnlyWith (Allowed : ε → Prop) (computation : Except ε α) : Prop :=
  ∀ failure, computation = .error failure → Allowed failure

theorem failsOnlyWith_ok (value : α) : FailsOnlyWith Allowed (.ok value) := by
  rintro failure ⟨⟩

theorem failsOnlyWith_error {failure : ε} (hallowed : Allowed failure) :
    FailsOnlyWith Allowed (.error failure : Except ε α) := by
  rintro _ ⟨⟩
  exact hallowed

theorem failsOnlyWith_ensure {condition : Prop} [Decidable condition] {failure : ε}
    (hallowed : Allowed failure) : FailsOnlyWith Allowed (ensure condition failure) := by
  intro failure' herror
  obtain ⟨-, rfl⟩ := ensure_eq_error_iff.mp herror
  exact hallowed

theorem failsOnlyWith_okOr {candidate : Option α} {failure : ε} (hallowed : Allowed failure) :
    FailsOnlyWith Allowed (okOr failure candidate) := by
  intro failure' herror
  obtain ⟨-, rfl⟩ := okOr_eq_error_iff.mp herror
  exact hallowed

theorem failsOnlyWith_mapError {computation : Except ε' α} {rename : ε' → ε}
    (hallowed : ∀ cause, Allowed (rename cause)) :
    FailsOnlyWith Allowed (computation.mapError rename) := by
  intro failure herror
  obtain ⟨cause, -, rfl⟩ := mapError_eq_error_iff.mp herror
  exact hallowed cause

/-- A sequence fails as its parts fail; the second part may use what the first one returned. -/
theorem failsOnlyWith_bind {first : Except ε α} {next : α → Except ε β}
    (hfirst : FailsOnlyWith Allowed first)
    (hnext : ∀ value, first = .ok value → FailsOnlyWith Allowed (next value)) :
    FailsOnlyWith Allowed (first >>= next) := by
  intro failure herror
  rcases bind_eq_error_iff.mp herror with herror | ⟨value, hvalue, herror⟩
  · exact hfirst failure herror
  · exact hnext value hvalue failure herror

/-- Behind an early return its condition holds. -/
theorem failsOnlyWith_ensure_bind {condition : Prop} [Decidable condition] {failure : ε}
    {rest : PUnit → Except ε β} (hallowed : Allowed failure)
    (hrest : condition → FailsOnlyWith Allowed (rest ⟨⟩)) :
    FailsOnlyWith Allowed (ensure condition failure >>= rest) := by
  apply failsOnlyWith_bind (failsOnlyWith_ensure hallowed)
  intro _ hcondition
  exact hrest (ensure_eq_ok_iff.mp hcondition)

/-- Behind the use of an optional value it is there. -/
theorem failsOnlyWith_okOr_bind {candidate : Option α} {failure : ε} {next : α → Except ε β}
    (hallowed : Allowed failure)
    (hnext : ∀ value, candidate = some value → FailsOnlyWith Allowed (next value)) :
    FailsOnlyWith Allowed (okOr failure candidate >>= next) := by
  apply failsOnlyWith_bind (failsOnlyWith_okOr hallowed)
  intro value hvalue
  exact hnext value (okOr_eq_ok_iff.mp hvalue)

/-- A renamed failure is allowed under its new name. -/
theorem failsOnlyWith_mapError_bind {computation : Except ε' α} {rename : ε' → ε}
    {next : α → Except ε β} (hallowed : ∀ cause, Allowed (rename cause))
    (hnext : ∀ value, FailsOnlyWith Allowed (next value)) :
    FailsOnlyWith Allowed (computation.mapError rename >>= next) :=
  failsOnlyWith_bind (failsOnlyWith_mapError hallowed) fun value _ ↦ hnext value

end Failure

/-! ## Exactness -/

section Exactness

variable {Input Value : Type u} {Error Error' : Type u}

/-- `decode` accepts precisely the encodings of valid values, and returns the encoded value. -/
structure Exact (decode : Input → Except Error Value) (valid : Value → Prop)
    (encode : Value → Input) : Prop where
  ok_iff : ∀ input value, decode input = .ok value ↔ valid value ∧ input = encode value

namespace Exact

variable {decode : Input → Except Error Value} {valid : Value → Prop} {encode : Value → Input}

/-- Decoding undoes encoding on every valid value. -/
theorem decode_encode (hexact : Exact decode valid encode) {value : Value} (hvalid : valid value) :
    decode (encode value) = .ok value :=
  (hexact.ok_iff _ _).mpr ⟨hvalid, rfl⟩

/-- Encoding undoes decoding on every accepted input. -/
theorem encode_of_ok (hexact : Exact decode valid encode) {input : Input} {value : Value}
    (hdecode : decode input = .ok value) : input = encode value :=
  ((hexact.ok_iff _ _).mp hdecode).2

theorem valid_of_ok (hexact : Exact decode valid encode) {input : Input} {value : Value}
    (hdecode : decode input = .ok value) : valid value :=
  ((hexact.ok_iff _ _).mp hdecode).1

/-- Two accepted inputs with the same decoded value are the same input. -/
theorem input_unique (hexact : Exact decode valid encode) {first second : Input} {value : Value}
    (hfirst : decode first = .ok value) (hsecond : decode second = .ok value) : first = second :=
  (hexact.encode_of_ok hfirst).trans (hexact.encode_of_ok hsecond).symm

/-- An input is accepted exactly when it is the encoding of some valid value. -/
theorem accepts_iff (hexact : Exact decode valid encode) (input : Input) :
    (∃ value, decode input = .ok value) ↔ ∃ value, valid value ∧ input = encode value :=
  exists_congr fun value ↦ hexact.ok_iff input value

end Exact

end Exactness

end SunriseEdgeLedger.Foundation
