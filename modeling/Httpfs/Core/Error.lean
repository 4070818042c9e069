import Mathlib.Tactic.Common

/-!
# Errors as data

`ErrorData` is the value form of an exception: its type, its raw message and
the extra information attached to it.  A thrown C++ exception is an `Except`
error carrying this value.
-/

namespace Httpfs

universe u v

/-- The exception types the modelled code throws or inspects. -/
inductive ExceptionType
  | io
  | http
  | invalidInput
  | outOfMemory
  | internal
  | other (name : String)
  deriving DecidableEq, Repr

/-- `ErrorData`: an exception held as a value. -/
structure ErrorData where
  extraInfo : List (String × String)
  type : ExceptionType
  rawMessage : String
  deriving DecidableEq, Repr

namespace ErrorData

/-- `IOException(message)`. -/
def io (message : String) : ErrorData :=
  ⟨[], .io, message⟩

/-- `HTTPException(message)` thrown without a response. -/
def http (message : String) : ErrorData :=
  ⟨[], .http, message⟩

/-- `InvalidInputException(message)`. -/
def invalidInput (message : String) : ErrorData :=
  ⟨[], .invalidInput, message⟩

/-- `InternalException(message)`. -/
def internal (message : String) : ErrorData :=
  ⟨[], .internal, message⟩

end ErrorData

/-- A sequence of two fallible steps succeeds exactly if both do. -/
theorem bind_eq_ok_iff {ε : Type u} {α β : Type v} {first : Except ε α} {next : α → Except ε β}
    {result : β} :
    (first >>= next) = .ok result ↔ ∃ value, first = .ok value ∧ next value = .ok result := by
  cases first with
  | error error =>
      constructor
      · intro impossible
        contradiction
      · rintro ⟨value, impossible, _⟩
        contradiction
  | ok value =>
      constructor
      · exact fun continues => ⟨value, rfl, continues⟩
      · rintro ⟨_, ⟨⟩, continues⟩
        exact continues

end Httpfs
