import Httpfs.S3.UploadConfig

/-!
# State of an upload session

The fields of `S3UploadSession` guarded by its `state_lock`, the values that
travel between its critical sections, and the two functions every failure
passes through.
-/

namespace Httpfs.S3.Upload

open Httpfs.Word64

/-- Object data. -/
abbrev Bytes := List UInt8

inductive LifecycleState
  | active
  | finalizing
  | finalized
  | aborting
  | aborted
  deriving DecidableEq, Repr

inductive InitializationState
  | notStarted
  | inProgress
  | succeeded
  | failed
  deriving DecidableEq, Repr

inductive CleanupState
  | none
  | inProgress
  | complete
  deriving DecidableEq, Repr

inductive FailureDisposition
  | definitive
  | ambiguous
  deriving DecidableEq, Repr

/-- `FailureSnapshot`: the latched error and the error of its cleanup. -/
structure FailureSnapshot where
  primaryError : Option ErrorData
  abortError : Option ErrorData
  deriving DecidableEq, Repr

/-- `BufferedPart`: an allocation of `capacity` bytes whose first bytes are
filled.  More bytes than the capacity cannot be represented. -/
structure BufferedPart where
  capacity : Nat
  bytes : Bytes
  size_le : bytes.length ≤ capacity
  deriving DecidableEq, Repr

namespace BufferedPart

def size (part : BufferedPart) : Nat :=
  part.bytes.length

/-- A fresh allocation holds nothing yet. -/
def allocate (capacity : Nat) : BufferedPart :=
  ⟨capacity, [], Nat.zero_le _⟩

end BufferedPart

/-- Bytes held by an optional buffer. -/
def bufferedBytes (part : Option BufferedPart) : Bytes :=
  (part.map BufferedPart.bytes).getD []

@[simp]
theorem bufferedBytes_none : bufferedBytes none = [] :=
  rfl

@[simp]
theorem bufferedBytes_some (part : BufferedPart) :
    bufferedBytes (some part) = part.bytes :=
  rfl

/-- `PreparedPart`: a reserved part number and the bytes to upload under it,
whether they lie in the caller's memory or in a moved buffer. -/
structure PreparedPart where
  partNumber : Nat
  data : Bytes
  deriving DecidableEq, Repr

/-- The fields guarded by `state_lock`. -/
structure Session where
  lifecycleState : LifecycleState
  activeOperations : Nat
  nextOffset : Nat
  bufferedPart : Option BufferedPart
  initializationState : InitializationState
  multipartUploadId : Option String
  partEtags : List String
  primaryFailure : FailureSnapshot
  failureDisposition : FailureDisposition
  abortSuppressed : Bool
  cleanupState : CleanupState
  deriving DecidableEq, Repr

namespace Session

/-- A session as its constructor leaves it. -/
def initial : Session where
  lifecycleState := .active
  activeOperations := 0
  nextOffset := 0
  bufferedPart := none
  initializationState := .notStarted
  multipartUploadId := none
  partEtags := []
  primaryFailure := ⟨none, none⟩
  failureDisposition := .definitive
  abortSuppressed := false
  cleanupState := .none

/-- A primary failure has been latched. -/
def failed (session : Session) : Bool :=
  session.primaryFailure.primaryError.isSome

end Session

/-- The exception `ThrowFailure` raises for a captured snapshot. -/
def throwFailure (failure : FailureSnapshot) : ErrorData :=
  match failure.primaryError, failure.abortError with
  | some primary, none => primary
  | some primary, some abort =>
      ⟨primary.extraInfo, primary.type,
        primary.rawMessage ++ "\n\nAdditionally, " ++ abort.rawMessage⟩
  | none, _ => .internal "Attempted to dereference shared_ptr that is NULL!"

/-- `LatchFailureLocked`: the first error wins, an ambiguous failure of any
operation suppresses the abort, and a finalize falls back to `active`. -/
def latchFailureLocked (session : Session) (error : ErrorData)
    (disposition : FailureDisposition) : Session :=
  { session with
    primaryFailure :=
      if session.failed then session.primaryFailure
      else { session.primaryFailure with primaryError := some error }
    failureDisposition :=
      if session.failed then session.failureDisposition else disposition
    abortSuppressed :=
      session.abortSuppressed || decide (disposition = .ambiguous)
    lifecycleState :=
      if session.lifecycleState = .finalizing then .active
      else session.lifecycleState }

end Httpfs.S3.Upload
