import Httpfs.S3.Upload.Program

/-!
# A file handle over its upload session

`S3FileHandle` owns the upload session.  Writes and finalizes use it under an
`UploadClaim`, an abort uses it between two critical sections of the handle's
own lock.  A thread is one call of `S3FileSystem::Write`, of `FinalizeUpload`
(which is what `Close` and `FileSync` do) or of `AbortUpload`; the steps it
takes inside the session are those of the session's program.

The handle and its session have a condition variable each.  Here a
notification of either wakes all threads: a thread woken for nothing checks
its condition again.
-/

namespace Httpfs.S3.Handle

open Httpfs.S3.Upload (Bytes Call CallResult Choice Env Pc Session callStep)
open Httpfs.Transition.Monitor

/-! ## State -/

inductive UploadState
  | active
  | aborting
  | aborted
  deriving DecidableEq, Repr

/-- What a handle keeps for its upload.  `uploadSession` says whether the
pointer is set; `session` is the object it was set to, for as long as the
object exists. -/
structure S3FileHandle where
  uploadState : UploadState
  activeUploadCalls : Nat
  uploadSession : Bool
  session : Option Session
  fileOffset : Nat
  length : Nat

namespace S3FileHandle

/-- A handle as its constructor leaves it: only one that is opened for writing
has a session. -/
def opened (openForWriting : Bool) : S3FileHandle where
  uploadState := .active
  activeUploadCalls := 0
  uploadSession := openForWriting
  session := if openForWriting then some .initial else none
  fileOffset := 0
  length := 0

/-- The cursor behind a write. -/
def advanceCursor (handle : S3FileHandle) (writeEnd : Nat) : S3FileHandle :=
  { handle with
    fileOffset := max handle.fileOffset writeEnd
    length := max handle.length writeEnd }

end S3FileHandle

/-- The calls on a handle. -/
inductive Operation
  | write (buffer : Bytes) (nrBytes : Int) (location : Nat)
  | finalizeUpload
  | abortUpload
  deriving DecidableEq, Repr

namespace Operation

/-- The call of the session's interface an operation makes. -/
def call : Operation → Call
  | .write buffer nrBytes location => .write (buffer.take nrBytes.toNat) location
  | .finalizeUpload => .finalize
  | .abortUpload => .abort

/-- The last location a write touches, and one more. -/
def writeEnd : Operation → Nat
  | .write _ nrBytes location => (Word64.add location nrBytes.toNat).val
  | .finalizeUpload | .abortUpload => 0

end Operation

/-- How a call on the handle ended. -/
inductive HandleResult
  | returned
  | threw (error : ErrorData)
  deriving DecidableEq, Repr

/-- Control points, named after the code about to run. -/
inductive Control
  | idle
  | claimUpload
  | claimed (pc : Pc)
  | releaseUpload (result : CallResult)
  | beginAbort
  | aborting (pc : Pc)
  | endAbort (result : CallResult)
  | resetSession (result : CallResult)
  | done (result : HandleResult)
  deriving DecidableEq, Repr

/-- What happens to a handle.  `granted` and `released` bound the life of an
`UploadClaim`, `aborting` and `abortLeft` the time in which the state of the
upload is `ABORTING`. -/
inductive Event
  | begun
  | granted
  | refused
  | released
  | aborting
  | abortLeft (terminal : Bool)
  | destroyed
  | session (event : Upload.Event)
  deriving DecidableEq, Repr

abbrev StepResult := Option (Outcome S3FileHandle Control Event)

/-! ## Critical sections -/

/-- Leave the critical section without touching `upload_state_changed`. -/
def quietly (handle : S3FileHandle) (next : Control) (events : List Event) : StepResult :=
  some (.advance handle next events false)

/-- The checks of an operation before it takes the lock. -/
def beginOperation (openForWriting : Bool) (handle : S3FileHandle) : Operation → StepResult
  | .write _ nrBytes _ =>
      if !openForWriting then
        quietly handle (.done (.threw (.internal "Write called on file not opened in write mode")))
          [.begun]
      else if nrBytes < 0 then
        quietly handle (.done (.threw (.internal "S3 write size cannot be negative"))) [.begun]
      else
        quietly handle .claimUpload [.begun]
  | .finalizeUpload => quietly handle .claimUpload [.begun]
  | .abortUpload => quietly handle .beginAbort [.begun]

/-- Why `ClaimUpload` refuses an upload that is not active. -/
def refusal : Operation → ErrorData
  | .write _ _ _ => .io "Cannot write to an aborted S3 upload"
  | .finalizeUpload | .abortUpload => .io "Cannot finalize an aborted S3 upload"

/-- What becomes of an operation whose claim would be empty. -/
def withoutSession : Operation → HandleResult
  | .write _ _ _ => .threw (.internal "S3 write handle has no upload session")
  | .finalizeUpload | .abortUpload => .returned

def claimUpload (operation : Operation) (handle : S3FileHandle) : StepResult :=
  if handle.uploadState ≠ .active then
    quietly handle (.done (.threw (refusal operation))) [.refused]
  else if !handle.uploadSession then
    quietly handle (.done (withoutSession operation)) []
  else
    quietly { handle with activeUploadCalls := handle.activeUploadCalls + 1 }
      (.claimed .start) [.granted]

/-- Control point behind a step of the session under a claim. -/
def underClaim : Pc → Control
  | .done result => .releaseUpload result
  | pc => .claimed pc

/-- Control point behind a step of `S3UploadSession::Abort`. -/
def underAbort : Pc → Control
  | .done result => .endAbort result
  | pc => .aborting pc

/-- One step inside the session.  There is none once it is destroyed.  A write
never drops the claim it is given without finishing it. -/
def sessionStep (env : Env) (call : Call) (handle : S3FileHandle) (pc : Pc) (choice : Choice)
    (onward : Pc → Control) : StepResult :=
  match handle.session with
  | none => none
  | some session =>
      match callStep env call session pc { choice with finishClaim := true } with
      | none => none
      | some .wait => some .wait
      | some (.advance next here events notify) =>
          some (.advance { handle with session := some next } (onward here)
            (events.map .session) notify)

/-- A write moves the cursor between `Write` and `Finish` of its session. -/
def moveCursor (operation : Operation) (handle : S3FileHandle) : Pc → S3FileHandle
  | .claimed => handle.advanceCursor operation.writeEnd
  | _ => handle

/-- How an operation ends whose session call ended like this. -/
def handleResult : CallResult → HandleResult
  | .threw error => .threw error
  | .returned | .destroyed | .aborted _ => .returned

def releaseUpload (handle : S3FileHandle) (result : CallResult) : StepResult :=
  let calls := handle.activeUploadCalls - 1
  some (.advance { handle with activeUploadCalls := calls } (.done (handleResult result))
    [.released] (decide (calls = 0)))

def beginAbort (handle : S3FileHandle) : StepResult :=
  match handle.uploadState with
  | .aborting => some .wait
  | .aborted => quietly handle (.done .returned) []
  | .active =>
      if !handle.uploadSession then quietly handle (.done .returned) []
      else quietly { handle with uploadState := .aborting } (.aborting .start) [.aborting]

/-- The second critical section of `AbortUpload`.  Only `false` from
`S3UploadSession::Abort` is not terminal; an exception is. -/
def endAbort (handle : S3FileHandle) (result : CallResult) : StepResult :=
  if result = .aborted false then
    some (.advance { handle with uploadState := .active } (.done .returned)
      [.abortLeft false] true)
  else if 0 < handle.activeUploadCalls then
    some .wait
  else
    some (.advance { handle with uploadSession := false, uploadState := .aborted }
      (.resetSession result) [.abortLeft true] true)

/-- The detached session is destroyed outside the lock. -/
def resetSession (handle : S3FileHandle) (result : CallResult) : StepResult :=
  quietly { handle with session := none } (.done (handleResult result)) [.destroyed]

/-- One step of a call on the handle. -/
def handleStep (env : Env) (openForWriting : Bool) (operation : Operation)
    (handle : S3FileHandle) (control : Control) (choice : Choice) : StepResult :=
  match control with
  | .idle => beginOperation openForWriting handle operation
  | .claimUpload => claimUpload operation handle
  | .claimed pc =>
      sessionStep env operation.call (moveCursor operation handle pc) pc choice underClaim
  | .releaseUpload result => releaseUpload handle result
  | .beginAbort => beginAbort handle
  | .aborting pc => sessionStep env operation.call handle pc choice underAbort
  | .endAbort result => endAbort handle result
  | .resetSession result => resetSession handle result
  | .done _ => none

/-! ## What one step can do -/

/-- The advances of a call on a handle. -/
inductive Transition (env : Env) (operation : Operation) :
    S3FileHandle → Control → S3FileHandle → Control → List Event → Bool → Prop
  | reject {handle error} (writes : operation ≠ .finalizeUpload)
      (claims : operation ≠ .abortUpload) :
      Transition env operation handle .idle handle (.done (.threw error)) [.begun] false
  | begin {handle} (claims : operation ≠ .abortUpload) :
      Transition env operation handle .idle handle .claimUpload [.begun] false
  | beginAbortUpload {handle} (aborts : operation = .abortUpload) :
      Transition env operation handle .idle handle .beginAbort [.begun] false
  | refuse {handle} (inactive : handle.uploadState ≠ .active) :
      Transition env operation handle .claimUpload handle
        (.done (.threw (refusal operation))) [.refused] false
  | noSession {handle} (active : handle.uploadState = .active)
      (absent : handle.uploadSession = false) :
      Transition env operation handle .claimUpload handle
        (.done (withoutSession operation)) [] false
  | claim {handle} (active : handle.uploadState = .active)
      (present : handle.uploadSession = true) :
      Transition env operation handle .claimUpload
        { handle with activeUploadCalls := handle.activeUploadCalls + 1 }
        (.claimed .start) [.granted] false
  | call {handle pc choice session next here events notify offset length}
      (alive : handle.session = some session)
      (steps : callStep env operation.call session pc choice =
        some (.advance next here events notify)) :
      Transition env operation handle (.claimed pc)
        { handle with session := some next, fileOffset := offset, length := length }
        (underClaim here) (events.map .session) notify
  | release {handle result notify} :
      Transition env operation handle (.releaseUpload result)
        { handle with activeUploadCalls := handle.activeUploadCalls - 1 }
        (.done (handleResult result)) [.released] notify
  | nothingToAbort {handle} (nothing : handle.uploadState = .aborted ∨
        handle.uploadSession = false) :
      Transition env operation handle .beginAbort handle (.done .returned) [] false
  | startAbort {handle} (active : handle.uploadState = .active)
      (present : handle.uploadSession = true) :
      Transition env operation handle .beginAbort { handle with uploadState := .aborting }
        (.aborting .start) [.aborting] false
  | abortCall {handle pc choice session next here events notify}
      (alive : handle.session = some session)
      (steps : callStep env operation.call session pc choice =
        some (.advance next here events notify)) :
      Transition env operation handle (.aborting pc) { handle with session := some next }
        (underAbort here) (events.map .session) notify
  | keepSession {handle} :
      Transition env operation handle (.endAbort (.aborted false))
        { handle with uploadState := .active } (.done .returned) [.abortLeft false] true
  | detach {handle result} (terminal : result ≠ .aborted false)
      (unused : handle.activeUploadCalls = 0) :
      Transition env operation handle (.endAbort result)
        { handle with uploadSession := false, uploadState := .aborted }
        (.resetSession result) [.abortLeft true] true
  | reset {handle result} :
      Transition env operation handle (.resetSession result) { handle with session := none }
        (.done (handleResult result)) [.destroyed] false

section Steps

variable {env : Env} {openForWriting : Bool} {operation : Operation}
  {handle next : S3FileHandle} {control here : Control} {choice : Choice}
  {events : List Event} {notify : Bool}

theorem moveCursor_eq (operation : Operation) (handle : S3FileHandle) (pc : Pc) :
    ∃ offset length,
      moveCursor operation handle pc = { handle with fileOffset := offset, length := length } := by
  cases pc <;> exact ⟨_, _, rfl⟩

/-- An advance inside the session is an advance of the session's call. -/
theorem sessionStep_advance {call : Call} {pc : Pc} {onward : Pc → Control}
    (steps : sessionStep env call handle pc choice onward =
      some (.advance next here events notify)) :
    ∃ session changed target emitted, handle.session = some session ∧
      callStep env call session pc { choice with finishClaim := true } =
        some (.advance changed target emitted notify) ∧
      next = { handle with session := some changed } ∧ here = onward target ∧
      events = emitted.map .session := by
  unfold sessionStep at steps
  split at steps
  · contradiction
  · rename_i session alive
    split at steps
    · contradiction
    · cases steps
    · rename_i changed target emitted notified advances
      cases steps
      exact ⟨session, changed, target, emitted, alive, advances, rfl, rfl, rfl⟩

/-- Every advance of a call is one of the listed transitions. -/
theorem transition_of_handleStep
    (steps : handleStep env openForWriting operation handle control choice =
      some (.advance next here events notify)) :
    Transition env operation handle control next here events notify := by
  cases control with
  | idle =>
      cases operation with
      | write buffer nrBytes location =>
          rw [handleStep, beginOperation] at steps
          split at steps
          · cases steps
            exact .reject (by simp) (by simp)
          · split at steps
            · cases steps
              exact .reject (by simp) (by simp)
            · cases steps
              exact .begin (by simp)
      | finalizeUpload =>
          cases steps
          exact .begin (by simp)
      | abortUpload =>
          cases steps
          exact .beginAbortUpload rfl
  | claimUpload =>
      rw [handleStep, claimUpload] at steps
      split at steps
      · rename_i inactive
        cases steps
        exact .refuse inactive
      · rename_i active
        split at steps
        · rename_i absent
          cases steps
          exact .noSession (not_not.mp active) (by simpa using absent)
        · rename_i present
          cases steps
          exact .claim (not_not.mp active) (by simpa using present)
  | claimed pc =>
      rcases sessionStep_advance steps with
        ⟨session, changed, target, emitted, alive, advances, rfl, rfl, rfl⟩
      rcases moveCursor_eq operation handle pc with ⟨offset, length, moved⟩
      rw [moved] at alive ⊢
      exact .call alive advances
  | releaseUpload result =>
      cases steps
      exact .release
  | beginAbort =>
      rw [handleStep, beginAbort] at steps
      split at steps
      · cases steps
      · rename_i aborted
        cases steps
        exact .nothingToAbort (Or.inl aborted)
      · rename_i active
        split at steps
        · rename_i absent
          cases steps
          exact .nothingToAbort (Or.inr (by simpa using absent))
        · rename_i present
          cases steps
          exact .startAbort active (by simpa using present)
  | aborting pc =>
      rcases sessionStep_advance steps with
        ⟨session, changed, target, emitted, alive, advances, rfl, rfl, rfl⟩
      exact .abortCall alive advances
  | endAbort result =>
      rw [handleStep, endAbort] at steps
      split at steps
      · rename_i unfinished
        cases steps
        rw [unfinished]
        exact .keepSession
      · rename_i terminal
        split at steps
        · cases steps
        · rename_i unused
          cases steps
          exact .detach terminal (Nat.eq_zero_of_not_pos unused)
  | resetSession result =>
      cases steps
      exact .reset
  | done result => contradiction

/-- A call that has not begun, or that is over, does not wait. -/
theorem handleStep_wait
    (waits : handleStep env openForWriting operation handle control choice = some .wait) :
    control ≠ .idle := by
  rintro rfl
  cases operation with
  | write buffer nrBytes location =>
      rw [handleStep, beginOperation] at waits
      split at waits
      · cases waits
      · split at waits
        · cases waits
        · cases waits
  | finalizeUpload | abortUpload => cases waits

end Steps

end Httpfs.S3.Handle
