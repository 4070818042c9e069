import Httpfs.S3.Upload.PrepareWrite
import Httpfs.S3.Upload.Requests
import Httpfs.Transition.Monitor

/-!
# The upload session as a concurrent program

Every call of `Write` (with the release of the claim it returns), `Finalize`
and `Abort` is one thread.  A step of a thread is one critical section under
`state_lock`, one request being sent, or one reply being looked at, so that
every interleaving the lock permits is a run.
-/

namespace Httpfs.S3.Upload

open Httpfs.Http
open Httpfs.Transition

/-- A call of the session's interface. -/
inductive Call
  | write (data : Bytes) (location : Nat)
  | finalize
  | abort
  deriving DecidableEq, Repr

/-- What runs after a part has been stored: the remaining parts of a write, or
the completion of a finalize. -/
inductive After
  | write (rest : List PreparedPart)
  | finalize
  deriving DecidableEq, Repr

/-- Who called `ReleaseOperation`: `WriteClaim::Finish`, the destructor of an
unfinished claim, or `FailOperation`. -/
inductive Releaser
  | finish
  | destroy
  | fail
  deriving DecidableEq, Repr

/-- Who owns the cleanup request. -/
inductive CleanupOwner
  | release (releaser : Releaser)
  | abort
  deriving DecidableEq, Repr

/-- How a call ended. -/
inductive CallResult
  | returned
  | destroyed
  | aborted (terminal : Bool)
  | threw (error : ErrorData)
  deriving DecidableEq, Repr

/-- Control points, named after the code about to run. -/
inductive Pc
  | start
  | prepareWrite
  | uploadParts (parts : List PreparedPart)
  | ensureUpload (part : PreparedPart) (after : After)
  | sendInitialize (part : PreparedPart) (after : After)
  | awaitInitialize (part : PreparedPart) (after : After)
  | publishUploadId (part : PreparedPart) (after : After) (uploadId : String)
  | publishFailure (failure : Failure)
  | checkPart (part : PreparedPart) (after : After) (uploadId : String)
  | sendPart (part : PreparedPart) (after : After) (uploadId : String)
  | awaitPart (part : PreparedPart) (after : After) (uploadId : String)
  | storeETag (part : PreparedPart) (after : After) (etag : String)
  | claimed
  | chooseUpload (buffered : Option BufferedPart)
  | sendSingle (body : Bytes)
  | awaitSingle (body : Bytes)
  | reserveFinal (buffered : BufferedPart)
  | checkCompletion
  | takeSnapshot
  | sendCompletion (uploadId : String) (etags : List String)
  | awaitCompletion (uploadId : String) (etags : List String)
  | finishFinalize
  | failOperation (failure : Failure)
  | releaseOperation (releaser : Releaser)
  | awaitCleanup (releaser : Releaser)
  | awaitOperations
  | awaitAbortCleanup
  | sendAbort (uploadId : String) (owner : CleanupOwner)
  | awaitAbort (uploadId : String) (owner : CleanupOwner)
  | publishCleanup (owner : CleanupOwner) (abortError : Option ErrorData)
  | done (result : CallResult)
  deriving DecidableEq, Repr

/-- What an observer of the session sees.  `prepared` and `reserved` record
which bytes the session took responsibility for, `raised` and `latched` an
exception being thrown and reaching the shared state; the rest are requests
with their bodies and the replies that matter. -/
inductive Event
  | prepared (location : Nat) (data : Bytes)
  | reserved (partNumber : Nat) (data : Bytes)
  | initializePost
  | initialized (uploadId : String)
  | partPut (partNumber : Nat) (uploadId : String) (body : Bytes)
  | partUploaded (partNumber : Nat) (uploadId : String) (body : Bytes) (etag : String)
  | singlePut (body : Bytes)
  | completionPost (uploadId : String) (etags : List String)
  | published
  | abortDelete (uploadId : String)
  | abortAnswered (abortError : Option ErrorData)
  | raised (disposition : FailureDisposition)
  | latched (error : ErrorData)
  deriving DecidableEq, Repr

/-- What the environment decides in a step: whether an allocation fails, the
reply to a request, and whether the caller finishes or destroys its claim. -/
structure Choice where
  allocation : Option ErrorData
  reply : Reply
  finishClaim : Bool

abbrev StepResult := Option (Monitor.Outcome Session Pc Event)

/-- Leave the critical section without touching `state_changed`. -/
def quietly (session : Session) (next : Pc) (events : List Event) : StepResult :=
  some (.advance session next events false)

/-- Leave the critical section after `notify_all`. -/
def notifying (session : Session) (next : Pc) (events : List Event) : StepResult :=
  some (.advance session next events true)

/-- An exception on the way to the catch block of `Write` or `Finalize`. -/
def raise (session : Session) (failure : Failure) : StepResult :=
  quietly session (.failOperation failure) [.raised failure.disposition]

/-- `ThrowFailure` for the latched failure inside an operation.  What is thrown
is a plain exception, so it is caught as definitive. -/
def raiseLatched (session : Session) : StepResult :=
  raise session (.definitive (throwFailure session.primaryFailure))

/-- `ThrowFailure` out of a call. -/
def throwLatched (session : Session) : StepResult :=
  quietly session (.done (.threw (throwFailure session.primaryFailure))) []

/-- An exception that leaves the call before it was admitted. -/
def reject (session : Session) (message : String) : StepResult :=
  quietly session (.done (.threw (.io message))) []

/-- New operations wait until the cleanup of a latched failure is complete. -/
def cleanupPending (session : Session) : Bool :=
  session.failed && decide (session.cleanupState ≠ .complete)

def beginWriteOperation (session : Session) : StepResult :=
  if cleanupPending session then
    some .wait
  else if session.failed then
    throwLatched session
  else
    match session.lifecycleState with
    | .aborting | .aborted => reject session "Cannot write to an aborted S3 upload"
    | .finalizing => reject session "Concurrent S3 upload operations are not supported"
    | .finalized => reject session "Cannot write to a finalized S3 upload"
    | .active =>
        quietly { session with activeOperations := session.activeOperations + 1 }
          .prepareWrite []

def prepareWrite (config : S3UploadConfig) (session : Session) (data : Bytes)
    (location : Nat) (allocation : Option ErrorData) : StepResult :=
  if session.nextOffset < location ∧ session.failed = false then
    some .wait
  else if session.failed then
    raiseLatched session
  else
    match (prepareWriteLocked config session data location allocation).val with
    | (next, .error error) => raise next (.definitive error)
    | (next, .ok parts) =>
        notifying next (.uploadParts parts)
          (.prepared location data ::
            parts.map fun part => .reserved part.partNumber part.data)

def throwIfFailed (session : Session) (next : Pc) : StepResult :=
  if session.failed then raiseLatched session else quietly session next []

/-- The loop of `Write` over its parts. -/
def uploadParts (session : Session) : List PreparedPart → StepResult
  | [] => quietly session .claimed []
  | part :: rest => throwIfFailed session (.ensureUpload part (.write rest))

def ensureMultipartUpload (session : Session) (part : PreparedPart) (after : After) :
    StepResult :=
  if session.initializationState = .inProgress ∧ session.failed = false then
    some .wait
  else if session.failed then
    raiseLatched session
  else
    match session.initializationState, session.multipartUploadId with
    | .succeeded, some uploadId => quietly session (.checkPart part after uploadId) []
    | .succeeded, none => raise session (.definitive
        (.internal "Attempted to dereference shared_ptr that is NULL!"))
    | .failed, _ => raiseLatched session
    | .notStarted, _ | .inProgress, _ =>
        quietly { session with initializationState := .inProgress }
          (.sendInitialize part after) []

/-- The reply to the initialization POST.  A failure is published before it is
rethrown. -/
def receiveInitialize (env : Env) (session : Session) (part : PreparedPart) (after : After)
    (reply : Reply) : StepResult :=
  match initializeMultipartUpload env reply with
  | .ok uploadId =>
      quietly session (.publishUploadId part after uploadId) [.initialized uploadId]
  | .error failure =>
      quietly session (.publishFailure failure) [.raised failure.disposition]

def publishUploadId (session : Session) (part : PreparedPart) (after : After)
    (uploadId : String) : StepResult :=
  let published := { session with
    multipartUploadId := some uploadId
    initializationState := .succeeded }
  if session.failed then
    let failure := Failure.definitive (throwFailure session.primaryFailure)
    notifying published (.failOperation failure) [.raised failure.disposition]
  else
    notifying published (.checkPart part after uploadId) []

def publishInitializationFailure (session : Session) (failure : Failure) : StepResult :=
  notifying
    (latchFailureLocked { session with initializationState := .failed }
      failure.error failure.disposition)
    (.failOperation failure) [.latched failure.error]

/-- The reply to a part PUT. -/
def receivePart (env : Env) (session : Session) (part : PreparedPart) (after : After)
    (uploadId : String) (reply : Reply) : StepResult :=
  match upload env reply with
  | .ok etag =>
      quietly session (.storeETag part after etag)
        [.partUploaded part.partNumber uploadId part.data etag]
  | .error error => raise session (.definitive error)

/-- Control point behind a stored part. -/
def afterPart : After → Pc
  | .write rest => .uploadParts rest
  | .finalize => .checkCompletion

def storePartETag (session : Session) (part : PreparedPart) (after : After)
    (etag : String) : StepResult :=
  if session.failed then
    raiseLatched session
  else
    quietly { session with partEtags := session.partEtags.set (part.partNumber - 1) etag }
      (afterPart after) []

def beginFinalize (session : Session) : StepResult :=
  if cleanupPending session then
    some .wait
  else if session.failed then
    throwLatched session
  else
    match session.lifecycleState with
    | .aborting | .aborted => reject session "Cannot finalize an aborted S3 upload"
    | .finalizing => reject session "Concurrent S3 upload operations are not supported"
    | .finalized =>
        if 0 < session.activeOperations then
          reject session "Concurrent S3 upload operations are not supported"
        else
          quietly session (.done .returned) []
    | .active =>
        if 0 < session.activeOperations then
          reject session "Concurrent S3 upload operations are not supported"
        else
          quietly { session with
              lifecycleState := .finalizing
              activeOperations := session.activeOperations + 1
              bufferedPart := none }
            (.chooseUpload session.bufferedPart) []

/-- The branch of `Finalize` between a single PUT and a multipart upload. -/
def chooseUpload (session : Session) (buffered : Option BufferedPart) : StepResult :=
  if session.partEtags.isEmpty then
    quietly session (.sendSingle (bufferedBytes buffered)) []
  else
    match buffered with
    | none => quietly session .checkCompletion []
    | some part => quietly session (.reserveFinal part) []

def receiveSingle (env : Env) (session : Session) (reply : Reply) : StepResult :=
  match upload env reply with
  | .ok _ => quietly session .finishFinalize [.published]
  | .error error => raise session (.definitive error)

/-- `ReservePart` for the buffer a finalize took over. -/
def reserveFinal (config : S3UploadConfig) (session : Session) (buffered : BufferedPart) :
    StepResult :=
  match (reservePart config ⟨session.partEtags, [], none⟩ buffered.bytes).val with
  | .error error => raise session (.definitive error)
  | .ok reserving =>
      match reserving.parts with
      | [] => raise session (.definitive
          (.internal "Attempted to access index 0 within vector of size 0"))
      | part :: _ =>
          quietly { session with partEtags := reserving.partEtags }
            (.ensureUpload part .finalize) [.reserved part.partNumber part.data]

def getMultipartSnapshot (session : Session) : StepResult :=
  if session.partEtags.any fun etag => etag = "" then
    raise session (.definitive (.io "S3 multipart upload is missing a completed part"))
  else
    match session.multipartUploadId with
    | some uploadId => quietly session (.sendCompletion uploadId session.partEtags) []
    | none => raise session (.definitive
        (.internal "Attempted to dereference shared_ptr that is NULL!"))

def receiveCompletion (env : Env) (session : Session) (reply : Reply) : StepResult :=
  match completeMultipartUpload env reply with
  | .ok () => quietly session .finishFinalize [.published]
  | .error failure => raise session failure

def finishFinalize (session : Session) : StepResult :=
  notifying { session with
      activeOperations := session.activeOperations - 1
      lifecycleState := .finalized }
    (.done .returned) []

def failOperation (session : Session) (failure : Failure) : StepResult :=
  notifying (latchFailureLocked session failure.error failure.disposition)
    (.releaseOperation .fail) [.latched failure.error]

/-- How a call ends whose release met no failure.  `FailOperation` never gets
here: it has latched a failure before. -/
def releasedResult : Releaser → CallResult
  | .finish => .returned
  | .destroy => .destroyed
  | .fail => .threw (.internal "Failed S3 operation did not rethrow its error")

/-- How a call ends whose release threw `error`; a destructor swallows it. -/
def failedResult (error : ErrorData) : Releaser → CallResult
  | .finish | .fail => .threw error
  | .destroy => .destroyed

/-- The end of `ReleaseOperation` once the cleanup is complete. -/
def throwReleased (session : Session) (releaser : Releaser) (notify : Bool) : StepResult :=
  some (.advance session
    (.done (failedResult (throwFailure session.primaryFailure) releaser)) [] notify)

/-- `ReleaseOperation`: the operation that leaves last after a failure owns the
cleanup, unless there is nothing that may be aborted. -/
def releaseOperation (session : Session) (releaser : Releaser) : StepResult :=
  let released := { session with activeOperations := session.activeOperations - 1 }
  if session.failed = false then
    notifying released (.done (releasedResult releaser)) []
  else if released.activeOperations = 0 ∧ session.cleanupState = .none then
    if session.failureDisposition = .definitive ∧ session.abortSuppressed = false then
      match session.multipartUploadId with
      | some uploadId =>
          notifying { released with cleanupState := .inProgress }
            (.sendAbort uploadId (.release releaser)) []
      | none => throwReleased { released with cleanupState := .complete } releaser true
    else
      throwReleased { released with cleanupState := .complete } releaser true
  else if session.cleanupState = .complete then
    throwReleased released releaser true
  else
    notifying released (.awaitCleanup releaser) []

def awaitCleanup (session : Session) (releaser : Releaser) : StepResult :=
  if session.cleanupState = .complete then
    throwReleased session releaser false
  else
    some .wait

/-- The second half of `Abort`'s critical section, entered once no operation is
active. -/
def abortIdle (session : Session) : StepResult :=
  let discarded := { session with bufferedPart := none }
  if session.failed then
    if session.cleanupState = .complete then
      notifying { discarded with lifecycleState := .aborted }
        (.done (.threw (throwFailure session.primaryFailure))) []
    else
      quietly discarded .awaitAbortCleanup []
  else
    match session.multipartUploadId, session.abortSuppressed with
    | some uploadId, false =>
        quietly { discarded with cleanupState := .inProgress }
          (.sendAbort uploadId .abort) []
    | _, _ =>
        notifying { discarded with cleanupState := .complete, lifecycleState := .aborted }
          (.done (.aborted true)) []

def awaitOperations (session : Session) : StepResult :=
  if 0 < session.activeOperations then some .wait else abortIdle session

def beginAbort (session : Session) : StepResult :=
  match session.lifecycleState with
  | .finalizing | .aborting => some .wait
  | .finalized => quietly session (.done (.aborted false)) []
  | .aborted => quietly session (.done (.aborted true)) []
  | .active =>
      let aborting := { session with lifecycleState := .aborting }
      if 0 < session.activeOperations then
        quietly aborting .awaitOperations []
      else
        abortIdle aborting

def awaitAbortCleanup (session : Session) : StepResult :=
  if session.cleanupState = .complete then
    notifying { session with lifecycleState := .aborted }
      (.done (.threw (throwFailure session.primaryFailure))) []
  else
    some .wait

/-- How an `Abort` ends that sent the cleanup request itself. -/
def abortResult : Option ErrorData → CallResult
  | none => .aborted true
  | some error => .threw error

/-- The critical section behind the cleanup request. -/
def publishCleanup (session : Session) (owner : CleanupOwner)
    (abortError : Option ErrorData) : StepResult :=
  match owner with
  | .release releaser =>
      throwReleased { session with
        primaryFailure := { session.primaryFailure with
          abortError := session.primaryFailure.abortError.or abortError }
        cleanupState := .complete } releaser true
  | .abort =>
      notifying { session with cleanupState := .complete, lifecycleState := .aborted }
        (.done (abortResult abortError)) []

/-- The first critical section of a call. -/
def beginCall (session : Session) : Call → StepResult
  | .write _ _ => beginWriteOperation session
  | .finalize => beginFinalize session
  | .abort => beginAbort session

/-- `PrepareWrite` belongs to writes only. -/
def prepareCall (config : S3UploadConfig) (session : Session) (allocation : Option ErrorData) :
    Call → StepResult
  | .write data location => prepareWrite config session data location allocation
  | .finalize | .abort => none

/-- One step of a call. -/
def callStep (env : Env) (call : Call) (session : Session) (pc : Pc) (choice : Choice) :
    StepResult :=
  match pc with
  | .start => beginCall session call
  | .prepareWrite => prepareCall env.config session choice.allocation call
  | .uploadParts parts => uploadParts session parts
  | .ensureUpload part after => ensureMultipartUpload session part after
  | .sendInitialize part after =>
      quietly session (.awaitInitialize part after) [.initializePost]
  | .awaitInitialize part after => receiveInitialize env session part after choice.reply
  | .publishUploadId part after uploadId => publishUploadId session part after uploadId
  | .publishFailure failure => publishInitializationFailure session failure
  | .checkPart part after uploadId => throwIfFailed session (.sendPart part after uploadId)
  | .sendPart part after uploadId =>
      quietly session (.awaitPart part after uploadId)
        [.partPut part.partNumber uploadId part.data]
  | .awaitPart part after uploadId => receivePart env session part after uploadId choice.reply
  | .storeETag part after etag => storePartETag session part after etag
  | .claimed =>
      quietly session
        (.releaseOperation (if choice.finishClaim then .finish else .destroy)) []
  | .chooseUpload buffered => chooseUpload session buffered
  | .sendSingle body => quietly session (.awaitSingle body) [.singlePut body]
  | .awaitSingle _ => receiveSingle env session choice.reply
  | .reserveFinal buffered => reserveFinal env.config session buffered
  | .checkCompletion => throwIfFailed session .takeSnapshot
  | .takeSnapshot => getMultipartSnapshot session
  | .sendCompletion uploadId etags =>
      quietly session (.awaitCompletion uploadId etags) [.completionPost uploadId etags]
  | .awaitCompletion _ _ => receiveCompletion env session choice.reply
  | .finishFinalize => finishFinalize session
  | .failOperation failure => failOperation session failure
  | .releaseOperation releaser => releaseOperation session releaser
  | .awaitCleanup releaser => awaitCleanup session releaser
  | .awaitOperations => awaitOperations session
  | .awaitAbortCleanup => awaitAbortCleanup session
  | .sendAbort uploadId owner =>
      quietly session (.awaitAbort uploadId owner) [.abortDelete uploadId]
  | .awaitAbort _ owner =>
      let abortError := abortMultipartUpload env choice.reply
      quietly session (.publishCleanup owner abortError) [.abortAnswered abortError]
  | .publishCleanup owner abortError => publishCleanup session owner abortError
  | .done _ => none

end Httpfs.S3.Upload
