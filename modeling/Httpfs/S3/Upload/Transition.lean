import Httpfs.S3.Upload.Program
import Httpfs.S3.Upload.Split

/-!
# What one step of a call can do

`Transition` lists the advances of a call, one constructor per branch of the
code, with the guards that led there.  Every invariant of the session is
proved from this list, never by unfolding the program again.
-/

namespace Httpfs.S3.Upload

open Httpfs.Http
open Httpfs.Transition

/-- Control points at which an exception reaches the catch block of the call
with the session unchanged. -/
def Pc.canRaise : Pc → Bool
  | .prepareWrite | .uploadParts _ | .ensureUpload _ _ | .checkPart _ _ _ | .awaitPart _ _ _
  | .storeETag _ _ _ | .awaitSingle _ | .reserveFinal _ | .checkCompletion | .takeSnapshot
  | .awaitCompletion _ _ => true
  | _ => false

/-- The advances of a call.  An `Abort` of an idle session takes two of them in
one critical section. -/
inductive Transition (env : Env) :
    Call → Session → Pc → Session → Pc → List Event → Bool → Prop
  | throwLatched {call session} (operation : call ≠ .abort)
      (failed : session.failed = true) (complete : session.cleanupState = .complete) :
      Transition env call session .start session
        (.done (.threw (throwFailure session.primaryFailure))) [] false
  | reject {call session message} (operation : call ≠ .abort)
      (healthy : session.failed = false)
      (refused : session.lifecycleState ≠ .active ∨
        (call = .finalize ∧ 0 < session.activeOperations)) :
      Transition env call session .start session (.done (.threw (.io message))) [] false
  | beginWrite {data location session} (healthy : session.failed = false)
      (active : session.lifecycleState = .active) :
      Transition env (.write data location) session .start
        { session with activeOperations := session.activeOperations + 1 } .prepareWrite [] false
  | alreadyFinalized {session} (healthy : session.failed = false)
      (finalized : session.lifecycleState = .finalized)
      (idle : session.activeOperations = 0) :
      Transition env .finalize session .start session (.done .returned) [] false
  | beginFinalize {session} (healthy : session.failed = false)
      (active : session.lifecycleState = .active) (idle : session.activeOperations = 0) :
      Transition env .finalize session .start
        { session with
          lifecycleState := .finalizing
          activeOperations := session.activeOperations + 1
          bufferedPart := none }
        (.chooseUpload session.bufferedPart) [] false
  | raise {call session pc failure} (raises : pc.canRaise = true) :
      Transition env call session pc session (.failOperation failure)
        [.raised failure.disposition] false
  | prepareFailed {data location session allocation count buffered offset error}
      (healthy : session.failed = false) (due : location ≤ session.nextOffset)
      (stopped : (prepareWriteLocked env.config session data location allocation).val =
        ({ session with
          partEtags := session.partEtags ++ List.replicate count ""
          bufferedPart := buffered
          nextOffset := offset }, .error error)) :
      Transition env (.write data location) session .prepareWrite
        { session with
          partEtags := session.partEtags ++ List.replicate count ""
          bufferedPart := buffered
          nextOffset := offset }
        (.failOperation (.definitive error)) [.raised .definitive] false
  | prepared {data location session allocation count buffered offset parts}
      (healthy : session.failed = false) (placed : location = session.nextOffset)
      (numbers : parts.map PreparedPart.partNumber =
        List.range' (session.partEtags.length + 1) count)
      (split : (prepareWriteLocked env.config session data location allocation).val =
        ({ session with
          partEtags := session.partEtags ++ List.replicate count ""
          bufferedPart := buffered
          nextOffset := offset }, .ok parts)) :
      Transition env (.write data location) session .prepareWrite
        { session with
          partEtags := session.partEtags ++ List.replicate count ""
          bufferedPart := buffered
          nextOffset := offset }
        (.uploadParts parts)
        (.prepared location data ::
          parts.map fun part => .reserved part.partNumber part.data) true
  | claim {call session} :
      Transition env call session (.uploadParts []) session .claimed [] false
  | startPart {call session part rest} (healthy : session.failed = false) :
      Transition env call session (.uploadParts (part :: rest)) session
        (.ensureUpload part (.write rest)) [] false
  | reuseUpload {call session part after uploadId} (healthy : session.failed = false)
      (known : session.multipartUploadId = some uploadId) :
      Transition env call session (.ensureUpload part after) session
        (.checkPart part after uploadId) [] false
  | becomeInitializer {call session part after} (healthy : session.failed = false)
      (fresh : session.initializationState = .notStarted) :
      Transition env call session (.ensureUpload part after)
        { session with initializationState := .inProgress } (.sendInitialize part after) [] false
  | sendInitialize {call session part after} :
      Transition env call session (.sendInitialize part after) session
        (.awaitInitialize part after) [.initializePost] false
  | initialized {call session part after uploadId} :
      Transition env call session (.awaitInitialize part after) session
        (.publishUploadId part after uploadId) [.initialized uploadId] false
  | initializeFailed {call session part after failure} :
      Transition env call session (.awaitInitialize part after) session
        (.publishFailure failure) [.raised failure.disposition] false
  | publishUploadId {call session part after uploadId} (healthy : session.failed = false) :
      Transition env call session (.publishUploadId part after uploadId)
        { session with
          multipartUploadId := some uploadId
          initializationState := .succeeded }
        (.checkPart part after uploadId) [] true
  | publishUploadIdLate {call session part after uploadId} (failed : session.failed = true) :
      Transition env call session (.publishUploadId part after uploadId)
        { session with
          multipartUploadId := some uploadId
          initializationState := .succeeded }
        (.failOperation (.definitive (throwFailure session.primaryFailure)))
        [.raised .definitive] true
  | publishFailure {call session failure} :
      Transition env call session (.publishFailure failure)
        (latchFailureLocked { session with initializationState := .failed }
          failure.error failure.disposition)
        (.failOperation failure) [.latched failure.error] true
  | checkedPart {call session part after uploadId} (healthy : session.failed = false) :
      Transition env call session (.checkPart part after uploadId) session
        (.sendPart part after uploadId) [] false
  | sendPart {call session part after uploadId} :
      Transition env call session (.sendPart part after uploadId) session
        (.awaitPart part after uploadId) [.partPut part.partNumber uploadId part.data] false
  | partUploaded {call session part after uploadId etag} :
      Transition env call session (.awaitPart part after uploadId) session
        (.storeETag part after etag)
        [.partUploaded part.partNumber uploadId part.data etag] false
  | storeETag {call session part rest etag} (healthy : session.failed = false) :
      Transition env call session (.storeETag part (.write rest) etag)
        { session with partEtags := session.partEtags.set (part.partNumber - 1) etag }
        (.uploadParts rest) [] false
  | storeFinalETag {call session part etag} (healthy : session.failed = false) :
      Transition env call session (.storeETag part .finalize etag)
        { session with partEtags := session.partEtags.set (part.partNumber - 1) etag }
        .checkCompletion [] false
  | releaseClaim {call session releaser} (claims : releaser ≠ .fail) :
      Transition env call session .claimed session (.releaseOperation releaser) [] false
  | chooseSingle {call session buffered} (single : session.partEtags = []) :
      Transition env call session (.chooseUpload buffered) session
        (.sendSingle (bufferedBytes buffered)) [] false
  | chooseCompletion {call session} (multipart : session.partEtags ≠ []) :
      Transition env call session (.chooseUpload none) session .checkCompletion [] false
  | chooseReserve {call session buffered} (multipart : session.partEtags ≠ []) :
      Transition env call session (.chooseUpload (some buffered)) session
        (.reserveFinal buffered) [] false
  | sendSingle {call session body} :
      Transition env call session (.sendSingle body) session (.awaitSingle body)
        [.singlePut body] false
  | singleUploaded {call session body} :
      Transition env call session (.awaitSingle body) session .finishFinalize [.published] false
  | reserveFinal {call session buffered} :
      Transition env call session (.reserveFinal buffered)
        { session with partEtags := session.partEtags ++ [""] }
        (.ensureUpload ⟨session.partEtags.length + 1, buffered.bytes⟩ .finalize)
        [.reserved (session.partEtags.length + 1) buffered.bytes] false
  | checkedCompletion {call session} (healthy : session.failed = false) :
      Transition env call session .checkCompletion session .takeSnapshot [] false
  | takeSnapshot {call session uploadId} (stored : "" ∉ session.partEtags)
      (known : session.multipartUploadId = some uploadId) :
      Transition env call session .takeSnapshot session
        (.sendCompletion uploadId session.partEtags) [] false
  | sendCompletion {call session uploadId etags} :
      Transition env call session (.sendCompletion uploadId etags) session
        (.awaitCompletion uploadId etags) [.completionPost uploadId etags] false
  | completed {call session uploadId etags} :
      Transition env call session (.awaitCompletion uploadId etags) session
        .finishFinalize [.published] false
  | finishFinalize {call session} :
      Transition env call session .finishFinalize
        { session with
          activeOperations := session.activeOperations - 1
          lifecycleState := .finalized }
        (.done .returned) [] true
  | failOperation {call session failure} :
      Transition env call session (.failOperation failure)
        (latchFailureLocked session failure.error failure.disposition)
        (.releaseOperation .fail) [.latched failure.error] true
  | releaseHealthy {call session releaser} (healthy : session.failed = false) :
      Transition env call session (.releaseOperation releaser)
        { session with activeOperations := session.activeOperations - 1 }
        (.done (releasedResult releaser)) [] true
  | releaseOwner {call session releaser uploadId} (failed : session.failed = true)
      (last : session.activeOperations - 1 = 0) (unclaimed : session.cleanupState = .none)
      (definitive : session.failureDisposition = .definitive)
      (permitted : session.abortSuppressed = false)
      (known : session.multipartUploadId = some uploadId) :
      Transition env call session (.releaseOperation releaser)
        { session with
          activeOperations := session.activeOperations - 1
          cleanupState := .inProgress }
        (.sendAbort uploadId (.release releaser)) [] true
  | releaseNothing {call session releaser} (failed : session.failed = true)
      (last : session.activeOperations - 1 = 0) (unclaimed : session.cleanupState = .none)
      (nothing : session.failureDisposition ≠ .definitive ∨ session.abortSuppressed = true ∨
        session.multipartUploadId = none) :
      Transition env call session (.releaseOperation releaser)
        { session with
          activeOperations := session.activeOperations - 1
          cleanupState := .complete }
        (.done (failedResult (throwFailure session.primaryFailure) releaser)) [] true
  | releaseCleaned {call session releaser} (failed : session.failed = true)
      (complete : session.cleanupState = .complete) :
      Transition env call session (.releaseOperation releaser)
        { session with activeOperations := session.activeOperations - 1 }
        (.done (failedResult (throwFailure session.primaryFailure) releaser)) [] true
  | releaseWaiting {call session releaser} (failed : session.failed = true)
      (pending : session.cleanupState ≠ .complete)
      (others : session.activeOperations - 1 ≠ 0 ∨ session.cleanupState ≠ .none) :
      Transition env call session (.releaseOperation releaser)
        { session with activeOperations := session.activeOperations - 1 }
        (.awaitCleanup releaser) [] true
  | cleaned {call session releaser} (complete : session.cleanupState = .complete) :
      Transition env call session (.awaitCleanup releaser) session
        (.done (failedResult (throwFailure session.primaryFailure) releaser)) [] false
  | abortFinalized {session} (finalized : session.lifecycleState = .finalized) :
      Transition env .abort session .start session (.done (.aborted false)) [] false
  | abortAborted {session} (aborted : session.lifecycleState = .aborted) :
      Transition env .abort session .start session (.done (.aborted true)) [] false
  | startAbort {session} (active : session.lifecycleState = .active) :
      Transition env .abort session .start { session with lifecycleState := .aborting }
        .awaitOperations [] false
  | abortObserved {call session} (idle : session.activeOperations = 0)
      (failed : session.failed = true) (complete : session.cleanupState = .complete) :
      Transition env call session .awaitOperations
        { session with bufferedPart := none, lifecycleState := .aborted }
        (.done (.threw (throwFailure session.primaryFailure))) [] true
  | abortObserving {call session} (idle : session.activeOperations = 0)
      (failed : session.failed = true) (pending : session.cleanupState ≠ .complete) :
      Transition env call session .awaitOperations { session with bufferedPart := none }
        .awaitAbortCleanup [] false
  | abortOwner {call session uploadId} (idle : session.activeOperations = 0)
      (healthy : session.failed = false) (permitted : session.abortSuppressed = false)
      (known : session.multipartUploadId = some uploadId) :
      Transition env call session .awaitOperations
        { session with bufferedPart := none, cleanupState := .inProgress }
        (.sendAbort uploadId .abort) [] false
  | abortNothing {call session} (idle : session.activeOperations = 0)
      (healthy : session.failed = false)
      (nothing : session.abortSuppressed = true ∨ session.multipartUploadId = none) :
      Transition env call session .awaitOperations
        { session with
          bufferedPart := none
          cleanupState := .complete
          lifecycleState := .aborted }
        (.done (.aborted true)) [] true
  | abortCleaned {call session} (complete : session.cleanupState = .complete) :
      Transition env call session .awaitAbortCleanup
        { session with lifecycleState := .aborted }
        (.done (.threw (throwFailure session.primaryFailure))) [] true
  | sendAbort {call session uploadId owner} :
      Transition env call session (.sendAbort uploadId owner) session
        (.awaitAbort uploadId owner) [.abortDelete uploadId] false
  | abortAnswered {call session uploadId owner abortError} :
      Transition env call session (.awaitAbort uploadId owner) session
        (.publishCleanup owner abortError) [.abortAnswered abortError] false
  | publishRelease {call session releaser abortError} :
      Transition env call session (.publishCleanup (.release releaser) abortError)
        { session with
          primaryFailure := { session.primaryFailure with
            abortError := session.primaryFailure.abortError.or abortError }
          cleanupState := .complete }
        (.done (failedResult (throwFailure { session.primaryFailure with
          abortError := session.primaryFailure.abortError.or abortError }) releaser)) [] true
  | publishAbort {call session abortError} :
      Transition env call session (.publishCleanup .abort abortError)
        { session with cleanupState := .complete, lifecycleState := .aborted }
        (.done (abortResult abortError)) [] true

/-- One advance of the program: a transition, or the two an `Abort` takes when
it finds no operation active. -/
inductive Advance (env : Env) (call : Call) (session : Session) (pc : Pc) (next : Session)
    (here : Pc) (events : List Event) (notify : Bool) : Prop
  | once (transition : Transition env call session pc next here events notify)
  | twice {middle : Session}
      (first : Transition env call session pc middle .awaitOperations [] false)
      (second : Transition env call middle .awaitOperations next here events notify)

/-! ## The program takes only listed transitions -/

variable {env : Env} {call : Call} {session next : Session} {pc here : Pc}
  {events : List Event} {notify : Bool}

private theorem raised_transition {failure : Failure} (raises : pc.canRaise = true)
    (stepped : raise session failure = some (.advance next here events notify)) :
    Transition env call session pc next here events notify := by
  cases stepped
  exact .raise raises

private theorem checked_transition {target : Pc} (raises : pc.canRaise = true)
    (passes : session.failed = false → Transition env call session pc session target [] false)
    (stepped : throwIfFailed session target = some (.advance next here events notify)) :
    Transition env call session pc next here events notify := by
  unfold throwIfFailed at stepped
  split at stepped
  · exact raised_transition raises stepped
  · rename_i healthy
    cases stepped
    exact passes (by simpa using healthy)

private theorem beginWrite_transition {data : Bytes} {location : Nat}
    (stepped : beginWriteOperation session = some (.advance next here events notify)) :
    Transition env (.write data location) session .start next here events notify := by
  unfold beginWriteOperation cleanupPending at stepped
  split at stepped
  · cases stepped
  · rename_i pending
    split at stepped
    · rename_i failed
      cases stepped
      exact .throwLatched (by simp) failed (by simpa [failed] using pending)
    · rename_i failed
      have healthy : session.failed = false := by simpa using failed
      split at stepped
      · rename_i state
        cases stepped
        exact .reject (by simp) healthy (Or.inl (by simp [state]))
      · rename_i state
        cases stepped
        exact .reject (by simp) healthy (Or.inl (by simp [state]))
      · rename_i state
        cases stepped
        exact .reject (by simp) healthy (Or.inl (by simp [state]))
      · rename_i state
        cases stepped
        exact .reject (by simp) healthy (Or.inl (by simp [state]))
      · rename_i state
        cases stepped
        exact .beginWrite healthy state

private theorem beginFinalize_transition
    (stepped : beginFinalize session = some (.advance next here events notify)) :
    Transition env .finalize session .start next here events notify := by
  unfold beginFinalize cleanupPending at stepped
  split at stepped
  · cases stepped
  · rename_i pending
    split at stepped
    · rename_i failed
      cases stepped
      exact .throwLatched (by simp) failed (by simpa [failed] using pending)
    · rename_i failed
      have healthy : session.failed = false := by simpa using failed
      split at stepped
      · rename_i state
        cases stepped
        exact .reject (by simp) healthy (Or.inl (by simp [state]))
      · rename_i state
        cases stepped
        exact .reject (by simp) healthy (Or.inl (by simp [state]))
      · rename_i state
        cases stepped
        exact .reject (by simp) healthy (Or.inl (by simp [state]))
      · rename_i state
        split at stepped
        · rename_i busy
          cases stepped
          exact .reject (by simp) healthy (Or.inr ⟨rfl, busy⟩)
        · rename_i idle
          cases stepped
          exact .alreadyFinalized healthy state (by omega)
      · rename_i state
        split at stepped
        · rename_i busy
          cases stepped
          exact .reject (by simp) healthy (Or.inr ⟨rfl, busy⟩)
        · rename_i idle
          cases stepped
          exact .beginFinalize healthy state (by omega)

private theorem abortIdle_transition (idle : session.activeOperations = 0)
    (stepped : abortIdle session = some (.advance next here events notify)) :
    Transition env call session .awaitOperations next here events notify := by
  unfold abortIdle at stepped
  dsimp only at stepped
  split at stepped
  · rename_i failed
    split at stepped
    · rename_i complete
      cases stepped
      exact .abortObserved idle failed complete
    · rename_i pending
      cases stepped
      exact .abortObserving idle failed pending
  · rename_i failed
    have healthy : session.failed = false := by simpa using failed
    split at stepped
    · rename_i uploadId known permitted
      cases stepped
      exact .abortOwner idle healthy permitted known
    · rename_i uploadId suppressed nothing
      cases stepped
      refine .abortNothing idle healthy ?_
      cases permitted : session.abortSuppressed with
      | true => exact Or.inl rfl
      | false =>
          cases known : session.multipartUploadId with
          | none => exact Or.inr rfl
          | some uploadId => exact absurd permitted (nothing uploadId known)

private theorem beginAbort_advance
    (stepped : beginAbort session = some (.advance next here events notify)) :
    Advance env .abort session .start next here events notify := by
  unfold beginAbort at stepped
  split at stepped
  · cases stepped
  · cases stepped
  · rename_i state
    cases stepped
    exact .once (.abortFinalized state)
  · rename_i state
    cases stepped
    exact .once (.abortAborted state)
  · rename_i state
    dsimp only at stepped
    split at stepped
    · cases stepped
      exact .once (.startAbort state)
    · rename_i idle
      exact .twice (.startAbort state)
        (abortIdle_transition (Nat.eq_zero_of_not_pos idle) stepped)

private theorem prepareWrite_transition {data : Bytes} {location : Nat}
    {allocation : Option ErrorData}
    (stepped : prepareWrite env.config session data location allocation =
      some (.advance next here events notify)) :
    Transition env (.write data location) session .prepareWrite next here events notify := by
  unfold prepareWrite at stepped
  split at stepped
  · cases stepped
  · rename_i due
    split at stepped
    · exact raised_transition rfl stepped
    · rename_i failed
      have healthy : session.failed = false := by simpa using failed
      have placed : location ≤ session.nextOffset := by
        by_contra early
        exact due ⟨by omega, healthy⟩
      obtain ⟨count, buffered, offset, frame, numbers⟩ :=
        prepareWriteLocked_frame env.maxParts_lt session data location allocation
      split at stepped
      · rename_i next' error stopped
        rw [stopped] at frame
        cases stepped
        cases frame
        exact .prepareFailed healthy placed stopped
      · rename_i next' parts split
        rw [split] at frame
        obtain ⟨numbers, offsetEq⟩ := numbers parts (congrArg Prod.snd split)
        cases stepped
        cases frame
        exact .prepared healthy offsetEq numbers split

private theorem ensureUpload_transition {part : PreparedPart} {after : After}
    (stepped : ensureMultipartUpload session part after =
      some (.advance next here events notify)) :
    Transition env call session (.ensureUpload part after) next here events notify := by
  unfold ensureMultipartUpload at stepped
  split at stepped
  · cases stepped
  · rename_i waiting
    split at stepped
    · exact raised_transition rfl stepped
    · rename_i failed
      have healthy : session.failed = false := by simpa using failed
      split at stepped
      · rename_i known
        cases stepped
        exact .reuseUpload healthy known
      · exact raised_transition rfl stepped
      · exact raised_transition rfl stepped
      · rename_i fresh
        cases stepped
        exact .becomeInitializer healthy fresh
      · rename_i progressing
        exact absurd ⟨progressing, healthy⟩ waiting

private theorem receivePart_transition {part : PreparedPart} {after : After}
    {uploadId : String} {reply : Reply}
    (stepped : receivePart env session part after uploadId reply =
      some (.advance next here events notify)) :
    Transition env call session (.awaitPart part after uploadId) next here events notify := by
  unfold receivePart at stepped
  split at stepped
  · cases stepped
    exact .partUploaded
  · exact raised_transition rfl stepped

private theorem storePartETag_transition {part : PreparedPart} {after : After}
    {etag : String}
    (stepped : storePartETag session part after etag =
      some (.advance next here events notify)) :
    Transition env call session (.storeETag part after etag) next here events notify := by
  unfold storePartETag at stepped
  split at stepped
  · exact raised_transition rfl stepped
  · rename_i failed
    have healthy : session.failed = false := by simpa using failed
    cases after with
    | write rest =>
        cases stepped
        exact .storeETag healthy
    | finalize =>
        cases stepped
        exact .storeFinalETag healthy

private theorem chooseUpload_transition {buffered : Option BufferedPart}
    (stepped : chooseUpload session buffered = some (.advance next here events notify)) :
    Transition env call session (.chooseUpload buffered) next here events notify := by
  unfold chooseUpload at stepped
  split at stepped
  · rename_i single
    cases stepped
    exact .chooseSingle (by simpa using single)
  · rename_i multipart
    have nonempty : session.partEtags ≠ [] := by simpa using multipart
    split at stepped
    · cases stepped
      exact .chooseCompletion nonempty
    · cases stepped
      exact .chooseReserve nonempty

private theorem reserveFinal_transition {buffered : BufferedPart}
    (stepped : reserveFinal env.config session buffered =
      some (.advance next here events notify)) :
    Transition env call session (.reserveFinal buffered) next here events notify := by
  unfold reserveFinal at stepped
  split at stepped
  · exact raised_transition rfl stepped
  · rename_i reserving reserved
    rw [reservePart_eq_ok env.maxParts_lt reserved] at stepped
    cases stepped
    exact .reserveFinal

private theorem takeSnapshot_transition
    (stepped : getMultipartSnapshot session = some (.advance next here events notify)) :
    Transition env call session .takeSnapshot next here events notify := by
  unfold getMultipartSnapshot at stepped
  split at stepped
  · exact raised_transition rfl stepped
  · rename_i stored
    split at stepped
    · rename_i uploadId known
      cases stepped
      exact .takeSnapshot (by simpa using stored) known
    · exact raised_transition rfl stepped

private theorem publishUploadId_transition {part : PreparedPart} {after : After}
    {uploadId : String}
    (stepped : publishUploadId session part after uploadId =
      some (.advance next here events notify)) :
    Transition env call session (.publishUploadId part after uploadId)
      next here events notify := by
  unfold publishUploadId at stepped
  dsimp only at stepped
  split at stepped
  · rename_i failed
    cases stepped
    exact .publishUploadIdLate failed
  · rename_i healthy
    cases stepped
    exact .publishUploadId (by simpa using healthy)

private theorem releaseOperation_transition {releaser : Releaser}
    (stepped : releaseOperation session releaser =
      some (.advance next here events notify)) :
    Transition env call session (.releaseOperation releaser) next here events notify := by
  unfold releaseOperation at stepped
  dsimp only at stepped
  split at stepped
  · rename_i healthy
    cases stepped
    exact .releaseHealthy healthy
  · rename_i healthy
    have failed : session.failed = true := by simpa using healthy
    split at stepped
    · rename_i owns
      split at stepped
      · rename_i permits
        split at stepped
        · rename_i uploadId known
          cases stepped
          exact .releaseOwner failed owns.1 owns.2 permits.1 permits.2 known
        · rename_i absent
          cases stepped
          exact .releaseNothing failed owns.1 owns.2 (Or.inr (Or.inr absent))
      · rename_i forbids
        cases stepped
        refine .releaseNothing failed owns.1 owns.2 ?_
        by_cases definitive : session.failureDisposition = .definitive
        · exact Or.inr (Or.inl (by simpa [definitive] using forbids))
        · exact Or.inl definitive
    · rename_i shares
      split at stepped
      · rename_i complete
        cases stepped
        exact .releaseCleaned failed complete
      · rename_i pending
        cases stepped
        refine .releaseWaiting failed pending ?_
        by_cases last : session.activeOperations - 1 = 0
        · exact Or.inr fun unclaimed => shares ⟨last, unclaimed⟩
        · exact Or.inl last

/-- Every advance of a call is made of the listed transitions. -/
theorem advance_of_callStep {choice : Choice}
    (stepped : callStep env call session pc choice =
      some (.advance next here events notify)) :
    Advance env call session pc next here events notify := by
  cases pc with
  | start =>
      cases call with
      | write data location => exact .once (beginWrite_transition stepped)
      | finalize => exact .once (beginFinalize_transition stepped)
      | abort => exact beginAbort_advance stepped
  | prepareWrite =>
      cases call with
      | write data location => exact .once (prepareWrite_transition stepped)
      | finalize => contradiction
      | abort => contradiction
  | uploadParts parts =>
      cases parts with
      | nil =>
          cases stepped
          exact .once .claim
      | cons part rest => exact .once (checked_transition rfl .startPart stepped)
  | ensureUpload part after => exact .once (ensureUpload_transition stepped)
  | sendInitialize part after =>
      cases stepped
      exact .once .sendInitialize
  | awaitInitialize part after =>
      change receiveInitialize env session part after choice.reply = _ at stepped
      unfold receiveInitialize at stepped
      split at stepped
      · cases stepped
        exact .once .initialized
      · cases stepped
        exact .once .initializeFailed
  | publishUploadId part after uploadId => exact .once (publishUploadId_transition stepped)
  | publishFailure failure =>
      cases stepped
      exact .once .publishFailure
  | checkPart part after uploadId => exact .once (checked_transition rfl .checkedPart stepped)
  | sendPart part after uploadId =>
      cases stepped
      exact .once .sendPart
  | awaitPart part after uploadId => exact .once (receivePart_transition stepped)
  | storeETag part after etag => exact .once (storePartETag_transition stepped)
  | claimed =>
      cases stepped
      refine .once (.releaseClaim ?_)
      split <;> simp
  | chooseUpload buffered => exact .once (chooseUpload_transition stepped)
  | sendSingle body =>
      cases stepped
      exact .once .sendSingle
  | awaitSingle body =>
      change receiveSingle env session choice.reply = _ at stepped
      unfold receiveSingle at stepped
      split at stepped
      · cases stepped
        exact .once .singleUploaded
      · exact .once (raised_transition rfl stepped)
  | reserveFinal buffered => exact .once (reserveFinal_transition stepped)
  | checkCompletion => exact .once (checked_transition rfl .checkedCompletion stepped)
  | takeSnapshot => exact .once (takeSnapshot_transition stepped)
  | sendCompletion uploadId etags =>
      cases stepped
      exact .once .sendCompletion
  | awaitCompletion uploadId etags =>
      change receiveCompletion env session choice.reply = _ at stepped
      unfold receiveCompletion at stepped
      split at stepped
      · cases stepped
        exact .once .completed
      · exact .once (raised_transition rfl stepped)
  | finishFinalize =>
      cases stepped
      exact .once .finishFinalize
  | failOperation failure =>
      cases stepped
      exact .once .failOperation
  | releaseOperation releaser => exact .once (releaseOperation_transition stepped)
  | awaitCleanup releaser =>
      change awaitCleanup session releaser = _ at stepped
      unfold awaitCleanup at stepped
      split at stepped
      · rename_i complete
        cases stepped
        exact .once (.cleaned complete)
      · cases stepped
  | awaitOperations =>
      change awaitOperations session = _ at stepped
      unfold awaitOperations at stepped
      split at stepped
      · cases stepped
      · exact .once (abortIdle_transition (by omega) stepped)
  | awaitAbortCleanup =>
      change awaitAbortCleanup session = _ at stepped
      unfold awaitAbortCleanup at stepped
      split at stepped
      · rename_i complete
        cases stepped
        exact .once (.abortCleaned complete)
      · cases stepped
  | sendAbort uploadId owner =>
      cases stepped
      exact .once .sendAbort
  | awaitAbort uploadId owner =>
      cases stepped
      exact .once .abortAnswered
  | publishCleanup owner abortError =>
      cases owner with
      | release releaser =>
          cases stepped
          exact .once .publishRelease
      | abort =>
          cases stepped
          exact .once .publishAbort
  | done result => contradiction

end Httpfs.S3.Upload
