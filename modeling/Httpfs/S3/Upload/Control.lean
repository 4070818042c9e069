import Httpfs.S3.Upload.Transition

/-!
# Who may do what in an upload session

Four roles are counted against the shared state: operations between admission
and release, the one initializer, the one owner of the cleanup request and the
one `Abort` that moved the session to `ABORTING`.  `Coherent` relates the
fields of the session to each other and `At` relates them to the control point
of a call; together they hold in every reachable state.
-/

namespace Httpfs.S3.Upload

open Httpfs.Transition

/-! ## Roles -/

namespace Pc

/-- Between admission and release, as counted by `active_operations`. -/
def active : Pc → Bool
  | .start | .awaitCleanup _ | .awaitOperations | .awaitAbortCleanup | .sendAbort _ _
  | .awaitAbort _ _ | .publishCleanup _ _ | .done _ => false
  | _ => true

/-- Between claiming the initialization and publishing its outcome. -/
def initializing : Pc → Bool
  | .sendInitialize _ _ | .awaitInitialize _ _ | .publishUploadId _ _ _
  | .publishFailure _ => true
  | _ => false

/-- The owner of a cleanup request that is under way. -/
def cleanupOwner : Pc → Option CleanupOwner
  | .sendAbort _ owner | .awaitAbort _ owner | .publishCleanup owner _ => some owner
  | _ => none

def cleaning (pc : Pc) : Bool :=
  pc.cleanupOwner.isSome

/-- The `Abort` that moved the session to `ABORTING`, until it is `ABORTED`. -/
def aborting : Pc → Bool
  | .awaitOperations | .awaitAbortCleanup => true
  | pc => decide (pc.cleanupOwner = some .abort)

/-- The upload id a call carries to its next request. -/
def uploadId? : Pc → Option String
  | .checkPart _ _ uploadId | .sendPart _ _ uploadId | .awaitPart _ _ uploadId
  | .sendCompletion uploadId _ | .awaitCompletion uploadId _ | .sendAbort uploadId _
  | .awaitAbort uploadId _ => some uploadId
  | _ => none

/-- Reached only after a failure has been latched. -/
def afterFailure : Pc → Bool
  | .releaseOperation .fail | .awaitCleanup _ | .awaitAbortCleanup => true
  | pc =>
      match pc.cleanupOwner with
      | some (.release _) => true
      | _ => false

end Pc

/-- Which calls reach a control point: all, `Write` and `Finalize`, or one of
the three alone. -/
inductive Owner
  | anyCall
  | operation
  | write
  | finalize
  | abort
  deriving DecidableEq, Repr

def Call.owns : Call → Owner → Bool
  | _, .anyCall | .write _ _, .operation | .finalize, .operation | .write _ _, .write
  | .finalize, .finalize | .abort, .abort => true
  | _, _ => false

def After.owner : After → Owner
  | .write _ => .write
  | .finalize => .finalize

def Releaser.owner : Releaser → Owner
  | .finish | .destroy => .write
  | .fail => .operation

def CleanupOwner.owner : CleanupOwner → Owner
  | .release releaser => releaser.owner
  | .abort => .abort

theorem Releaser.owner_ne_finalize (releaser : Releaser) : releaser.owner ≠ .finalize := by
  cases releaser <;> simp [Releaser.owner]

namespace Pc

/-- The calls that reach a control point. -/
def owner : Pc → Owner
  | .start | .done _ => .anyCall
  | .prepareWrite | .uploadParts _ | .claimed => .write
  | .ensureUpload _ after | .sendInitialize _ after | .awaitInitialize _ after
  | .publishUploadId _ after _ | .checkPart _ after _ | .sendPart _ after _
  | .awaitPart _ after _ | .storeETag _ after _ => after.owner
  | .publishFailure _ | .failOperation _ => .operation
  | .chooseUpload _ | .sendSingle _ | .awaitSingle _ | .reserveFinal _ | .checkCompletion
  | .takeSnapshot | .sendCompletion _ _ | .awaitCompletion _ _ | .finishFinalize => .finalize
  | .releaseOperation releaser | .awaitCleanup releaser => releaser.owner
  | .awaitOperations | .awaitAbortCleanup => .abort
  | .sendAbort _ cleanup | .awaitAbort _ cleanup | .publishCleanup cleanup _ => cleanup.owner

theorem active_of_canRaise {pc : Pc} (raises : pc.canRaise = true) : pc.active = true := by
  cases pc <;> first
    | rfl
    | contradiction

end Pc

/-! ## Shared and local invariants -/

/-- How the fields of a session fit together. -/
structure Coherent (session : Session) : Prop where
  cleanup_idle : session.cleanupState ≠ .none → session.activeOperations = 0
  failed_idle : session.failed = true → session.activeOperations = 0 →
    session.cleanupState ≠ .none
  cleanup_cause : session.cleanupState ≠ .none → session.failed = true ∨
    session.lifecycleState = .aborting ∨ session.lifecycleState = .aborted
  cleanup_target : session.cleanupState = .inProgress →
    session.multipartUploadId.isSome = true ∧ session.abortSuppressed = false
  finalizing : session.lifecycleState = .finalizing →
    session.activeOperations = 1 ∧ session.failed = false
  finalized : session.lifecycleState = .finalized →
    session.activeOperations = 0 ∧ session.failed = false
  aborted : session.lifecycleState = .aborted →
    session.activeOperations = 0 ∧ session.cleanupState = .complete
  uploadId : session.initializationState = .succeeded ↔
    session.multipartUploadId.isSome = true
  initialization : session.initializationState = .failed → session.failed = true
  suppressed : session.failed = true → session.failureDisposition = .ambiguous →
    session.abortSuppressed = true
  abortError : session.primaryFailure.abortError.isSome = true →
    session.failed = true ∧ session.cleanupState = .complete

/-- What a call at a control point may rely on. -/
structure At (call : Call) (session : Session) (pc : Pc) : Prop where
  owned : call.owns pc.owner = true
  writing : pc.active = true → call ≠ .finalize → session.lifecycleState ≠ .finalizing
  finalizing : pc.owner = .finalize → session.lifecycleState = .finalizing
  failing : pc.active = true → call = .finalize → session.failed = false →
    session.lifecycleState = .finalizing
  known : ∀ uploadId, pc.uploadId? = some uploadId →
    session.multipartUploadId = some uploadId
  failed : pc.afterFailure = true → session.failed = true
  healthy : pc.cleanupOwner = some .abort → session.failed = false
  waiting : pc = .awaitOperations → session.failed = false → session.cleanupState = .none

/-- What the counts of the roles say about a call in them. -/
structure Counted (session : Session) (pc : Pc) : Prop where
  active : pc.active = true → 0 < session.activeOperations
  initializing : pc.initializing = true → session.initializationState = .inProgress
  cleaning : pc.cleaning = true → session.cleanupState = .inProgress
  aborting : pc.aborting = true → session.lifecycleState = .aborting

/-- What the counts of the roles say about two different calls. -/
structure Apart (session : Session) (pc other : Pc) : Prop where
  active : pc.active = true → other.active = true → 2 ≤ session.activeOperations
  initializing : pc.initializing = true → other.initializing = false
  cleaning : pc.cleaning = true → other.cleaning = false
  aborting : pc.aborting = true → other.aborting = false

/-! ## Changes of the shared state -/

/-- What a call at a control point can do to the shared state, with what it has
checked or may rely on when it does. -/
inductive Change (pc : Pc) (session : Session) : Session → Prop
  | keep : Change pc session session
  | content (etags : List String) (buffered : Option BufferedPart) (offset : Nat) :
      Change pc session { session with
        partEtags := etags
        bufferedPart := buffered
        nextOffset := offset }
  | admitWrite (healthy : session.failed = false)
      (active : session.lifecycleState = .active) :
      Change pc session { session with activeOperations := session.activeOperations + 1 }
  | admitFinalize (healthy : session.failed = false)
      (active : session.lifecycleState = .active) (idle : session.activeOperations = 0) :
      Change pc session { session with
        lifecycleState := .finalizing
        activeOperations := session.activeOperations + 1
        bufferedPart := none }
  | claimInitialization (operating : pc.active = true)
      (fresh : session.initializationState = .notStarted) :
      Change pc session { session with initializationState := .inProgress }
  | publishUploadId (operating : pc.active = true) (initializing : pc.initializing = true)
      (uploadId : String) :
      Change pc session { session with
        multipartUploadId := some uploadId
        initializationState := .succeeded }
  | publishFailure (operating : pc.active = true) (initializing : pc.initializing = true)
      (failure : Failure) :
      Change pc session
        (latchFailureLocked { session with initializationState := .failed }
          failure.error failure.disposition)
  | latch (operating : pc.active = true) (failure : Failure) :
      Change pc session (latchFailureLocked session failure.error failure.disposition)
  | finish (operating : pc.active = true) (finalizing : session.lifecycleState = .finalizing) :
      Change pc session { session with
        activeOperations := session.activeOperations - 1
        lifecycleState := .finalized }
  | release (operating : pc.active = true) (writing : session.lifecycleState ≠ .finalizing)
      (covered : session.failed = false ∨ session.activeOperations - 1 ≠ 0 ∨
        session.cleanupState ≠ .none) :
      Change pc session { session with activeOperations := session.activeOperations - 1 }
  | releaseOwner (operating : pc.active = true) (failed : session.failed = true)
      (last : session.activeOperations - 1 = 0) (permitted : session.abortSuppressed = false)
      (known : session.multipartUploadId.isSome = true) :
      Change pc session { session with
        activeOperations := session.activeOperations - 1
        cleanupState := .inProgress }
  | releaseNothing (operating : pc.active = true) (failed : session.failed = true)
      (last : session.activeOperations - 1 = 0) :
      Change pc session { session with
        activeOperations := session.activeOperations - 1
        cleanupState := .complete }
  | publishRelease (cleaning : pc.cleaning = true) (failed : session.failed = true)
      (abortError : Option ErrorData) :
      Change pc session { session with
        primaryFailure := { session.primaryFailure with
          abortError := session.primaryFailure.abortError.or abortError }
        cleanupState := .complete }
  | startAbort (active : session.lifecycleState = .active) :
      Change pc session { session with lifecycleState := .aborting }
  | abortObserved (aborting : pc.aborting = true) (complete : session.cleanupState = .complete)
      (buffered : Option BufferedPart) :
      Change pc session { session with
        bufferedPart := buffered
        lifecycleState := .aborted }
  | abortOwner (aborting : pc.aborting = true) (idle : session.activeOperations = 0)
      (healthy : session.failed = false) (untouched : session.cleanupState = .none)
      (permitted : session.abortSuppressed = false)
      (known : session.multipartUploadId.isSome = true) :
      Change pc session { session with
        bufferedPart := none
        cleanupState := .inProgress }
  | abortNothing (aborting : pc.aborting = true) (idle : session.activeOperations = 0)
      (healthy : session.failed = false) :
      Change pc session { session with
        bufferedPart := none
        cleanupState := .complete
        lifecycleState := .aborted }
  | publishAbort (aborting : pc.aborting = true) (cleaning : pc.cleaning = true) :
      Change pc session { session with
        cleanupState := .complete
        lifecycleState := .aborted }

section Latch

variable (session : Session) (error : ErrorData) (disposition : FailureDisposition)

@[simp]
theorem failed_latchFailureLocked :
    (latchFailureLocked session error disposition).failed = true := by
  by_cases already : session.primaryFailure.primaryError.isSome = true
  · simp [latchFailureLocked, Session.failed, already]
  · simp [latchFailureLocked, Session.failed, already]

@[simp]
theorem abortError_latchFailureLocked :
    (latchFailureLocked session error disposition).primaryFailure.abortError =
      session.primaryFailure.abortError := by
  by_cases already : session.failed = true
  · simp [latchFailureLocked, already]
  · simp [latchFailureLocked, already]

theorem lifecycleState_latchFailureLocked :
    (latchFailureLocked session error disposition).lifecycleState =
      if session.lifecycleState = .finalizing then .active else session.lifecycleState :=
  rfl

theorem latchFailureLocked_lifecycle {state : LifecycleState}
    (reached : (latchFailureLocked session error disposition).lifecycleState = state)
    (inactive : state ≠ .active) : session.lifecycleState = state := by
  rw [lifecycleState_latchFailureLocked] at reached
  split at reached
  · exact absurd reached.symm inactive
  · exact reached

theorem latchFailureLocked_not_finalizing :
    (latchFailureLocked session error disposition).lifecycleState ≠ .finalizing := by
  rw [lifecycleState_latchFailureLocked]
  split
  · simp
  · assumption

end Latch

section Steps

variable {env : Env} {call : Call} {session next : Session} {pc here : Pc}
  {events : List Event} {notify : Bool}

theorem coherent_initial : Coherent .initial := by
  constructor <;> simp [Session.initial, Session.failed]

/-- Nothing has been cleaned up while operations are admitted. -/
theorem Coherent.untouched (coherent : Coherent session) (healthy : session.failed = false)
    (active : session.lifecycleState = .active) : session.cleanupState = .none := by
  by_contra started
  rcases coherent.cleanup_cause started with failed | aborting | aborted
  · rw [healthy] at failed
    contradiction
  · rw [active] at aborting
    contradiction
  · rw [active] at aborted
    contradiction

theorem Coherent.unclaimed (coherent : Coherent session)
    (operating : 0 < session.activeOperations) : session.cleanupState = .none := by
  by_contra started
  have idle := coherent.cleanup_idle started
  omega

theorem Coherent.latch (coherent : Coherent session)
    (operating : 0 < session.activeOperations) (error : ErrorData)
    (disposition : FailureDisposition) :
    Coherent (latchFailureLocked session error disposition) where
  cleanup_idle := coherent.cleanup_idle
  failed_idle := fun _ idle => absurd idle operating.ne'
  cleanup_cause := fun _ => Or.inl (failed_latchFailureLocked _ _ _)
  cleanup_target := fun progress => by
    have unclaimed := coherent.unclaimed operating
    rw [show session.cleanupState = .inProgress from progress] at unclaimed
    contradiction
  finalizing := fun finalizing =>
    absurd finalizing (latchFailureLocked_not_finalizing _ _ _)
  finalized := fun finalized => by
    have idle := (coherent.finalized
      (latchFailureLocked_lifecycle _ _ _ finalized (by simp))).1
    omega
  aborted := fun aborted =>
    coherent.aborted (latchFailureLocked_lifecycle _ _ _ aborted (by simp))
  uploadId := coherent.uploadId
  initialization := fun _ => failed_latchFailureLocked _ _ _
  suppressed := fun _ ambiguous => by
    by_cases already : session.failed = true
    · have before : session.failureDisposition = .ambiguous := by
        simpa [latchFailureLocked, already] using ambiguous
      simp [latchFailureLocked, coherent.suppressed already before]
    · have now : disposition = .ambiguous := by
        simpa [latchFailureLocked, already] using ambiguous
      simp [latchFailureLocked, now]
  abortError := fun reported => by
    rw [abortError_latchFailureLocked] at reported
    exact ⟨failed_latchFailureLocked _ _ _, (coherent.abortError reported).2⟩

/-- Every change of the shared state keeps it coherent. -/
theorem Coherent.step (coherent : Coherent session) (counted : Counted session pc)
    (change : Change pc session next) : Coherent next := by
  induction change with
  | keep => exact coherent
  | content etags buffered offset => exact { coherent with }
  | admitWrite healthy active =>
      have untouched := coherent.untouched healthy active
      exact { coherent with
        cleanup_idle := fun started => absurd untouched started
        failed_idle := fun _ idle => absurd idle (Nat.succ_ne_zero _)
        finalizing := fun finalizing => by simp_all
        finalized := fun finalized => by simp_all
        aborted := fun aborted => by simp_all }
  | admitFinalize healthy active idle =>
      have untouched := coherent.untouched healthy active
      exact { coherent with
        cleanup_idle := fun started => absurd untouched started
        failed_idle := fun _ idle => absurd idle (Nat.succ_ne_zero _)
        cleanup_cause := fun started => absurd untouched started
        finalizing := fun _ => ⟨by simp [idle], healthy⟩
        finalized := fun finalized => by contradiction
        aborted := fun aborted => by contradiction }
  | claimInitialization operating fresh =>
      have unpublished := mt coherent.uploadId.mpr (by simp [fresh])
      exact { coherent with
        uploadId := iff_of_false (by simp) unpublished
        initialization := fun failed => by contradiction }
  | publishUploadId operating initializing uploadId =>
      have unclaimed := coherent.unclaimed (counted.active operating)
      exact { coherent with
        cleanup_target := fun progress => by simp_all
        uploadId := iff_of_true rfl rfl
        initialization := fun failed => by contradiction }
  | publishFailure operating initializing failure =>
      have progress := counted.initializing initializing
      have unpublished := mt coherent.uploadId.mpr (by simp [progress])
      exact { coherent.latch (counted.active operating) failure.error failure.disposition with
        uploadId := iff_of_false (by simp [latchFailureLocked]) unpublished
        initialization := fun _ => failed_latchFailureLocked _ _ _ }
  | latch operating failure =>
      exact coherent.latch (counted.active operating) _ _
  | finish operating finalizing =>
      obtain ⟨single, healthy⟩ := coherent.finalizing finalizing
      have unclaimed := coherent.unclaimed (counted.active operating)
      exact { coherent with
        cleanup_idle := fun started => absurd unclaimed started
        failed_idle := fun failed => absurd failed (by simpa [Session.failed] using healthy)
        cleanup_cause := fun started => absurd unclaimed started
        finalizing := fun finalizing => by contradiction
        finalized := fun _ => ⟨by simp [single], healthy⟩
        aborted := fun aborted => by contradiction }
  | release operating writing covered =>
      have positive := counted.active operating
      have unclaimed := coherent.unclaimed positive
      exact { coherent with
        cleanup_idle := fun started => absurd unclaimed started
        failed_idle := fun failed idle => by
          rcases covered with healthy | others | started
          · exact absurd failed (by simpa [Session.failed] using healthy)
          · exact absurd idle others
          · exact started
        finalizing := fun finalizing => absurd finalizing writing
        finalized := fun finalized => by
          have idle := (coherent.finalized finalized).1
          omega
        aborted := fun aborted => by
          have idle := (coherent.aborted aborted).1
          omega }
  | releaseOwner operating failed last permitted known =>
      have positive := counted.active operating
      exact { coherent with
        cleanup_idle := fun _ => last
        failed_idle := fun _ _ => by simp
        cleanup_cause := fun _ => Or.inl failed
        cleanup_target := fun _ => ⟨known, permitted⟩
        finalizing := fun finalizing => by
          have healthy := (coherent.finalizing finalizing).2
          rw [failed] at healthy
          contradiction
        finalized := fun finalized => by
          have idle := (coherent.finalized finalized).1
          omega
        aborted := fun aborted => by
          have idle := (coherent.aborted aborted).1
          omega
        abortError := fun reported => by
          have complete := (coherent.abortError reported).2
          have unclaimed := coherent.unclaimed positive
          rw [complete] at unclaimed
          contradiction }
  | releaseNothing operating failed last =>
      have positive := counted.active operating
      exact { coherent with
        cleanup_idle := fun _ => last
        failed_idle := fun _ _ => by simp
        cleanup_cause := fun _ => Or.inl failed
        cleanup_target := fun progress => by contradiction
        finalizing := fun finalizing => by
          have healthy := (coherent.finalizing finalizing).2
          rw [failed] at healthy
          contradiction
        finalized := fun finalized => by
          have idle := (coherent.finalized finalized).1
          omega
        aborted := fun aborted => ⟨last, rfl⟩
        abortError := fun reported => ⟨failed, rfl⟩ }
  | publishRelease cleaning failed abortError =>
      have progress := counted.cleaning cleaning
      have idle := coherent.cleanup_idle (by simp [progress])
      exact { coherent with
        cleanup_idle := fun _ => idle
        failed_idle := fun _ _ => by simp
        cleanup_cause := fun _ => Or.inl failed
        cleanup_target := fun progress => by contradiction
        aborted := fun aborted => ⟨idle, rfl⟩
        abortError := fun _ => ⟨failed, rfl⟩ }
  | startAbort active =>
      exact { coherent with
        cleanup_cause := fun started => Or.inr (Or.inl rfl)
        finalizing := fun finalizing => by contradiction
        finalized := fun finalized => by contradiction
        aborted := fun aborted => by contradiction }
  | abortObserved aborting complete buffered =>
      exact { coherent with
        cleanup_cause := fun _ => Or.inr (Or.inr rfl)
        finalizing := fun finalizing => by contradiction
        finalized := fun finalized => by contradiction
        aborted := fun _ => ⟨coherent.cleanup_idle (by simp [complete]), complete⟩ }
  | abortOwner aborting idle healthy untouched permitted known =>
      have state := counted.aborting aborting
      exact { coherent with
        cleanup_idle := fun _ => idle
        failed_idle := fun _ _ => by simp
        cleanup_cause := fun _ => Or.inr (Or.inl state)
        cleanup_target := fun _ => ⟨known, permitted⟩
        aborted := fun aborted => by simp_all
        abortError := fun reported => by
          have failed := (coherent.abortError reported).1
          rw [healthy] at failed
          contradiction }
  | abortNothing aborting idle healthy =>
      exact { coherent with
        cleanup_idle := fun _ => idle
        failed_idle := fun _ _ => by simp
        cleanup_cause := fun _ => Or.inr (Or.inr rfl)
        cleanup_target := fun progress => by contradiction
        finalizing := fun finalizing => by contradiction
        finalized := fun finalized => by contradiction
        aborted := fun _ => ⟨idle, rfl⟩
        abortError := fun reported => ⟨(coherent.abortError reported).1, rfl⟩ }
  | publishAbort aborting cleaning =>
      have progress := counted.cleaning cleaning
      have idle := coherent.cleanup_idle (by simp [progress])
      exact { coherent with
        cleanup_idle := fun _ => idle
        failed_idle := fun _ _ => by simp
        cleanup_cause := fun _ => Or.inr (Or.inr rfl)
        cleanup_target := fun progress => by contradiction
        finalizing := fun finalizing => by contradiction
        finalized := fun finalized => by contradiction
        aborted := fun _ => ⟨idle, rfl⟩
        abortError := fun reported => ⟨(coherent.abortError reported).1, rfl⟩ }

theorem Call.owns_operation (operating : pc.active = true)
    (owned : call.owns pc.owner = true) : call.owns .operation = true := by
  cases call with
  | write data location => rfl
  | finalize => rfl
  | abort =>
      exfalso
      cases pc with
      | ensureUpload part after | sendInitialize part after | awaitInitialize part after
      | publishUploadId part after uploadId | checkPart part after uploadId
      | sendPart part after uploadId | awaitPart part after uploadId
      | storeETag part after etag => cases after <;> contradiction
      | releaseOperation releaser => cases releaser <;> contradiction
      | _ => contradiction

theorem Call.eq_finalize (owned : call.owns .finalize = true) : call = .finalize := by
  cases call with
  | finalize => rfl
  | write data location => contradiction
  | abort => contradiction

theorem Call.eq_abort (owned : call.owns .abort = true) : call = .abort := by
  cases call with
  | abort => rfl
  | write data location => contradiction
  | finalize => contradiction

/-- A call stays among its own control points. -/
theorem owned_step (owned : call.owns pc.owner = true)
    (transition : Transition env call session pc next here events notify) :
    call.owns here.owner = true := by
  induction transition with
  | raise raises => exact Call.owns_operation (Pc.active_of_canRaise raises) owned
  | initializeFailed => exact @Call.owns_operation _ (.awaitInitialize _ _) rfl owned
  | publishUploadIdLate failed =>
      exact @Call.owns_operation _ (.publishUploadId _ _ _) rfl owned
  | releaseClaim claims =>
      rename_i releaser
      cases releaser with
      | finish => exact owned
      | destroy => exact owned
      | fail => contradiction
  | _ => first
      | exact owned
      | rfl

/-- The shared part of a transition is one of the listed changes. -/
theorem change_of_transition (coherent : Coherent session) (present : At call session pc)
    (transition : Transition env call session pc next here events notify) :
    Change pc session next := by
  have notFinalizing {releaser : Releaser} (at_ : pc = .releaseOperation releaser) :
      session.lifecycleState ≠ .finalizing := by
    subst at_
    cases call with
    | write data location => exact present.writing rfl (by simp)
    | abort => exact present.writing rfl (by simp)
    | finalize =>
        intro finalizing
        have healthy := (coherent.finalizing finalizing).2
        cases releaser with
        | fail =>
            rw [present.failed rfl] at healthy
            contradiction
        | finish => exact absurd present.owned (by simp [Pc.owner, Releaser.owner, Call.owns])
        | destroy => exact absurd present.owned (by simp [Pc.owner, Releaser.owner, Call.owns])
  induction transition with
  | beginWrite healthy active => exact .admitWrite healthy active
  | beginFinalize healthy active idle => exact .admitFinalize healthy active idle
  | prepareFailed healthy due stopped => exact .content _ _ _
  | prepared healthy placed numbers split => exact .content _ _ _
  | becomeInitializer healthy fresh => exact .claimInitialization rfl fresh
  | publishUploadId healthy => exact .publishUploadId rfl rfl _
  | publishUploadIdLate failed => exact .publishUploadId rfl rfl _
  | publishFailure => exact .publishFailure rfl rfl _
  | storeETag healthy => exact .content _ _ _
  | storeFinalETag healthy => exact .content _ _ _
  | reserveFinal => exact .content _ _ _
  | finishFinalize =>
      exact .finish rfl (present.finalizing rfl)
  | failOperation => exact .latch rfl _
  | releaseHealthy healthy => exact .release rfl (notFinalizing rfl) (Or.inl healthy)
  | releaseOwner failed last unclaimed definitive permitted known =>
      exact .releaseOwner rfl failed last permitted (by simp [known])
  | releaseNothing failed last unclaimed nothing => exact .releaseNothing rfl failed last
  | releaseCleaned failed complete =>
      exact .release rfl (notFinalizing rfl) (Or.inr (Or.inr (by simp [complete])))
  | releaseWaiting failed pending others =>
      exact .release rfl (notFinalizing rfl) (Or.inr others)
  | startAbort active => exact .startAbort active
  | abortObserved idle failed complete => exact .abortObserved rfl complete _
  | abortObserving idle failed pending => exact .content _ _ _
  | abortOwner idle healthy permitted known =>
      exact .abortOwner rfl idle healthy (present.waiting rfl healthy) permitted (by simp [known])
  | abortNothing idle healthy nothing => exact .abortNothing rfl idle healthy
  | abortCleaned complete => exact .abortObserved rfl complete _
  | publishRelease => exact .publishRelease rfl (present.failed rfl) _
  | publishAbort => exact .publishAbort rfl rfl
  | _ => exact .keep

theorem at_start (call : Call) (session : Session) : At call session .start := by
  constructor <;> simp [Pc.owner, Pc.active, Pc.uploadId?, Pc.afterFailure, Pc.cleanupOwner]
  cases call <;> rfl

private theorem writing_step (present : At call session pc)
    (transition : Transition env call session pc next here events notify) :
    here.active = true → call ≠ .finalize → next.lifecycleState ≠ .finalizing := by
  intro active operation
  induction transition with
  | beginFinalize healthy state idle => contradiction
  | beginWrite healthy state => exact ne_of_eq_of_ne state (by simp)
  | raise raises => exact present.writing (Pc.active_of_canRaise raises) operation
  | publishFailure => exact latchFailureLocked_not_finalizing _ _ _
  | failOperation => exact latchFailureLocked_not_finalizing _ _ _
  | _ => first
      | contradiction
      | exact present.writing rfl operation

private theorem finalizing_step (present : At call session pc)
    (transition : Transition env call session pc next here events notify) :
    here.owner = .finalize → next.lifecycleState = .finalizing := by
  intro finalize
  induction transition with
  | _ => first
      | rfl
      | contradiction
      | exact present.finalizing finalize
      | exact present.finalizing rfl
      | exact absurd finalize (Releaser.owner_ne_finalize _)

private theorem failing_step (present : At call session pc)
    (transition : Transition env call session pc next here events notify) :
    here.active = true → call = .finalize → next.failed = false →
      next.lifecycleState = .finalizing := by
  intro active finalize healthy
  induction transition with
  | raise raises =>
      exact present.failing (Pc.active_of_canRaise raises) finalize healthy
  | publishFailure => simp at healthy
  | failOperation => simp at healthy
  | _ => first
      | rfl
      | contradiction
      | exact present.failing rfl finalize healthy

private theorem known_step (present : At call session pc)
    (transition : Transition env call session pc next here events notify) :
    ∀ uploadId, here.uploadId? = some uploadId → next.multipartUploadId = some uploadId := by
  intro uploadId carried
  induction transition with
  | reuseUpload healthy known => exact carried ▸ known
  | takeSnapshot stored known => exact carried ▸ known
  | releaseOwner failed last unclaimed definitive permitted known => exact carried ▸ known
  | abortOwner idle healthy permitted known => exact carried ▸ known
  | _ => first
      | exact carried
      | contradiction
      | exact present.known _ carried

private theorem failed_step (present : At call session pc)
    (transition : Transition env call session pc next here events notify) :
    here.afterFailure = true → next.failed = true := by
  intro after
  induction transition with
  | releaseClaim claims =>
      rename_i releaser
      cases releaser <;> contradiction
  | _ => first
      | contradiction
      | assumption
      | exact failed_latchFailureLocked _ _ _
      | exact present.failed after

private theorem healthy_step (present : At call session pc)
    (transition : Transition env call session pc next here events notify) :
    here.cleanupOwner = some .abort → next.failed = false := by
  intro cleaner
  induction transition with
  | releaseOwner failed last unclaimed definitive permitted known =>
      exact absurd cleaner (by simp [Pc.cleanupOwner])
  | _ => first
      | contradiction
      | assumption
      | exact present.healthy cleaner

private theorem waiting_step (coherent : Coherent session)
    (transition : Transition env call session pc next here events notify) :
    here = .awaitOperations → next.failed = false → next.cleanupState = .none := by
  intro waits healthy
  induction transition with
  | startAbort active => exact coherent.untouched healthy active
  | _ => contradiction

/-- A transition establishes what the call relies on at its next control
point. -/
theorem At.step (coherent : Coherent session) (present : At call session pc)
    (transition : Transition env call session pc next here events notify) :
    At call next here where
  owned := owned_step present.owned transition
  writing := writing_step present transition
  finalizing := finalizing_step present transition
  failing := failing_step present transition
  known := known_step present transition
  failed := failed_step present transition
  healthy := healthy_step present transition
  waiting := waiting_step coherent transition

/-! ## What other calls may still rely on -/

/-- A latched failure stays. -/
theorem Change.failed_mono (change : Change pc session next) (failed : session.failed = true) :
    next.failed = true := by
  induction change with
  | publishFailure operating initializing failure => exact failed_latchFailureLocked _ _ _
  | latch operating failure => exact failed_latchFailureLocked _ _ _
  | _ => exact failed

theorem Pc.active_of_owner_finalize (finalize : pc.owner = .finalize) : pc.active = true := by
  cases pc with
  | awaitCleanup releaser => exact absurd finalize releaser.owner_ne_finalize
  | sendAbort uploadId cleanup | awaitAbort uploadId cleanup
  | publishCleanup cleanup abortError =>
      cases cleanup with
      | release releaser => exact absurd finalize releaser.owner_ne_finalize
      | abort => contradiction
  | _ => first
      | rfl
      | contradiction

/-- While a `Finalize` runs, no other call touches the lifecycle. -/
theorem Change.finalizing {other : Pc} (change : Change pc session next)
    (coherent : Coherent session) (counted : Counted session pc)
    (apart : Apart session pc other) (operating : other.active = true)
    (finalizing : session.lifecycleState = .finalizing) :
    next.lifecycleState = .finalizing := by
  have single := (coherent.finalizing finalizing).1
  have alone : pc.active = false := by
    by_contra active
    have several := apart.active (by simpa using active) operating
    omega
  have unaborted : pc.aborting = false := by
    by_contra aborts
    have aborting := counted.aborting (by simpa using aborts)
    rw [finalizing] at aborting
    contradiction
  induction change <;> simp_all

/-- What a call relies on survives the changes of every other call. -/
theorem At.interference {otherCall : Call} {other : Pc} (present : At otherCall session other)
    (coherent : Coherent session) (counted : Counted session pc)
    (countedOther : Counted session other) (apart : Apart session pc other)
    (change : Change pc session next) : At otherCall next other where
  owned := present.owned
  writing := fun active operation => by
    have before := present.writing active operation
    induction change with
    | admitFinalize healthy state idle =>
        have operating := countedOther.active active
        omega
    | publishFailure operating initializing failure =>
        exact latchFailureLocked_not_finalizing _ _ _
    | latch operating failure => exact latchFailureLocked_not_finalizing _ _ _
    | _ => first
        | exact before
        | simp
  finalizing := fun finalize =>
    change.finalizing coherent counted apart (Pc.active_of_owner_finalize finalize)
      (present.finalizing finalize)
  failing := fun active finalize healthy => by
    have before : session.failed = false := by
      by_contra failed
      have still := change.failed_mono (by simpa using failed)
      rw [healthy] at still
      contradiction
    exact change.finalizing coherent counted apart active
      (present.failing active finalize before)
  known := fun uploadId carried => by
    have before := present.known uploadId carried
    induction change with
    | publishUploadId operating initializing fresh =>
        have progress := counted.initializing initializing
        have published := coherent.uploadId.mpr (by simp [before])
        rw [progress] at published
        contradiction
    | _ => exact before
  failed := fun after => change.failed_mono (present.failed after)
  healthy := fun cleaner => by
    have before := present.healthy cleaner
    have progress := countedOther.cleaning (by simp [Pc.cleaning, cleaner])
    have idle := coherent.cleanup_idle (by simp [progress])
    have noLatch : pc.active = false := by
      by_contra active
      have operating := counted.active (by simpa using active)
      omega
    induction change with
    | publishFailure operating initializing failure => simp [noLatch] at operating
    | latch operating failure => simp [noLatch] at operating
    | _ => exact before
  waiting := fun waits healthy => by
    have before : session.failed = false := by
      by_contra failed
      have still := change.failed_mono (by simpa using failed)
      rw [healthy] at still
      contradiction
    have untouched := present.waiting waits before
    have distinct : pc.aborting = false := by
      by_contra aborts
      have separate := apart.aborting (by simpa using aborts)
      rw [waits] at separate
      contradiction
    induction change <;> simp_all

/-! ## The counts -/

/-- Threads the shared state says are initializing. -/
def Session.initializers (session : Session) : Nat :=
  (decide (session.initializationState = .inProgress)).toNat

/-- Threads the shared state says are sending the cleanup request. -/
def Session.cleaners (session : Session) : Nat :=
  (decide (session.cleanupState = .inProgress)).toNat

/-- Threads the shared state says are aborting. -/
def Session.aborters (session : Session) : Nat :=
  (decide (session.lifecycleState = .aborting)).toNat

theorem aborters_latchFailureLocked (session : Session) (error : ErrorData)
    (disposition : FailureDisposition) :
    (latchFailureLocked session error disposition).aborters = session.aborters := by
  rw [Session.aborters, Session.aborters, lifecycleState_latchFailureLocked]
  split
  · rename_i finalizing
    simp [finalizing]
  · rfl

private theorem roles_of_canRaise (raises : pc.canRaise = true) :
    pc.active = true ∧ pc.initializing = false ∧ pc.cleaning = false ∧
      pc.aborting = false := by
  cases pc <;> first
    | exact ⟨rfl, rfl, rfl, rfl⟩
    | contradiction

/-- The count of active operations follows the call that moves. -/
theorem active_conserved (counted : Counted session pc)
    (transition : Transition env call session pc next here events notify) :
    next.activeOperations + pc.active.toNat =
      session.activeOperations + here.active.toNat := by
  have positive := counted.active
  induction transition with
  | raise raises =>
      rw [(roles_of_canRaise raises).1]
      rfl
  | finishFinalize | releaseHealthy | releaseOwner | releaseNothing | releaseCleaned
  | releaseWaiting =>
      have operating := positive rfl
      simp only [Pc.active, Bool.toNat_true, Bool.toNat_false]
      omega
  | _ => rfl

/-- The initializer is the call that moves to and from its role. -/
theorem initializing_conserved (counted : Counted session pc)
    (transition : Transition env call session pc next here events notify) :
    next.initializers + pc.initializing.toNat =
      session.initializers + here.initializing.toNat := by
  induction transition with
  | raise raises =>
      rw [(roles_of_canRaise raises).2.1]
      rfl
  | becomeInitializer healthy fresh => simp [Session.initializers, Pc.initializing, fresh]
  | publishUploadId | publishUploadIdLate | publishFailure =>
      have progress := counted.initializing rfl
      simp [Session.initializers, Pc.initializing, progress, latchFailureLocked]
  | _ => rfl

/-- The owner of the cleanup is the call that moves to and from its role. -/
theorem cleaning_conserved (present : At call session pc) (counted : Counted session pc)
    (transition : Transition env call session pc next here events notify) :
    next.cleaners + pc.cleaning.toNat = session.cleaners + here.cleaning.toNat := by
  induction transition with
  | raise raises =>
      rw [(roles_of_canRaise raises).2.2.1]
      rfl
  | releaseOwner failed last unclaimed | releaseNothing failed last unclaimed =>
      simp [Session.cleaners, Pc.cleaning, Pc.cleanupOwner, unclaimed]
  | publishRelease | publishAbort =>
      have progress := counted.cleaning rfl
      simp [Session.cleaners, Pc.cleaning, Pc.cleanupOwner, progress]
  | abortOwner idle healthy | abortNothing idle healthy =>
      have untouched := present.waiting rfl healthy
      simp [Session.cleaners, Pc.cleaning, Pc.cleanupOwner, untouched]
  | _ => rfl

/-- The aborting call is the one that moves to and from its role. -/
theorem aborting_conserved (present : At call session pc) (counted : Counted session pc)
    (transition : Transition env call session pc next here events notify) :
    next.aborters + pc.aborting.toNat = session.aborters + here.aborting.toNat := by
  induction transition with
  | raise raises =>
      rw [(roles_of_canRaise raises).2.2.2]
      rfl
  | startAbort active | beginFinalize healthy active =>
      simp [Session.aborters, Pc.aborting, Pc.cleanupOwner, active]
  | abortObserved | abortNothing | abortCleaned | publishAbort =>
      have state := counted.aborting rfl
      simp [Session.aborters, Pc.aborting, Pc.cleanupOwner, state]
  | finishFinalize =>
      have state := present.finalizing rfl
      simp [Session.aborters, Pc.aborting, Pc.cleanupOwner, state]
  | failOperation | publishFailure =>
      rw [aborters_latchFailureLocked]
      rfl
  | _ => rfl

end Steps

end Httpfs.S3.Upload
