import Httpfs.S3.Upload.Reachable

/-!
# Where calls wait

Seven loops wait on `state_changed`, each for its own condition.  Every other
control point advances whatever the environment does, and an advance that does
not notify makes none of the conditions true.
-/

namespace Httpfs.S3.Upload

open Httpfs.Transition
open Httpfs.Transition.Monitor

universe u

/-- The wait predicate of a call at a control point. -/
def Waits (call : Call) (session : Session) : Pc → Prop
  | .start =>
      match call with
      | .write _ _ | .finalize => session.failed = true ∧ session.cleanupState ≠ .complete
      | .abort => session.lifecycleState = .finalizing ∨ session.lifecycleState = .aborting
  | .prepareWrite =>
      match call with
      | .write _ location => session.nextOffset < location ∧ session.failed = false
      | .finalize | .abort => False
  | .ensureUpload _ _ => session.initializationState = .inProgress ∧ session.failed = false
  | .awaitCleanup _ | .awaitAbortCleanup => session.cleanupState ≠ .complete
  | .awaitOperations => 0 < session.activeOperations
  | _ => False

/-- The outcome is an advance. -/
def Advances (result : StepResult) : Prop :=
  ∃ next here events notify, result = some (.advance next here events notify)

section Advances

variable (session : Session) (next : Pc) (events : List Event)

theorem advances_quietly : Advances (quietly session next events) :=
  ⟨_, _, _, _, rfl⟩

theorem advances_notifying : Advances (notifying session next events) :=
  ⟨_, _, _, _, rfl⟩

theorem advances_throwIfFailed : Advances (throwIfFailed session next) := by
  unfold throwIfFailed
  split
  · exact advances_quietly _ _ _
  · exact advances_quietly _ _ _

theorem Advances.ne_none {result : StepResult} (advances : Advances result) : result ≠ none := by
  obtain ⟨_, _, _, _, rfl⟩ := advances
  simp

theorem Advances.ne_wait {result : StepResult} (advances : Advances result) :
    result ≠ some .wait := by
  obtain ⟨_, _, _, _, rfl⟩ := advances
  intro waits
  cases Option.some.inj waits

end Advances

/-- What a control point does with its wait predicate. -/
def Decides (waits : Prop) (result : StepResult) : Prop :=
  (waits ∧ result = some .wait) ∨ (¬ waits ∧ Advances result)

theorem decides_advance {result : StepResult} (advances : Advances result) :
    Decides False result :=
  Or.inr ⟨id, advances⟩

section Calls

variable {env : Env} {call : Call} {session : Session}

theorem cleanupPending_iff (session : Session) :
    cleanupPending session = true ↔
      session.failed = true ∧ session.cleanupState ≠ .complete := by
  simp [cleanupPending]

private theorem beginWriteOperation_decides (session : Session) :
    Decides (session.failed = true ∧ session.cleanupState ≠ .complete)
      (beginWriteOperation session) := by
  rw [← cleanupPending_iff, beginWriteOperation]
  split
  · rename_i pending
    exact Or.inl ⟨pending, rfl⟩
  · rename_i ready
    refine Or.inr ⟨ready, ?_⟩
    split
    · exact advances_quietly _ _ _
    · split <;> exact advances_quietly _ _ _

private theorem beginFinalize_decides (session : Session) :
    Decides (session.failed = true ∧ session.cleanupState ≠ .complete)
      (beginFinalize session) := by
  rw [← cleanupPending_iff, beginFinalize]
  split
  · rename_i pending
    exact Or.inl ⟨pending, rfl⟩
  · rename_i ready
    refine Or.inr ⟨ready, ?_⟩
    split
    · exact advances_quietly _ _ _
    · split
      · exact advances_quietly _ _ _
      · exact advances_quietly _ _ _
      · exact advances_quietly _ _ _
      · split <;> exact advances_quietly _ _ _
      · split <;> exact advances_quietly _ _ _

private theorem abortIdle_advances (session : Session) : Advances (abortIdle session) := by
  unfold abortIdle
  dsimp only
  split
  · split
    · exact advances_notifying _ _ _
    · exact advances_quietly _ _ _
  · split
    · exact advances_quietly _ _ _
    · exact advances_notifying _ _ _

private theorem beginAbort_decides (session : Session) :
    Decides (session.lifecycleState = .finalizing ∨ session.lifecycleState = .aborting)
      (beginAbort session) := by
  unfold beginAbort
  split
  · rename_i finalizing
    exact Or.inl ⟨Or.inl finalizing, rfl⟩
  · rename_i aborting
    exact Or.inl ⟨Or.inr aborting, rfl⟩
  · rename_i state
    exact Or.inr ⟨by simp [state], advances_quietly _ _ _⟩
  · rename_i state
    exact Or.inr ⟨by simp [state], advances_quietly _ _ _⟩
  · rename_i state
    refine Or.inr ⟨by simp [state], ?_⟩
    dsimp only
    split
    · exact advances_quietly _ _ _
    · exact abortIdle_advances _

private theorem prepareWrite_decides (config : S3UploadConfig) (session : Session) (data : Bytes)
    (location : Nat) (allocation : Option ErrorData) :
    Decides (session.nextOffset < location ∧ session.failed = false)
      (prepareWrite config session data location allocation) := by
  unfold prepareWrite
  split
  · rename_i early
    exact Or.inl ⟨early, rfl⟩
  · rename_i due
    refine Or.inr ⟨due, ?_⟩
    split
    · exact advances_quietly _ _ _
    · split
      · exact advances_quietly _ _ _
      · exact advances_notifying _ _ _

private theorem ensureUpload_decides (session : Session) (part : PreparedPart) (after : After) :
    Decides (session.initializationState = .inProgress ∧ session.failed = false)
      (ensureMultipartUpload session part after) := by
  unfold ensureMultipartUpload
  split
  · rename_i progressing
    exact Or.inl ⟨progressing, rfl⟩
  · rename_i ready
    refine Or.inr ⟨ready, ?_⟩
    split
    · exact advances_quietly _ _ _
    · split <;> exact advances_quietly _ _ _

private theorem releaseOperation_advances (session : Session) (releaser : Releaser) :
    Advances (releaseOperation session releaser) := by
  unfold releaseOperation
  dsimp only
  split
  · exact advances_notifying _ _ _
  · split
    · split
      · split
        · exact advances_notifying _ _ _
        · exact ⟨_, _, _, _, rfl⟩
      · exact ⟨_, _, _, _, rfl⟩
    · split
      · exact ⟨_, _, _, _, rfl⟩
      · exact advances_notifying _ _ _

private theorem awaitCleanup_decides (session : Session) (releaser : Releaser) :
    Decides (session.cleanupState ≠ .complete) (awaitCleanup session releaser) := by
  unfold awaitCleanup
  split
  · rename_i complete
    exact Or.inr ⟨by simp [complete], ⟨_, _, _, _, rfl⟩⟩
  · rename_i pending
    exact Or.inl ⟨pending, rfl⟩

private theorem awaitAbortCleanup_decides (session : Session) :
    Decides (session.cleanupState ≠ .complete) (awaitAbortCleanup session) := by
  unfold awaitAbortCleanup
  split
  · rename_i complete
    exact Or.inr ⟨by simp [complete], advances_notifying _ _ _⟩
  · rename_i pending
    exact Or.inl ⟨pending, rfl⟩

private theorem awaitOperations_decides (session : Session) :
    Decides (0 < session.activeOperations) (awaitOperations session) := by
  unfold awaitOperations
  split
  · rename_i busy
    exact Or.inl ⟨busy, rfl⟩
  · rename_i idle
    exact Or.inr ⟨idle, abortIdle_advances _⟩

/-- A call that has not ended waits exactly when its wait predicate holds, and
advances otherwise, whatever the environment chooses. -/
theorem callStep_decides (pc : Pc) (choice : Choice)
    (unfinished : ∀ result, pc ≠ .done result)
    (placed : pc = .prepareWrite → ∃ data location, call = .write data location) :
    Decides (Waits call session pc) (callStep env call session pc choice) := by
  cases pc with
  | start =>
      cases call with
      | write data location => exact beginWriteOperation_decides session
      | finalize => exact beginFinalize_decides session
      | abort => exact beginAbort_decides session
  | prepareWrite =>
      obtain ⟨data, location, rfl⟩ := placed rfl
      exact prepareWrite_decides _ _ _ _ _
  | uploadParts parts =>
      cases parts with
      | nil => exact decides_advance (advances_quietly _ _ _)
      | cons part rest => exact decides_advance (advances_throwIfFailed _ _)
  | ensureUpload part after => exact ensureUpload_decides session part after
  | awaitInitialize part after =>
      apply decides_advance
      change Advances (receiveInitialize env session part after choice.reply)
      unfold receiveInitialize
      split <;> exact advances_quietly _ _ _
  | publishUploadId part after uploadId =>
      apply decides_advance
      change Advances (publishUploadId session part after uploadId)
      unfold publishUploadId
      dsimp only
      split <;> exact advances_notifying _ _ _
  | checkPart part after uploadId => exact decides_advance (advances_throwIfFailed _ _)
  | awaitPart part after uploadId =>
      apply decides_advance
      change Advances (receivePart env session part after uploadId choice.reply)
      unfold receivePart
      split <;> exact advances_quietly _ _ _
  | storeETag part after etag =>
      apply decides_advance
      change Advances (storePartETag session part after etag)
      unfold storePartETag
      split <;> exact advances_quietly _ _ _
  | chooseUpload buffered =>
      apply decides_advance
      change Advances (chooseUpload session buffered)
      unfold chooseUpload
      split
      · exact advances_quietly _ _ _
      · split <;> exact advances_quietly _ _ _
  | awaitSingle body =>
      apply decides_advance
      change Advances (receiveSingle env session choice.reply)
      unfold receiveSingle
      split <;> exact advances_quietly _ _ _
  | reserveFinal buffered =>
      apply decides_advance
      change Advances (reserveFinal env.config session buffered)
      unfold reserveFinal
      split
      · exact advances_quietly _ _ _
      · split <;> exact advances_quietly _ _ _
  | checkCompletion => exact decides_advance (advances_throwIfFailed _ _)
  | takeSnapshot =>
      apply decides_advance
      change Advances (getMultipartSnapshot session)
      unfold getMultipartSnapshot
      split
      · exact advances_quietly _ _ _
      · split <;> exact advances_quietly _ _ _
  | awaitCompletion uploadId etags =>
      apply decides_advance
      change Advances (receiveCompletion env session choice.reply)
      unfold receiveCompletion
      split <;> exact advances_quietly _ _ _
  | releaseOperation releaser => exact decides_advance (releaseOperation_advances _ _)
  | awaitCleanup releaser => exact awaitCleanup_decides session releaser
  | awaitOperations => exact awaitOperations_decides session
  | awaitAbortCleanup => exact awaitAbortCleanup_decides session
  | publishCleanup owner abortError =>
      cases owner with
      | release releaser => exact decides_advance ⟨_, _, _, _, rfl⟩
      | abort => exact decides_advance (advances_notifying _ _ _)
  | done result => exact absurd rfl (unfinished result)
  | _ => exact decides_advance ⟨_, _, _, _, rfl⟩

/-- A call waits exactly when its wait predicate holds. -/
theorem callStep_eq_wait_iff (pc : Pc) (choice : Choice) :
    callStep env call session pc choice = some .wait ↔ Waits call session pc := by
  by_cases misplaced : pc = .prepareWrite ∧ ∀ data location, call ≠ .write data location
  · obtain ⟨rfl, other⟩ := misplaced
    cases call with
    | write data location => exact absurd rfl (other data location)
    | finalize | abort => simp [callStep, prepareCall, Waits]
  · by_cases unfinished : ∀ result, pc ≠ .done result
    · have placed (here : pc = .prepareWrite) : ∃ data location, call = .write data location := by
        by_contra other
        push Not at other
        exact misplaced ⟨here, other⟩
      have decides : Decides (Waits call session pc) (callStep env call session pc choice) :=
        callStep_decides pc choice unfinished placed
      rcases decides with ⟨waits, sleeps⟩ | ⟨passes, advances⟩
      · exact ⟨fun _ => waits, fun _ => sleeps⟩
      · constructor
        · exact fun sleeps => absurd sleeps advances.ne_wait
        · exact fun waits => absurd waits passes
    · push Not at unfinished
      obtain ⟨result, rfl⟩ := unfinished
      simp [callStep, Waits]

/-- A transition that does not notify keeps every wait predicate true. -/
theorem Transition.waits {pc here waiting : Pc} {next : Session} {events : List Event}
    {other : Call}
    (transition : Transition env call session pc next here events false)
    (waits : Waits other session waiting) : Waits other next waiting := by
  generalize quiet : false = notify at transition
  induction transition with
  | beginWrite healthy active =>
      cases waiting with
      | awaitOperations => exact Nat.succ_pos _
      | _ => exact waits
  | beginFinalize healthy active idle =>
      cases waiting with
      | awaitOperations => exact Nat.succ_pos _
      | start =>
          cases other with
          | abort => exact Or.inl rfl
          | _ => exact waits
      | _ => exact waits
  | prepareFailed healthy due stopped =>
      rename_i data location session allocation count buffered offset error
      have kept : offset = session.nextOffset := by
        have kept := prepareWriteLocked_offset env.config session data location allocation
        rw [stopped] at kept
        exact kept
      subst kept
      cases waiting <;> exact waits
  | becomeInitializer healthy fresh =>
      cases waiting with
      | ensureUpload part after => exact ⟨rfl, healthy⟩
      | _ => exact waits
  | storeETag | storeFinalETag | reserveFinal | abortObserving =>
      cases waiting <;> exact waits
  | startAbort active =>
      cases waiting with
      | start =>
          cases other with
          | abort => exact Or.inr rfl
          | _ => exact waits
      | _ => exact waits
  | abortOwner idle healthy permitted known =>
      cases waiting with
      | start =>
          cases other with
          | abort => exact waits
          | _ => exact ⟨waits.1, by simp⟩
      | awaitCleanup | awaitAbortCleanup => simp [Waits]
      | _ => exact waits
  | _ => first
      | exact waits
      | contradiction

end Calls

/-- No wakeup of an upload session is lost. -/
theorem program_notifiesWaiters {ι : Type u} (env : Env) (calls : ι → Call) :
    NotifiesWaiters (program env calls) where
  waits := fun thread session pc choice sleeps other =>
    (callStep_eq_wait_iff pc other).mpr ((callStep_eq_wait_iff pc choice).mp sleeps)
  silent := fun thread session pc choice next here events advances sleeper waiting sleeps other => by
    have waits := (callStep_eq_wait_iff waiting other).mp (sleeps other)
    apply (callStep_eq_wait_iff waiting other).mpr
    cases advance_of_callStep advances with
    | once transition => exact transition.waits waits
    | twice first second => exact second.waits (first.waits waits)

end Httpfs.S3.Upload
