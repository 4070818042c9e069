import Httpfs.S3.Upload.Cleanup
import Httpfs.S3.Upload.Failure
import Httpfs.S3.Upload.Tickets

/-!
# One multipart upload

Several writers race to create the multipart upload and all of them use the
one upload id it returned.  The id is completed at most once, by a `Finalize`
that is alone and has every etag, and it is aborted exactly once if a
definitive failure came first.
-/

namespace Httpfs.S3.Upload

open Httpfs.Transition
open Httpfs.Transition.Monitor

universe u

namespace Event

/-- The upload id an initialization returned. -/
def uploadId? : Event → Option String
  | .initialized uploadId => some uploadId
  | _ => none

/-- The upload id a request carries. -/
def target? : Event → Option String
  | .partPut _ uploadId _ | .completionPost uploadId _ | .abortDelete uploadId => some uploadId
  | _ => none

def isInitialize : Event → Bool
  | .initializePost => true
  | _ => false

def isCompletion : Event → Bool
  | .completionPost _ _ => true
  | _ => false

end Event

/-- The upload ids the initializations of a trace returned. -/
def uploadIds (events : List Event) : List String :=
  events.filterMap Event.uploadId?

@[simp]
theorem uploadIds_append (first second : List Event) :
    uploadIds (first ++ second) = uploadIds first ++ uploadIds second := by
  simp [uploadIds]

namespace Pc

/-- The upload id that is about to be published. -/
def publishing? : Pc → Option String
  | .publishUploadId _ _ uploadId => some uploadId
  | _ => none

/-- Control points of a `Finalize` that may still send the completion. -/
def mayComplete : Pc → Bool
  | .sendSingle _ | .awaitSingle _ | .awaitCompletion _ _ | .finishFinalize => false
  | pc => decide (pc.owner = .finalize)

/-- What a completion is going to carry. -/
def completion? : Pc → Option (List String)
  | .sendCompletion _ etags => some etags
  | _ => none

/-- The cleanup request has been sent. -/
def afterAbort : Pc → Bool
  | .awaitAbort _ _ | .publishCleanup _ _ => true
  | _ => false

theorem target_of_request {pc : Pc} {event : Event} {uploadId : String}
    (sends : pc.request = some event) (target : event.target? = some uploadId) :
    pc.uploadId? = some uploadId := by
  cases pc <;> first
    | contradiction
    | (cases sends
       first
         | contradiction
         | exact target)

theorem initializing_of_request {pc : Pc} (sends : pc.request = some .initializePost) :
    pc.initializing = true := by
  obtain ⟨part, after, rfl⟩ := eq_sendInitialize sends
  rfl

theorem initializing_of_publishing {pc : Pc} {uploadId : String}
    (publishing : pc.publishing? = some uploadId) : pc.initializing = true := by
  cases pc <;> first
    | rfl
    | contradiction

theorem active_of_publishing {pc : Pc} {uploadId : String}
    (publishing : pc.publishing? = some uploadId) : pc.active = true := by
  cases pc <;> first
    | rfl
    | contradiction

theorem finalize_of_completion {pc : Pc} {etags : List String}
    (completes : pc.completion? = some etags) : pc.owner = .finalize := by
  cases pc <;> first
    | rfl
    | contradiction

theorem finalize_of_mayComplete {pc : Pc} (completes : pc.mayComplete = true) :
    pc.owner = .finalize := by
  cases pc <;> first
    | contradiction
    | exact of_decide_eq_true completes

end Pc

section Steps

variable {env : Env} {call : Call} {session next : Session} {pc here : Pc}
  {events : List Event} {notify : Bool}

/-- An upload id is learned on the way to being published. -/
theorem Transition.uploadIds_eq
    (transition : Transition env call session pc next here events notify) :
    (uploadIds events = [] ∧ here.publishing? = none) ∨
      ∃ uploadId, pc.initializing = true ∧ pc.publishing? = none ∧
        here.publishing? = some uploadId ∧ uploadIds events = [uploadId] ∧ next = session := by
  induction transition with
  | initialized => exact Or.inr ⟨_, rfl, rfl, rfl, rfl, rfl⟩
  | prepared healthy placed numbers split =>
      exact Or.inl ⟨by simp [uploadIds, Event.uploadId?], rfl⟩
  | _ => exact Or.inl ⟨rfl, rfl⟩

/-- An upload id is published from where it was learned. -/
theorem Transition.publishes
    (transition : Transition env call session pc next here events notify) :
    next.multipartUploadId = session.multipartUploadId ∧ pc.publishing? = none ∨
      ∃ uploadId, pc.publishing? = some uploadId ∧
        next.multipartUploadId = some uploadId := by
  induction transition with
  | publishUploadId | publishUploadIdLate => exact Or.inr ⟨_, rfl, rfl⟩
  | raise raises =>
      rename_i pc failure
      exact Or.inl ⟨rfl, by cases pc <;> first | rfl | contradiction⟩
  | _ => exact Or.inl ⟨rfl, rfl⟩

/-- A `Finalize` heads for its completion only from an active session that has
not failed. -/
theorem Transition.mayComplete_of
    (transition : Transition env call session pc next here events notify)
    (completes : here.mayComplete = true) :
    pc.mayComplete = true ∨
      (session.failed = false ∧ session.lifecycleState = .active) := by
  induction transition with
  | beginFinalize healthy active idle => exact Or.inr ⟨healthy, active⟩
  | _ => first
      | contradiction
      | exact Or.inl rfl
      | exact Or.inl completes
      | exact absurd (of_decide_eq_true completes) (Releaser.owner_ne_finalize _)

/-- The completion carries the etags as they stand, and none is missing. -/
theorem Transition.completion_of
    (transition : Transition env call session pc next here events notify)
    {etags : List String} (completes : here.completion? = some etags) :
    next.partEtags = etags ∧ "" ∉ etags := by
  induction transition with
  | takeSnapshot stored known =>
      cases completes
      exact ⟨rfl, stored⟩
  | _ => contradiction

/-- Only active operations touch the etags. -/
theorem Transition.partEtags_eq
    (transition : Transition env call session pc next here events notify)
    (inactive : pc.active = false) : next.partEtags = session.partEtags := by
  induction transition <;> first
    | rfl
    | contradiction

theorem Transition.after_completion {uploadId : String} {etags : List String}
    (transition : Transition env call session pc next here events notify)
    (sends : pc = .sendCompletion uploadId etags) : here.mayComplete = false := by
  induction transition with
  | sendCompletion => rfl
  | raise raises =>
      rw [sends] at raises
      contradiction
  | _ => contradiction

/-- The initialization begins once. -/
theorem Transition.request_initialize
    (transition : Transition env call session pc next here events notify)
    (sends : here.request = some .initializePost) :
    session.initializationState = .notStarted := by
  induction transition with
  | becomeInitializer healthy fresh => exact fresh
  | _ => simp [Pc.request] at sends

theorem Change.notStarted_mono (change : Change pc session next)
    (started : session.initializationState ≠ .notStarted) :
    next.initializationState ≠ .notStarted := by
  induction change <;> first
    | exact started
    | simp [latchFailureLocked]

/-- A `Finalize` that may no longer begin stays that way. -/
theorem Change.finalize_mono (change : Change pc session next)
    (ended : session.failed = false → session.lifecycleState ≠ .active)
    (healthy : next.failed = false) : next.lifecycleState ≠ .active := by
  induction change with
  | publishFailure operating initializing failure => simp at healthy
  | latch operating failure => simp at healthy
  | admitWrite healthy active => exact absurd active (ended healthy)
  | _ => first
      | exact ended healthy
      | simp

/-- The answer of the cleanup request is awaited only after it was sent. -/
theorem Transition.sent_of
    (transition : Transition env call session pc next here events notify)
    (sent : here.afterAbort = true) :
    pc.afterAbort = true ∨ ∃ event ∈ events, event.isAbort = true := by
  induction transition with
  | sendAbort => exact Or.inr ⟨_, List.mem_singleton_self _, rfl⟩
  | abortAnswered => exact Or.inl rfl
  | _ => contradiction

/-- A failure on its way was raised. -/
theorem Transition.raised_of
    (transition : Transition env call session pc next here events notify) {failure : Failure}
    (pending : here.pendingFailure = some failure) :
    pc.pendingFailure = some failure ∨ .raised failure.disposition ∈ events := by
  induction transition with
  | publishFailure => exact Or.inl pending
  | raise | prepareFailed | initializeFailed | publishUploadIdLate =>
      cases pending
      exact Or.inr (List.mem_singleton_self _)
  | _ => contradiction

/-- An ambiguous failure is what suppresses the abort. -/
theorem Transition.suppressed_of
    (transition : Transition env call session pc next here events notify)
    (suppressed : next.abortSuppressed = true) :
    session.abortSuppressed = true ∨ ∃ failure,
      pc.pendingFailure = some failure ∧ failure.disposition = .ambiguous := by
  induction transition with
  | publishFailure | failOperation =>
      rename_i session failure
      by_cases before : session.abortSuppressed = true
      · exact Or.inl before
      · refine Or.inr ⟨failure, rfl, ?_⟩
        simpa [latchFailureLocked, before] using suppressed
  | _ => exact Or.inl suppressed

/-- A cleanup that leaves a published upload alone has been told to. -/
theorem Transition.left_alone (coherent : Coherent session) (present : At call session pc)
    (transition : Transition env call session pc next here events notify)
    (pending : session.cleanupState ≠ .complete) (failed : next.failed = true)
    (complete : next.cleanupState = .complete)
    (known : next.multipartUploadId.isSome = true) :
    session.abortSuppressed = true ∨ pc.afterAbort = true := by
  induction transition with
  | releaseNothing latched last unclaimed nothing =>
      rename_i session releaser
      rcases nothing with unknown | suppressed | absent
      · have ambiguous : session.failureDisposition = .ambiguous := by
          cases disposition : session.failureDisposition with
          | definitive => exact absurd disposition unknown
          | ambiguous => rfl
        exact Or.inl (coherent.suppressed latched ambiguous)
      · exact Or.inl suppressed
      · simp [absent] at known
  | publishRelease => exact Or.inr rfl
  | abortNothing idle healthy nothing =>
      exact absurd (healthy.symm.trans failed) Bool.false_ne_true
  | publishAbort =>
      have healthy := present.healthy rfl
      exact absurd (healthy.symm.trans failed) Bool.false_ne_true
  | _ => contradiction

end Steps

/-! ## Multipart uploads along runs -/

/-- What must hold of the past of a request to the multipart interface. -/
def Single (before : List Event) : Event → Prop
  | .initializePost => ∀ past ∈ before, past.isInitialize = false
  | .partPut _ uploadId _ | .abortDelete uploadId => uploadIds before = [uploadId]
  | .completionPost uploadId _ =>
      uploadIds before = [uploadId] ∧ ∀ past ∈ before, past.isCompletion = false
  | _ => True

/-- How the trace of a session bears on its multipart upload. -/
structure MultipartTrace {ι : Type u} (world : UploadWorld ι) : Prop where
  initialized : ∀ event ∈ world.events, event.isInitialize = true →
    world.shared.initializationState ≠ .notStarted ∧
      ∀ thread, (world.control thread).request ≠ some .initializePost
  unknown : world.shared.multipartUploadId = none →
    (∀ thread, (world.control thread).publishing? = none) → uploadIds world.events = []
  learned : ∀ thread uploadId, (world.control thread).publishing? = some uploadId →
    uploadIds world.events = [uploadId]
  published : ∀ uploadId, world.shared.multipartUploadId = some uploadId →
    uploadIds world.events = [uploadId]
  completed : ∀ event ∈ world.events, event.isCompletion = true →
    (world.shared.failed = false → world.shared.lifecycleState ≠ .active) ∧
      ∀ thread, (world.control thread).mayComplete = false
  completing : ∀ thread etags, (world.control thread).completion? = some etags →
    world.shared.partEtags = etags ∧ "" ∉ etags
  sent : ∀ thread, (world.control thread).afterAbort = true →
    ∃ event ∈ world.events, event.isAbort = true
  raised : ∀ thread failure, (world.control thread).pendingFailure = some failure →
    .raised failure.disposition ∈ world.events
  suppressed : world.shared.abortSuppressed = true → .raised .ambiguous ∈ world.events
  aborted : world.shared.failed = true → world.shared.cleanupState = .complete →
    world.shared.multipartUploadId.isSome = true →
      .raised .ambiguous ∈ world.events ∨ ∃ event ∈ world.events, event.isAbort = true
  guarded : Guarded Single world.events

section Worlds

variable {ι : Type u} {env : Env} {calls : ι → Call} {world : UploadWorld ι}
  {thread : ι} {next : Session} {here : Pc} {events : List Event} {notify : Bool}

theorem multipartTrace_initial : MultipartTrace (initialWorld : UploadWorld ι) where
  initialized := fun _ member => by simp [initialWorld, World.initial, World.events] at member
  unknown := fun _ _ => rfl
  learned := fun _ _ publishing => by contradiction
  published := fun _ known => by contradiction
  completed := fun _ member => by simp [initialWorld, World.initial, World.events] at member
  completing := fun _ _ completes => by contradiction
  sent := fun _ sent => by contradiction
  raised := fun _ _ pending => by contradiction
  suppressed := fun suppressed => by contradiction
  aborted := fun failed => by contradiction
  guarded := guarded_nil _

variable [DecidableEq ι]

private theorem initialized_advance (control : Control calls world)
    (trace : MultipartTrace world)
    (transition : Transition env (calls thread) world.shared (world.control thread)
      next here events notify) :
    ∀ event ∈ (world.advance thread next here events notify).events,
      event.isInitialize = true → next.initializationState ≠ .notStarted ∧
        ∀ other, ((world.advance thread next here events notify).control other).request ≠
          some .initializePost := by
  intro event member initializes
  have change := change_of_transition control.coherent (control.present thread) transition
  rw [World.events_advance, List.mem_append] at member
  have unsent (started : world.shared.initializationState ≠ .notStarted) :
      here.request ≠ some .initializePost := fun sends =>
    started (transition.request_initialize sends)
  rcases member with earlier | now
  · obtain ⟨started, elsewhere⟩ := trace.initialized event earlier initializes
    refine ⟨change.notStarted_mono started, fun other => ?_⟩
    by_cases same : other = thread
    · subst same
      simpa [World.advance] using unsent started
    · simpa [World.advance, same] using elsewhere other
  · cases event with
    | initializePost =>
        obtain ⟨sends, _, rfl⟩ := transition.request_of_mem now rfl
        have initializing := Pc.initializing_of_request sends
        have progress := (control.counted thread).initializing initializing
        refine ⟨by simp [progress], fun other => ?_⟩
        by_cases same : other = thread
        · subst same
          simpa [World.advance] using unsent (by simp [progress])
        · have separate := (control.apart (Ne.symm same)).initializing initializing
          intro sending
          have there := Pc.initializing_of_request
            (show (world.control other).request = _ by
              simpa [World.advance, same] using sending)
          rw [separate] at there
          contradiction
    | _ => contradiction

omit [DecidableEq ι] in
/-- Before an upload id is learned none was. -/
private theorem fresh_uploadId (control : Control calls world) (trace : MultipartTrace world)
    (initializing : (world.control thread).initializing = true)
    (learning : (world.control thread).publishing? = none) : uploadIds world.events = [] := by
  apply trace.unknown
  · have progress := (control.counted thread).initializing initializing
    have unpublished := mt control.coherent.uploadId.mpr (by simp [progress])
    simpa using unpublished
  · intro other
    by_cases same : other = thread
    · rw [same]
      exact learning
    · cases publishing : (world.control other).publishing? with
      | none => rfl
      | some uploadId =>
          have separate := (control.apart (Ne.symm same)).initializing initializing
          rw [Pc.initializing_of_publishing publishing] at separate
          contradiction

private theorem learned_advance (control : Control calls world) (trace : MultipartTrace world)
    (transition : Transition env (calls thread) world.shared (world.control thread)
      next here events notify) :
    ∀ other uploadId, ((world.advance thread next here events notify).control other).publishing? =
      some uploadId →
        uploadIds (world.advance thread next here events notify).events = [uploadId] := by
  intro other uploadId publishing
  rw [World.events_advance, uploadIds_append]
  rcases transition.uploadIds_eq with ⟨silent, elsewhere⟩ |
    ⟨fresh, initializing, learning, learned, single, rfl⟩
  · by_cases same : other = thread
    · subst same
      simp [World.advance, elsewhere] at publishing
    · rw [silent, List.append_nil]
      exact trace.learned other uploadId (by simpa [World.advance, same] using publishing)
  · by_cases same : other = thread
    · subst same
      have carried : fresh = uploadId := by
        simpa [World.advance, learned] using publishing
      rw [fresh_uploadId control trace initializing learning, single, carried]
      rfl
    · have separate := (control.apart (Ne.symm same)).initializing initializing
      rw [Pc.initializing_of_publishing
        (show (world.control other).publishing? = some uploadId by
          simpa [World.advance, same] using publishing)] at separate
      contradiction

private theorem published_advance (control : Control calls world)
    (trace : MultipartTrace world)
    (transition : Transition env (calls thread) world.shared (world.control thread)
      next here events notify) :
    ∀ uploadId, next.multipartUploadId = some uploadId →
      uploadIds (world.advance thread next here events notify).events = [uploadId] := by
  intro uploadId known
  rw [World.events_advance, uploadIds_append]
  rcases transition.uploadIds_eq with ⟨silent, elsewhere⟩ |
    ⟨fresh, initializing, learning, learned, single, rfl⟩
  · rw [silent, List.append_nil]
    rcases transition.publishes with ⟨same, _⟩ | ⟨published, publishing, now⟩
    · exact trace.published uploadId (same ▸ known)
    · rw [now] at known
      cases known
      exact trace.learned thread uploadId publishing
  · have progress := (control.counted thread).initializing initializing
    have finished := control.coherent.uploadId.mpr (by simp [known])
    rw [progress] at finished
    contradiction

private theorem unknown_advance (trace : MultipartTrace world)
    (transition : Transition env (calls thread) world.shared (world.control thread)
      next here events notify) :
    next.multipartUploadId = none →
      (∀ other, ((world.advance thread next here events notify).control other).publishing? =
        none) →
      uploadIds (world.advance thread next here events notify).events = [] := by
  intro unpublished unlearned
  have now : here.publishing? = none := by
    simpa [World.advance] using unlearned thread
  rw [World.events_advance, uploadIds_append]
  rcases transition.uploadIds_eq with ⟨silent, _⟩ |
    ⟨fresh, initializing, learning, learned, single, rfl⟩
  · rw [silent, List.append_nil]
    rcases transition.publishes with ⟨same, before⟩ | ⟨published, publishing, known⟩
    · refine trace.unknown (same ▸ unpublished) fun other => ?_
      by_cases moved : other = thread
      · rw [moved]
        exact before
      · simpa [World.advance, moved] using unlearned other
    · rw [known] at unpublished
      contradiction
  · rw [now] at learned
    contradiction

private theorem completed_advance (control : Control calls world)
    (trace : MultipartTrace world)
    (transition : Transition env (calls thread) world.shared (world.control thread)
      next here events notify) :
    ∀ event ∈ (world.advance thread next here events notify).events,
      event.isCompletion = true →
        (next.failed = false → next.lifecycleState ≠ .active) ∧ ∀ other,
          ((world.advance thread next here events notify).control other).mayComplete = false := by
  intro event member completes
  have change := change_of_transition control.coherent (control.present thread) transition
  rw [World.events_advance, List.mem_append] at member
  rcases member with earlier | now
  · obtain ⟨ended, elsewhere⟩ := trace.completed event earlier completes
    refine ⟨change.finalize_mono ended, fun other => ?_⟩
    by_cases same : other = thread
    · subst same
      by_contra again
      rcases transition.mayComplete_of (by simpa [World.advance] using again) with
        before | ⟨healthy, active⟩
      · rw [elsewhere other] at before
        contradiction
      · exact ended healthy active
    · simpa [World.advance, same] using elsewhere other
  · cases event with
    | completionPost uploadId etags =>
        obtain ⟨sends, single, rfl⟩ := transition.request_of_mem now rfl
        have sender := Pc.eq_sendCompletion sends
        have active : (world.control thread).active = true := by
          rw [sender]
          rfl
        have finalizing := (control.present thread).finalizing (by rw [sender]; rfl)
        refine ⟨fun _ => by simp [finalizing], fun other => ?_⟩
        by_cases same : other = thread
        · subst same
          have onward := transition.after_completion sender
          simp [World.advance, onward]
        · by_contra again
          have completing : (world.control other).mayComplete = true := by
            simpa [World.advance, same] using again
          have operating :=
            Pc.active_of_owner_finalize (Pc.finalize_of_mayComplete completing)
          have several := (control.apart (Ne.symm same)).active active operating
          have alone := (control.coherent.finalizing finalizing).1
          omega
    | _ => contradiction

private theorem completing_advance (control : Control calls world)
    (trace : MultipartTrace world)
    (transition : Transition env (calls thread) world.shared (world.control thread)
      next here events notify) :
    ∀ other etags,
      ((world.advance thread next here events notify).control other).completion? = some etags →
        next.partEtags = etags ∧ "" ∉ etags := by
  intro other etags completes
  by_cases same : other = thread
  · subst same
    exact transition.completion_of (by simpa [World.advance] using completes)
  · have before : (world.control other).completion? = some etags := by
      simpa [World.advance, same] using completes
    have finalize : (world.control other).owner = .finalize :=
      Pc.finalize_of_completion before
    have alone := (control.coherent.finalizing
      ((control.present other).finalizing finalize)).1
    have inactive : (world.control thread).active = false := by
      by_contra active
      have several := (control.apart (Ne.symm same)).active (by simpa using active)
        (Pc.active_of_owner_finalize finalize)
      omega
    rw [transition.partEtags_eq inactive]
    exact trace.completing other etags before

private theorem aborted_advance (control : Control calls world)
    (trace : MultipartTrace world)
    (transition : Transition env (calls thread) world.shared (world.control thread)
      next here events notify) :
    next.failed = true → next.cleanupState = .complete →
      next.multipartUploadId.isSome = true →
        .raised .ambiguous ∈ (world.advance thread next here events notify).events ∨
          ∃ event ∈ (world.advance thread next here events notify).events,
            event.isAbort = true := by
  intro failed complete known
  have present := control.present thread
  have before : .raised .ambiguous ∈ world.events ∨
      ∃ event ∈ world.events, event.isAbort = true := by
    by_cases already : world.shared.cleanupState = .complete
    · have change := change_of_transition control.coherent present transition
      have final := (change.settled control.coherent (control.counted thread) already).2
      have sameId : next.multipartUploadId = world.shared.multipartUploadId := by
        rcases transition.publishes with ⟨same, _⟩ | ⟨uploadId, publishing, _⟩
        · exact same
        · have idle := control.coherent.cleanup_idle (by simp [already])
          have operating := (control.counted thread).active
            (Pc.active_of_publishing publishing)
          omega
      exact trace.aborted (by rwa [Session.failed, final] at failed) already (sameId ▸ known)
    · rcases transition.left_alone control.coherent present already failed complete known with
        suppressed | sent
      · exact Or.inl (trace.suppressed suppressed)
      · exact Or.inr (trace.sent thread sent)
  rw [World.events_advance]
  rcases before with raised | ⟨event, member, aborts⟩
  · exact Or.inl (List.mem_append_left _ raised)
  · exact Or.inr ⟨event, List.mem_append_left _ member, aborts⟩

omit [DecidableEq ι] in
private theorem single_issue (control : Control calls world) (trace : MultipartTrace world)
    {event : Event} (sends : (world.control thread).request = some event) :
    Single world.events event := by
  have present := control.present thread
  have targeted {uploadId : String} (target : event.target? = some uploadId) :
      uploadIds world.events = [uploadId] :=
    trace.published uploadId (present.known uploadId (Pc.target_of_request sends target))
  cases event with
  | initializePost =>
      intro past member
      by_contra again
      exact (trace.initialized past member (by simpa using again)).2 thread sends
  | partPut number uploadId body => exact targeted rfl
  | abortDelete uploadId => exact targeted rfl
  | completionPost uploadId etags =>
      refine ⟨targeted rfl, fun past member => ?_⟩
      by_contra again
      have ended := (trace.completed past member (by simpa using again)).2 thread
      rw [Pc.eq_sendCompletion sends] at ended
      contradiction
  | _ => trivial

theorem MultipartTrace.advance (control : Control calls world) (trace : MultipartTrace world)
    (transition : Transition env (calls thread) world.shared (world.control thread)
      next here events notify) :
    MultipartTrace (world.advance thread next here events notify) where
  initialized := initialized_advance control trace transition
  unknown := unknown_advance trace transition
  learned := learned_advance control trace transition
  published := published_advance control trace transition
  completed := completed_advance control trace transition
  completing := completing_advance control trace transition
  sent := fun other sent => by
    have sentBefore : (∃ event ∈ world.events, event.isAbort = true) ∨
        ∃ event ∈ events, event.isAbort = true := by
      by_cases same : other = thread
      · subst same
        rcases transition.sent_of (by simpa [World.advance] using sent) with before | now
        · exact Or.inl (trace.sent other before)
        · exact Or.inr now
      · exact Or.inl (trace.sent other (by simpa [World.advance, same] using sent))
    rw [World.events_advance]
    rcases sentBefore with ⟨event, member, aborts⟩ | ⟨event, member, aborts⟩
    · exact ⟨event, List.mem_append_left _ member, aborts⟩
    · exact ⟨event, List.mem_append_right _ member, aborts⟩
  raised := fun other failure pending => by
    rw [World.events_advance, List.mem_append]
    by_cases same : other = thread
    · subst same
      exact (transition.raised_of (by simpa [World.advance] using pending)).imp
        (trace.raised other failure) id
    · exact Or.inl (trace.raised other failure (by simpa [World.advance, same] using pending))
  suppressed := fun suppressed => by
    rw [World.events_advance, List.mem_append]
    rcases transition.suppressed_of suppressed with before | ⟨failure, pending, ambiguous⟩
    · exact Or.inl (trace.suppressed before)
    · exact Or.inl (ambiguous ▸ trace.raised thread failure pending)
  aborted := aborted_advance control trace transition
  guarded := by
    apply guarded_advance _ trace.guarded transition
    · exact fun _ sends => single_issue control trace sends
    · intro before event other
      cases event <;> trivial

theorem Reachable.multipartTrace (reachable : Reachable env calls world) :
    MultipartTrace world :=
  reachable.invariant multipartTrace_initial
    (fun _ _ _ _ _ _ control trace transition => MultipartTrace.advance control trace transition)
    (fun _ _ trace => { trace with })

omit [DecidableEq ι] in
/-- Every request names the one upload id. -/
theorem MultipartTrace.target_eq (trace : MultipartTrace world) {event : Event}
    {target uploadId : String} (member : event ∈ world.events)
    (targets : event.target? = some target) (single : uploadIds world.events = [uploadId]) :
    target = uploadId := by
  obtain ⟨before, after, split⟩ := List.mem_iff_append.mp member
  have learned : uploadIds before = [target] := by
    have allowed := trace.guarded before event after split
    cases event with
    | partPut number named body =>
        cases targets
        exact allowed
    | abortDelete named =>
        cases targets
        exact allowed
    | completionPost named etags =>
        cases targets
        exact allowed.1
    | _ => contradiction
  rw [split, uploadIds_append, learned] at single
  simpa using congrArg List.head? single

omit [DecidableEq ι] in
/-- A failed session whose cleanup is complete has aborted the upload it
created exactly once, unless a failure was ambiguous. -/
theorem MultipartTrace.abort_once (control : Control calls world) (trace : MultipartTrace world)
    (cleanup : CleanupTrace world) (failed : world.shared.failed = true)
    (complete : world.shared.cleanupState = .complete)
    (created : uploadIds world.events ≠ []) (known : .raised .ambiguous ∉ world.events) :
    ∃ uploadId, uploadIds world.events = [uploadId] ∧
      .abortDelete uploadId ∈ world.events ∧ world.events.countP Event.isAbort = 1 := by
  have idle := control.coherent.cleanup_idle (by simp [complete])
  have settled (thread : ι) : (world.control thread).publishing? = none := by
    cases publishing : (world.control thread).publishing? with
    | none => rfl
    | some uploadId =>
        have operating := (control.counted thread).active (Pc.active_of_publishing publishing)
        omega
  cases published : world.shared.multipartUploadId with
  | none => exact absurd (trace.unknown published settled) created
  | some uploadId =>
      have single := trace.published uploadId published
      rcases trace.aborted failed complete (by simp [published]) with
        raised | ⟨event, member, aborts⟩
      · exact absurd raised known
      · cases event with
        | abortDelete target =>
            have same := trace.target_eq member rfl single
            have some := List.countP_pos_iff.mpr ⟨_, member, aborts⟩
            have atMost := cleanup.abort_le_one
            exact ⟨uploadId, single, same ▸ member, by omega⟩
        | _ => contradiction

/-- What one step leaves of the stored etags. -/
theorem step_stored (reachable : Reachable env calls world) {following : UploadWorld ι}
    {choice : Choice} (stepped : step (program env calls) world thread choice = some following)
    {slot : Nat} {etag : String} (nonempty : etag ≠ "")
    (stored : world.shared.partEtags[slot]? = some etag) :
    following.shared.partEtags[slot]? = some etag := by
  obtain ⟨awake, ⟨waits, rfl⟩ | ⟨shared, control, new, notify, advances, rfl⟩⟩ :=
    step_cases stepped
  · exact stored
  · cases advance_of_callStep advances with
    | once transition => exact reachable.tickets.stored transition nonempty stored
    | twice first second =>
        have between := reachable.tickets.stored first nonempty stored
        change shared.partEtags[slot]? = some etag
        rw [second.partEtags_eq rfl]
        exact between

/-- One multipart upload serves the whole session: it is created at most once,
every request names it after it was published, it is completed at most once by
a `Finalize` that is alone and has all etags, a definitive failure aborts it
exactly once before any call reports the failure, and no stored etag is
replaced. -/
theorem multipartUpload_single (env : Env) (calls : ι → Call)
    (reachable : Reachable env calls world) :
    world.events.countP Event.isInitialize ≤ 1 ∧
    (∀ thread choice following new event uploadId,
      step (program env calls) world thread choice = some following →
      following.events = world.events ++ new → event ∈ new →
      event.target? = some uploadId → world.shared.multipartUploadId = some uploadId ∧
        uploadIds world.events = [uploadId]) ∧
    (∀ final thread result, world.shared.failed = true → UploadRun env calls world final →
      (∀ result, world.control thread ≠ .done result) →
      final.control thread = .done result → uploadIds final.events ≠ [] →
      .raised .ambiguous ∉ final.events → ∃ uploadId, uploadIds final.events = [uploadId] ∧
        .abortDelete uploadId ∈ final.events ∧ final.events.countP Event.isAbort = 1) ∧
    world.events.countP Event.isCompletion ≤ 1 ∧
    (∀ thread choice following new uploadId (etags : List String),
      step (program env calls) world thread choice = some following →
      following.events = world.events ++ new → .completionPost uploadId etags ∈ new →
      (∀ other, other ≠ thread → (world.control other).active = false) ∧
        world.shared.activeOperations = 1 ∧ etags = world.shared.partEtags ∧
        ∀ number data, .reserved number data ∈ world.events →
          ∃ etag, etag ≠ "" ∧ etags[number - 1]? = some etag) ∧
    ∀ thread choice following (slot : Nat) (etag : String),
      step (program env calls) world thread choice = some following → etag ≠ "" →
      world.shared.partEtags[slot]? = some etag →
        following.shared.partEtags[slot]? = some etag := by
  have control := reachable.control
  have trace := reachable.multipartTrace
  refine ⟨?_, ?_, ?_, ?_, ?_, fun _ _ _ _ _ stepped nonempty stored =>
    step_stored reachable stepped nonempty stored⟩
  · apply trace.guarded.countP_le_one
    intro before event allowed initializes
    cases event with
    | initializePost => exact allowed
    | _ => contradiction
  · intro thread choice following new event uploadId stepped emitted member target
    have request : event.isRequest = true := by
      cases event <;> first
        | rfl
        | contradiction
    have sends := step_request stepped emitted member request
    have published := (control.present thread).known uploadId
      (Pc.target_of_request sends target)
    exact ⟨published, trace.published uploadId published⟩
  · intro final thread result failed run pending ended created known
    have later : Reachable env calls final := reachable.trans run
    have complete := complete_of_ended reachable run failed pending ended
    have still := (UploadRun.invariant (motive := fun world => world.shared.failed = true)
      (fun world mover _ _ _ _ control failed transition =>
        (change_of_transition control.coherent (control.present mover)
          transition).failed_mono failed) (fun _ _ failed => failed) run control failed).2
    exact later.multipartTrace.abort_once later.control later.cleanupTrace still complete
      created known
  · apply trace.guarded.countP_le_one
    intro before event allowed completes
    cases event with
    | completionPost uploadId etags => exact allowed.2
    | _ => contradiction
  · intro thread choice following new uploadId etags stepped emitted member
    have sender := Pc.eq_sendCompletion (step_request stepped emitted member rfl)
    have finalizing := (control.present thread).finalizing (by rw [sender]; rfl)
    have alone := (control.coherent.finalizing finalizing).1
    obtain ⟨etagsEq, stored⟩ := trace.completing thread etags (by rw [sender]; rfl)
    refine ⟨fun other different => ?_, alone, etagsEq.symm, fun number data reserved => ?_⟩
    · by_contra active
      have several := (control.apart different).active (by simpa using active)
        (by rw [sender]; rfl)
      omega
    · obtain ⟨positive, bound⟩ := reachable.tickets.reserved number data reserved
      rw [etagsEq] at bound
      obtain ⟨etag, found⟩ : ∃ etag, etags[number - 1]? = some etag :=
        ⟨_, List.getElem?_eq_getElem (by omega)⟩
      refine ⟨etag, ?_, found⟩
      rintro rfl
      exact stored (List.mem_of_getElem? found)

end Worlds

/-- A first write fails on its offset while a second one creates the upload; the
late upload id is aborted before either call ends. -/
def lateCalls : Fin 2 → Call
  | 0 => .write [1, 2] 0
  | 1 => .write [3] 1

/-- The upload is being created when the second write fails. -/
def beforeLateId : UploadWorld (Fin 2) :=
  play (program smallEnv lateCalls) initialWorld
    ([0, 0, 0, 0, 0, 1, 1, 1].map fun call => (call, initiated))

def afterLateId : UploadWorld (Fin 2) :=
  play (program smallEnv lateCalls) beforeLateId
    ([1, 0, 0, 0, 0, 0, 0, 0, 1].map fun call => (call, initiated))

theorem multipartUpload_single_lateId :
    uploadIds afterLateId.events = ["id"] ∧ ∃ uploadId,
      uploadIds afterLateId.events = [uploadId] ∧
        .abortDelete uploadId ∈ afterLateId.events ∧
        afterLateId.events.countP Event.isAbort = 1 := by
  have reachable : Reachable smallEnv lateCalls beforeLateId := run_play _ _ _
  have run : UploadRun smallEnv lateCalls beforeLateId afterLateId := run_play _ _ _
  have learned : uploadIds afterLateId.events = ["id"] := by decide
  have failed : beforeLateId.shared.failed = true := by decide
  have pending (result : CallResult) : beforeLateId.control 1 ≠ .done result := by
    have releasing : beforeLateId.control 1 = .releaseOperation .fail := by decide
    simp [releasing]
  have ended : afterLateId.control 1 =
      .done (.threw afterLateId.shared.finalError) := by decide
  obtain ⟨_, _, aborted, _⟩ := multipartUpload_single smallEnv lateCalls reachable
  exact ⟨learned, aborted afterLateId 1 _ failed run pending ended (by simp [learned])
    (by decide)⟩

end Httpfs.S3.Upload
