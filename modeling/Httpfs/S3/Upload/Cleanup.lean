import Httpfs.S3.Upload.Trace

/-!
# The cleanup request

`AbortMultipartUpload` destroys whatever was uploaded.  It is sent by the
operation that leaves a failed session last or by an `Abort` that found no
failure, never by both, never while anything runs, and never when a request of
unknown outcome might have published the object.
-/

namespace Httpfs.S3.Upload

open Httpfs.Transition
open Httpfs.Transition.Monitor

universe u

/-- What must not have happened before a request is sent. -/
def SafeToSend (before : List Event) : Event → Prop
  | .abortDelete _ =>
      (∀ past ∈ before, past.isAbort = false) ∧
        .raised .ambiguous ∉ before ∧ .published ∉ before
  | .partPut _ _ _ | .singlePut _ | .completionPost _ _ =>
      ∀ past ∈ before, past.isAbort = false
  | _ => True

section Traces

variable {ι : Type u} {env : Env} {calls : ι → Call} {world : UploadWorld ι}
  {thread : ι} {next : Session} {here : Pc} {events : List Event} {notify : Bool}

/-- How the trace of a session bears on its cleanup. -/
structure CleanupTrace (world : UploadWorld ι) : Prop where
  started : ∀ event ∈ world.events, event.isAbort = true →
    world.shared.cleanupState ≠ .none ∧
      ∀ thread uploadId, (world.control thread).request ≠ some (.abortDelete uploadId)
  ambiguous : .raised .ambiguous ∈ world.events → world.shared.abortSuppressed = true ∨
    ∃ thread failure, (world.control thread).pendingFailure = some failure ∧
      failure.disposition = .ambiguous
  published : .published ∈ world.events → world.shared.lifecycleState = .finalized ∨
    ∃ thread, world.control thread = .finishFinalize
  guarded : Guarded SafeToSend world.events

theorem cleanupTrace_initial : CleanupTrace (initialWorld : UploadWorld ι) where
  started := fun event member => by simp [initialWorld, World.initial, World.events] at member
  ambiguous := fun member => by simp [initialWorld, World.initial, World.events] at member
  published := fun member => by simp [initialWorld, World.initial, World.events] at member
  guarded := guarded_nil _

/-- Nothing was ever aborted while an operation is active. -/
theorem CleanupTrace.unaborted (trace : CleanupTrace world) (control : Control calls world)
    (operating : 0 < world.shared.activeOperations) :
    ∀ past ∈ world.events, past.isAbort = false := by
  intro past member
  by_contra aborts
  have claimed := (trace.started past member (by simpa using aborts)).1
  exact claimed (control.coherent.unclaimed operating)

variable [DecidableEq ι]

private theorem started_advance (control : Control calls world)
    (started : ∀ event ∈ world.events, event.isAbort = true →
      world.shared.cleanupState ≠ .none ∧
        ∀ thread uploadId, (world.control thread).request ≠ some (.abortDelete uploadId))
    (transition : Transition env (calls thread) world.shared (world.control thread)
      next here events notify) :
    ∀ event ∈ (world.advance thread next here events notify).events, event.isAbort = true →
      next.cleanupState ≠ .none ∧ ∀ other uploadId,
        ((world.advance thread next here events notify).control other).request ≠
          some (.abortDelete uploadId) := by
  intro event member aborts
  have present := control.present thread
  have change := change_of_transition control.coherent present transition
  have unprepared (claimed : world.shared.cleanupState ≠ .none) (uploadId : String) :
      here.request ≠ some (.abortDelete uploadId) := fun sends =>
    claimed (transition.unclaimed_of_sendAbort present sends)
  rw [World.events_advance, List.mem_append] at member
  rcases member with earlier | now
  · obtain ⟨claimed, unsent⟩ := started event earlier aborts
    refine ⟨change.cleanup_mono claimed, fun other uploadId => ?_⟩
    by_cases same : other = thread
    · subst same
      simpa [World.advance] using unprepared claimed uploadId
    · simpa [World.advance, same] using unsent other uploadId
  · cases event with
    | abortDelete uploadId =>
        obtain ⟨sends, _, unchanged⟩ := transition.request_of_mem now rfl
        obtain ⟨owner, sender⟩ := Pc.eq_sendAbort sends
        have cleaning : (world.control thread).cleaning = true := by
          rw [sender]
          rfl
        have progress := (control.counted thread).cleaning cleaning
        refine ⟨by simp [unchanged, progress], fun other uploadId => ?_⟩
        by_cases same : other = thread
        · subst same
          simpa [World.advance] using unprepared (by simp [progress]) uploadId
        · intro sending
          obtain ⟨otherOwner, otherSender⟩ := Pc.eq_sendAbort
            (show (world.control other).request = _ by simpa [World.advance, same] using sending)
          have separate := (control.apart (Ne.symm same)).cleaning cleaning
          rw [otherSender] at separate
          contradiction
    | _ => contradiction

private theorem ambiguous_advance (control : Control calls world)
    (ambiguous : .raised .ambiguous ∈ world.events → world.shared.abortSuppressed = true ∨
      ∃ thread failure, (world.control thread).pendingFailure = some failure ∧
        failure.disposition = .ambiguous)
    (transition : Transition env (calls thread) world.shared (world.control thread)
      next here events notify) :
    .raised .ambiguous ∈ (world.advance thread next here events notify).events →
      next.abortSuppressed = true ∨ ∃ other failure,
        ((world.advance thread next here events notify).control other).pendingFailure =
          some failure ∧ failure.disposition = .ambiguous := by
  intro member
  have change := change_of_transition control.coherent (control.present thread) transition
  rw [World.events_advance, List.mem_append] at member
  rcases member with earlier | now
  · rcases ambiguous earlier with suppressed | ⟨other, failure, pending, unknown⟩
    · exact Or.inl (change.suppressed_mono suppressed)
    · by_cases same : other = thread
      · subst same
        exact Or.inl (transition.suppressed_of_pending pending unknown)
      · exact Or.inr ⟨other, failure, by simpa [World.advance, same] using pending, unknown⟩
  · obtain ⟨failure, pending, unknown⟩ := transition.raised_of_mem now
    exact Or.inr ⟨thread, failure, by simpa [World.advance] using pending, unknown⟩

private theorem finalized_advance (control : Control calls world)
    (published : .published ∈ world.events → world.shared.lifecycleState = .finalized ∨
      ∃ thread, world.control thread = .finishFinalize)
    (transition : Transition env (calls thread) world.shared (world.control thread)
      next here events notify) :
    .published ∈ (world.advance thread next here events notify).events →
      next.lifecycleState = .finalized ∨ ∃ other,
        (world.advance thread next here events notify).control other = .finishFinalize := by
  intro member
  have change := change_of_transition control.coherent (control.present thread) transition
  rw [World.events_advance, List.mem_append] at member
  rcases member with earlier | now
  · rcases published earlier with finalized | ⟨other, finishing⟩
    · exact Or.inl (change.finalized_mono control.coherent (control.counted thread) finalized)
    · by_cases same : other = thread
      · subst same
        exact Or.inl (transition.finalized_of_finishing finishing)
      · exact Or.inr ⟨other, by simpa [World.advance, same] using finishing⟩
  · exact Or.inr ⟨thread, by simpa [World.advance] using transition.published_of_mem now⟩

omit [DecidableEq ι] in
private theorem safeToSend (control : Control calls world) (trace : CleanupTrace world)
    {event : Event} (sends : (world.control thread).request = some event) :
    SafeToSend world.events event := by
  cases event with
  | abortDelete uploadId =>
      obtain ⟨owner, sender⟩ := Pc.eq_sendAbort sends
      have progress := (control.counted thread).cleaning
        (show (world.control thread).cleaning = true by rw [sender]; rfl)
      have claimed : world.shared.cleanupState ≠ .none := by simp [progress]
      have idle := control.coherent.cleanup_idle claimed
      have quiet (other : ι) : (world.control other).active = false := by
        by_contra active
        have operating := (control.counted other).active (by simpa using active)
        omega
      refine ⟨?_, ?_, ?_⟩
      · intro past member
        by_contra aborts
        exact (trace.started past member (by simpa using aborts)).2 thread uploadId sends
      · intro raised
        rcases trace.ambiguous raised with suppressed | ⟨other, failure, pending, _⟩
        · rw [(control.coherent.cleanup_target progress).2] at suppressed
          contradiction
        · have inactive := quiet other
          cases position : world.control other <;>
            simp_all [Pc.pendingFailure, Pc.active]
      · intro published
        rcases trace.published published with finalized | ⟨other, finishing⟩
        · have healthy := (control.coherent.finalized finalized).2
          rcases control.coherent.cleanup_cause claimed with failed | aborting | aborted
          · rw [healthy] at failed
            contradiction
          · rw [finalized] at aborting
            contradiction
          · rw [finalized] at aborted
            contradiction
        · have inactive := quiet other
          rw [finishing] at inactive
          contradiction
  | partPut _ _ _ | singlePut _ | completionPost _ _ =>
      exact trace.unaborted control
        ((control.counted thread).active (Pc.active_of_request sends rfl))
  | _ => trivial

theorem CleanupTrace.advance (control : Control calls world) (trace : CleanupTrace world)
    (transition : Transition env (calls thread) world.shared (world.control thread)
      next here events notify) :
    CleanupTrace (world.advance thread next here events notify) where
  started := started_advance control trace.started transition
  ambiguous := ambiguous_advance control trace.ambiguous transition
  published := finalized_advance control trace.published transition
  guarded := by
    apply guarded_advance _ trace.guarded transition
    · exact fun _ sends => safeToSend control trace sends
    · intro before event other
      cases event <;> trivial

theorem Reachable.cleanupTrace (reachable : Reachable env calls world) :
    CleanupTrace world :=
  reachable.invariant cleanupTrace_initial
    (fun _ _ _ _ _ _ control trace transition => CleanupTrace.advance control trace transition)
    (fun _ _ trace => { trace with })

omit [DecidableEq ι] in
theorem CleanupTrace.abort_le_one (trace : CleanupTrace world) :
    world.events.countP Event.isAbort ≤ 1 := by
  apply trace.guarded.countP_le_one
  intro before event allowed aborts
  cases event with
  | abortDelete uploadId => exact allowed.1
  | _ => contradiction

/-- The cleanup request is sent at most once, only when no operation is active
and for the published upload id, never after an ambiguous failure and never
after the object was published; no data is uploaded and nothing is published
after it. -/
theorem abortMultipartUpload_safe (env : Env) (calls : ι → Call)
    (reachable : Reachable env calls world) :
    world.events.countP Event.isAbort ≤ 1 ∧
    (∀ thread choice next new uploadId,
      step (program env calls) world thread choice = some next →
      next.events = world.events ++ new → .abortDelete uploadId ∈ new →
        world.shared.activeOperations = 0 ∧
          world.shared.multipartUploadId = some uploadId) ∧
    ∀ before uploadId after, world.events = before ++ .abortDelete uploadId :: after →
      .raised .ambiguous ∉ before ∧ .published ∉ before ∧
        ∀ event ∈ after, event.isUpload = false := by
  have control := reachable.control
  have trace := reachable.cleanupTrace
  refine ⟨trace.abort_le_one, ?_, ?_⟩
  · intro thread choice next new uploadId stepped emitted member
    have sends := step_request stepped emitted member rfl
    obtain ⟨owner, sender⟩ := Pc.eq_sendAbort sends
    have progress := (control.counted thread).cleaning (by rw [sender]; rfl)
    exact ⟨control.coherent.cleanup_idle (by simp [progress]),
      (control.present thread).known uploadId (by rw [sender]; rfl)⟩
  · intro before uploadId after split
    have allowed := trace.guarded before _ after split
    refine ⟨allowed.2.1, allowed.2.2, fun event member => ?_⟩
    by_contra uploads
    obtain ⟨between, late⟩ := trace.guarded.of_mem_after split member
    cases event with
    | partPut _ _ _ | singlePut _ | completionPost _ _ =>
        have absent := late (.abortDelete uploadId) (by simp)
        contradiction
    | _ => exact uploads rfl

end Traces

/-- A part is refused, and the write that reserved it cleans up. -/
def refusedPart : UploadWorld Unit :=
  play (program smallEnv fun _ => .write [1, 2] 0) initialWorld
    ([initiated, initiated, initiated, initiated, initiated, initiated, initiated, initiated,
      initiated, refused, refused, refused, refused].map fun choice => ((), choice))

theorem abortMultipartUpload_safe_refusedPart :
    .abortDelete "id" ∈ refusedPart.events ∧ refusedPart.events.countP Event.isAbort ≤ 1 :=
  ⟨by decide, (abortMultipartUpload_safe smallEnv _ (run_play _ _ _)).1⟩

end Httpfs.S3.Upload
