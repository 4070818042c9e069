import Httpfs.S3.Upload.Trace

/-!
# Failures are stable

The first latched error decides how every later call ends.  Its snapshot is
complete once the cleanup is, nothing is thrown before, and nothing is
published after.
-/

namespace Httpfs.S3.Upload

open Httpfs.Transition
open Httpfs.Transition.Monitor

universe u

namespace Event

/-- The error an event latches. -/
def latched? : Event → Option ErrorData
  | .latched error => some error
  | _ => none

/-- The outcome of the cleanup request an event reports. -/
def answer? : Event → Option (Option ErrorData)
  | .abortAnswered abortError => some abortError
  | _ => none

/-- A request that publishes the object. -/
def publishes : Event → Bool
  | .singlePut _ | .completionPost _ _ => true
  | _ => false

end Event

/-- The first latched error of a trace. -/
def firstError (events : List Event) : Option ErrorData :=
  events.findSome? Event.latched?

/-- The outcomes of the cleanup requests of a trace. -/
def answers (events : List Event) : List (Option ErrorData) :=
  events.filterMap Event.answer?

/-! ## What is final -/

section Changes

variable {session next : Session} {pc : Pc}

theorem primaryError_latchFailureLocked (session : Session) (error : ErrorData)
    (disposition : FailureDisposition) :
    (latchFailureLocked session error disposition).primaryFailure.primaryError =
      session.primaryFailure.primaryError.or (some error) := by
  cases already : session.primaryFailure.primaryError with
  | none => simp [latchFailureLocked, Session.failed, already]
  | some first => simp [latchFailureLocked, Session.failed, already]

theorem Change.primaryError_stable (change : Change pc session next)
    (failed : session.failed = true) :
    next.primaryFailure.primaryError = session.primaryFailure.primaryError := by
  obtain ⟨first, latched⟩ := Option.isSome_iff_exists.mp failed
  induction change with
  | publishFailure operating initializing failure =>
      rw [primaryError_latchFailureLocked, latched]
      rfl
  | latch operating failure =>
      rw [primaryError_latchFailureLocked, latched]
      rfl
  | _ => rfl

/-- After the cleanup nothing operates and nobody cleans up. -/
theorem Change.settled (change : Change pc session next) (coherent : Coherent session)
    (counted : Counted session pc) (complete : session.cleanupState = .complete) :
    next.cleanupState = .complete ∧ next.primaryFailure = session.primaryFailure := by
  have idle := coherent.cleanup_idle (by simp [complete])
  have inactive : pc.active = false := by
    by_contra active
    have operating := counted.active (by simpa using active)
    omega
  have clean : pc.cleaning = false := by
    by_contra cleaning
    have progress := counted.cleaning (by simpa using cleaning)
    rw [complete] at progress
    contradiction
  induction change <;> simp_all

end Changes

/-! ## How a transition ends a call -/

namespace Pc

/-- The cleanup request has not been answered yet. -/
def awaitsAnswer : Pc → Bool
  | .sendAbort _ _ | .awaitAbort _ _ => true
  | _ => false

theorem cleaning_of_awaitsAnswer {pc : Pc} (awaits : pc.awaitsAnswer = true) :
    pc.cleaning = true := by
  cases pc <;> first
    | rfl
    | contradiction

end Pc

section Endings

variable {env : Env} {call : Call} {session next : Session} {pc here : Pc}
  {events : List Event} {notify : Bool}

/-- The exception every caller gets for the failure of a session. -/
def Session.finalError (session : Session) : ErrorData :=
  throwFailure session.primaryFailure

theorem finalError_congr (same : next.primaryFailure = session.primaryFailure) :
    next.finalError = session.finalError :=
  congrArg throwFailure same

/-- A call other than `Abort` that ends after a failure throws the final error,
or its claim swallows it. -/
theorem Transition.ends_failed (coherent : Coherent session) (present : At call session pc)
    (failed : session.failed = true) (operation : call ≠ .abort)
    (transition : Transition env call session pc next here events notify)
    {result : CallResult} (ends : here = .done result) :
    next.cleanupState = .complete ∧
      (result = .threw next.finalError ∨ result = .destroyed) := by
  have swallow (error : ErrorData) (releaser : Releaser) :
      failedResult error releaser = .threw error ∨
        failedResult error releaser = .destroyed := by
    cases releaser <;> simp [failedResult]
  induction transition with
  | throwLatched operation failed complete =>
      cases ends
      exact ⟨complete, Or.inl rfl⟩
  | reject operation healthy refused => simp [failed] at healthy
  | alreadyFinalized healthy finalized idle => simp [failed] at healthy
  | finishFinalize =>
      have healthy := (coherent.finalizing (present.finalizing rfl)).2
      simp [failed] at healthy
  | releaseHealthy healthy => simp [failed] at healthy
  | releaseNothing failed last unclaimed nothing =>
      cases ends
      exact ⟨rfl, swallow _ _⟩
  | releaseCleaned failed complete =>
      cases ends
      exact ⟨complete, swallow _ _⟩
  | cleaned complete =>
      cases ends
      exact ⟨complete, swallow _ _⟩
  | publishRelease =>
      cases ends
      exact ⟨rfl, swallow _ _⟩
  | abortObserved | abortNothing | abortCleaned | publishAbort =>
      exact absurd (Call.eq_abort present.owned) operation
  | abortFinalized finalized => exact absurd rfl operation
  | abortAborted aborted => exact absurd rfl operation
  | _ => contradiction

/-- An admitted operation that throws has seen the failure and its cleanup. -/
theorem Transition.ends_admitted (present : At call session pc) (begun : pc ≠ .start)
    (operation : call ≠ .abort)
    (transition : Transition env call session pc next here events notify)
    {error : ErrorData} (ends : here = .done (.threw error)) : session.failed = true := by
  induction transition with
  | throwLatched | reject | alreadyFinalized => exact absurd rfl begun
  | releaseHealthy healthy =>
      rename_i releaser
      cases releaser with
      | fail => exact present.failed rfl
      | finish | destroy => simp [releasedResult] at ends
  | releaseNothing failed | releaseCleaned failed => exact failed
  | cleaned | publishRelease => exact present.failed rfl
  | abortObserved idle failed => exact failed
  | abortCleaned => exact present.failed rfl
  | publishAbort => exact absurd (Call.eq_abort present.owned) operation
  | _ => simp at ends

/-- An `Abort` of a failed session throws the final error, unless another one
has aborted the session before it. -/
theorem Transition.ends_abort (coherent : Coherent session) (present : At .abort session pc)
    (failed : session.failed = true)
    (transition : Transition env .abort session pc next here events notify)
    {result : CallResult} (ends : here = .done result) :
    next.cleanupState = .complete ∧ (result = .threw next.finalError ∨
      (result = .aborted true ∧ session.lifecycleState = .aborted)) := by
  have notReleaser (releaser : Releaser) : Call.abort.owns releaser.owner = false := by
    cases releaser <;> rfl
  have owned := present.owned
  generalize isAbort : Call.abort = operation at transition
  induction transition with
  | throwLatched operation | reject operation => exact absurd isAbort.symm operation
  | releaseHealthy | releaseNothing | releaseCleaned | cleaned | publishRelease =>
      exact absurd (owned.symm.trans (notReleaser _)) (by simp)
  | abortFinalized finalized =>
      have healthy := (coherent.finalized finalized).2
      simp [failed] at healthy
  | abortAborted aborted =>
      exact ⟨(coherent.aborted aborted).2, Or.inr ⟨(Pc.done.inj ends).symm, aborted⟩⟩
  | abortObserved idle failed complete =>
      exact ⟨complete, Or.inl (Pc.done.inj ends).symm⟩
  | abortNothing idle healthy nothing => simp [failed] at healthy
  | abortCleaned complete => exact ⟨complete, Or.inl (Pc.done.inj ends).symm⟩
  | publishAbort =>
      have healthy := present.healthy rfl
      simp [failed] at healthy
  | _ => contradiction

theorem Transition.not_start
    (transition : Transition env call session pc next here events notify) : here ≠ .start := by
  induction transition <;> simp

/-- The latched error of a step is the one its trace shows. -/
theorem Transition.primaryError_eq
    (transition : Transition env call session pc next here events notify) :
    next.primaryFailure.primaryError =
      session.primaryFailure.primaryError.or (firstError events) := by
  induction transition with
  | prepared healthy placed numbers split =>
      have silent : ∀ part : PreparedPart,
          Event.latched? (.reserved part.partNumber part.data) = none := fun _ => rfl
      simp [firstError, List.findSome?_cons, Event.latched?, List.findSome?_map, Function.comp_def,
        List.findSome?_eq_none_iff.mpr]
  | publishFailure | failOperation => exact primaryError_latchFailureLocked _ _ _
  | _ => simp [firstError, List.findSome?_cons, Event.latched?]

/-- The answer to the cleanup request is carried to where it is published. -/
theorem Transition.answers_eq
    (transition : Transition env call session pc next here events notify) :
    (answers events = [] ∧ ∀ owner abortError, here ≠ .publishCleanup owner abortError) ∨
      ∃ uploadId owner abortError, pc = .awaitAbort uploadId owner ∧
        here = .publishCleanup owner abortError ∧ answers events = [abortError] ∧
        next = session := by
  induction transition with
  | abortAnswered => exact Or.inr ⟨_, _, _, rfl, rfl, rfl, rfl⟩
  | prepared healthy placed numbers split =>
      refine Or.inl ⟨?_, by simp⟩
      simp [answers, Event.answer?]
  | _ => exact Or.inl ⟨rfl, by simp⟩

/-- The cleanup of a failed session ends without a request, or with the answer
of the one request. -/
theorem Transition.completes (present : At call session pc)
    (transition : Transition env call session pc next here events notify)
    (pending : session.cleanupState ≠ .complete) (failed : next.failed = true)
    (complete : next.cleanupState = .complete) :
    answers events = [] ∧
      ((session.cleanupState = .none ∧
          next.primaryFailure.abortError = session.primaryFailure.abortError) ∨
        ∃ owner abortError, pc = .publishCleanup owner abortError ∧
          next.primaryFailure.abortError =
            session.primaryFailure.abortError.or abortError) := by
  induction transition with
  | releaseNothing failed last unclaimed nothing => exact ⟨rfl, Or.inl ⟨unclaimed, rfl⟩⟩
  | publishRelease => exact ⟨rfl, Or.inr ⟨_, _, rfl, rfl⟩⟩
  | abortNothing idle healthy nothing =>
      exact absurd (healthy.symm.trans failed) Bool.false_ne_true
  | publishAbort =>
      have healthy := present.healthy rfl
      exact absurd (healthy.symm.trans failed) Bool.false_ne_true
  | _ => contradiction

/-- A failed session is aborted by an `Abort` that throws the final error. -/
theorem Transition.aborts (present : At call session pc)
    (transition : Transition env call session pc next here events notify)
    (before : session.lifecycleState ≠ .aborted) (failed : next.failed = true)
    (aborted : next.lifecycleState = .aborted) :
    call = .abort ∧ here = .done (.threw next.finalError) := by
  induction transition with
  | abortObserved | abortCleaned => exact ⟨Call.eq_abort present.owned, rfl⟩
  | abortNothing idle healthy nothing =>
      exact absurd (healthy.symm.trans failed) Bool.false_ne_true
  | publishAbort =>
      have healthy := present.healthy rfl
      exact absurd (healthy.symm.trans failed) Bool.false_ne_true
  | failOperation | publishFailure =>
      exact absurd (latchFailureLocked_lifecycle _ _ _ aborted (by simp)) before
  | _ => contradiction

theorem Transition.not_done
    (transition : Transition env call session pc next here events notify)
    (result : CallResult) : pc ≠ .done result := by
  intro ended
  induction transition with
  | raise raises =>
      subst ended
      contradiction
  | _ => contradiction

/-- Nobody comes to wait for an answer once the cleanup has begun. -/
theorem Transition.awaited (present : At call session pc)
    (transition : Transition env call session pc next here events notify)
    (awaits : here.awaitsAnswer = true) :
    pc.awaitsAnswer = true ∨ session.cleanupState = .none := by
  induction transition with
  | releaseOwner failed last unclaimed => exact Or.inr unclaimed
  | abortOwner idle healthy => exact Or.inr (present.waiting rfl healthy)
  | sendAbort => exact Or.inl rfl
  | _ => contradiction

end Endings

/-! ## Failures along runs -/

/-- A completion POST or a single PUT comes before every failure. -/
def Healthy (before : List Event) (event : Event) : Prop :=
  event.publishes = true → firstError before = none

/-- How the trace of a session bears on its failure. -/
structure FailureTrace {ι : Type u} (calls : ι → Call) (world : UploadWorld ι) : Prop where
  recorded : world.shared.primaryFailure.primaryError = firstError world.events
  answered : answers world.events ≠ [] → world.shared.cleanupState ≠ .none ∧
    ∀ thread, (world.control thread).awaitsAnswer = false
  publishing : ∀ thread owner abortError,
    world.control thread = .publishCleanup owner abortError →
      answers world.events = [abortError]
  reported : world.shared.failed = true → world.shared.cleanupState = .complete →
    world.shared.primaryFailure.abortError = (answers world.events).head?.join
  observed : world.shared.failed = true → world.shared.lifecycleState = .aborted →
    ∃ thread, calls thread = .abort ∧
      world.control thread = .done (.threw world.shared.finalError)
  guarded : Guarded Healthy world.events

section Worlds

variable {ι : Type u} {env : Env} {calls : ι → Call} {world : UploadWorld ι}
  {thread : ι} {next : Session} {here : Pc} {events : List Event} {notify : Bool}

theorem failureTrace_initial : FailureTrace calls (initialWorld : UploadWorld ι) where
  recorded := rfl
  answered := fun some => absurd rfl some
  publishing := fun _ _ _ position => by simp [initialWorld, World.initial] at position
  reported := fun failed => by simp [initialWorld, World.initial, Session.initial, Session.failed] at failed
  observed := fun failed => by simp [initialWorld, World.initial, Session.initial, Session.failed] at failed
  guarded := guarded_nil _

@[simp]
theorem firstError_append (first second : List Event) :
    firstError (first ++ second) = (firstError first).or (firstError second) := by
  simp [firstError, List.findSome?_append]

@[simp]
theorem answers_append (first second : List Event) :
    answers (first ++ second) = answers first ++ answers second := by
  simp [answers]

variable [DecidableEq ι]

private theorem answered_advance (control : Control calls world)
    (trace : FailureTrace calls world)
    (transition : Transition env (calls thread) world.shared (world.control thread)
      next here events notify) :
    answers (world.advance thread next here events notify).events ≠ [] →
      next.cleanupState ≠ .none ∧ ∀ other,
        ((world.advance thread next here events notify).control other).awaitsAnswer = false := by
  intro some
  have present := control.present thread
  have change := change_of_transition control.coherent present transition
  rw [World.events_advance, answers_append] at some
  rcases transition.answers_eq with ⟨silent, _⟩ | ⟨uploadId, owner, abortError, pcEq, rfl, _, rfl⟩
  · obtain ⟨claimed, settled⟩ := trace.answered (by simpa [silent] using some)
    refine ⟨change.cleanup_mono claimed, fun other => ?_⟩
    by_cases same : other = thread
    · subst same
      by_contra awaits
      rcases transition.awaited present (by simpa [World.advance] using awaits) with
        before | unclaimed
      · rw [settled other] at before
        contradiction
      · exact claimed unclaimed
    · simpa [World.advance, same] using settled other
  · have cleaning : (world.control thread).cleaning = true := by
      rw [pcEq]
      rfl
    refine ⟨by simp [(control.counted thread).cleaning cleaning], fun other => ?_⟩
    by_cases same : other = thread
    · subst same
      simp [World.advance, Pc.awaitsAnswer]
    · by_contra awaits
      have separate := (control.apart (Ne.symm same)).cleaning cleaning
      rw [Pc.cleaning_of_awaitsAnswer (by simpa [World.advance, same] using awaits)] at separate
      contradiction

private theorem publishing_advance (control : Control calls world)
    (trace : FailureTrace calls world)
    (transition : Transition env (calls thread) world.shared (world.control thread)
      next here events notify) :
    ∀ other owner abortError,
      (world.advance thread next here events notify).control other =
        .publishCleanup owner abortError →
      answers (world.advance thread next here events notify).events = [abortError] := by
  intro other owner abortError position
  rw [World.events_advance, answers_append]
  rcases transition.answers_eq with ⟨silent, elsewhere⟩ |
    ⟨uploadId, cleaner, outcome, pcEq, rfl, answer, rfl⟩
  · by_cases same : other = thread
    · subst same
      exact absurd (by simpa [World.advance] using position) (elsewhere owner abortError)
    · have before := trace.publishing other owner abortError
        (by simpa [World.advance, same] using position)
      rw [before, silent, List.append_nil]
  · have awaits : (world.control thread).awaitsAnswer = true := by
      rw [pcEq]
      rfl
    have unanswered : answers world.events = [] := by
      by_contra some
      have settled := (trace.answered some).2 thread
      rw [awaits] at settled
      contradiction
    by_cases same : other = thread
    · subst same
      have carried : outcome = abortError := by
        simp [World.advance] at position
        exact position.2
      rw [unanswered, answer, carried, List.nil_append]
    · have cleaning := Pc.cleaning_of_awaitsAnswer awaits
      have separate := (control.apart (Ne.symm same)).cleaning cleaning
      have there : world.control other = .publishCleanup owner abortError := by
        simpa [World.advance, same] using position
      rw [there] at separate
      contradiction

private theorem reported_advance (control : Control calls world)
    (trace : FailureTrace calls world)
    (transition : Transition env (calls thread) world.shared (world.control thread)
      next here events notify) :
    next.failed = true → next.cleanupState = .complete →
      next.primaryFailure.abortError =
        (answers (world.advance thread next here events notify).events).head?.join := by
  intro failed complete
  have present := control.present thread
  rw [World.events_advance, answers_append]
  by_cases already : world.shared.cleanupState = .complete
  · have change := change_of_transition control.coherent present transition
    obtain ⟨_, same⟩ := change.settled control.coherent (control.counted thread) already
    have silent : answers events = [] := by
      rcases transition.answers_eq with ⟨silent, _⟩ | ⟨uploadId, owner, _, pcEq, _⟩
      · exact silent
      · have progress := (control.counted thread).cleaning (by rw [pcEq]; rfl)
        rw [already] at progress
        contradiction
    rw [silent, List.append_nil, same]
    exact trace.reported (by rwa [Session.failed, same] at failed) already
  · have unreported : world.shared.primaryFailure.abortError = none := by
      by_contra reported
      exact already (control.coherent.abortError (Option.isSome_iff_ne_none.mpr reported)).2
    obtain ⟨silent, ⟨unclaimed, errorEq⟩ | ⟨owner, abortError, pcEq, errorEq⟩⟩ :=
      transition.completes present already failed complete
    · have unanswered : answers world.events = [] := by
        by_contra some
        exact (trace.answered some).1 unclaimed
      rw [silent, unanswered, errorEq, unreported]
      rfl
    · rw [silent, trace.publishing thread owner abortError pcEq, errorEq, unreported]
      cases abortError <;> rfl

private theorem observed_advance (control : Control calls world)
    (trace : FailureTrace calls world)
    (transition : Transition env (calls thread) world.shared (world.control thread)
      next here events notify) :
    next.failed = true → next.lifecycleState = .aborted →
      ∃ other, calls other = .abort ∧
        (world.advance thread next here events notify).control other =
          .done (.threw next.finalError) := by
  intro failed aborted
  have present := control.present thread
  by_cases already : world.shared.lifecycleState = .aborted
  · have change := change_of_transition control.coherent present transition
    have complete := (control.coherent.aborted already).2
    obtain ⟨_, same⟩ := change.settled control.coherent (control.counted thread) complete
    obtain ⟨other, aborting, ended⟩ :=
      trace.observed (by rwa [Session.failed, same] at failed) already
    have different : other ≠ thread := by
      rintro rfl
      exact transition.not_done _ ended
    refine ⟨other, aborting, ?_⟩
    rw [finalError_congr same]
    simpa [World.advance, different] using ended
  · obtain ⟨aborting, ends⟩ := transition.aborts present already failed aborted
    exact ⟨thread, aborting, by simpa [World.advance] using ends⟩

omit [DecidableEq ι] in
private theorem healthy_issue (control : Control calls world)
    (trace : FailureTrace calls world) {event : Event}
    (sends : (world.control thread).request = some event) : Healthy world.events event := by
  intro publishes
  have finalize : (world.control thread).owner = .finalize := by
    cases position : world.control thread with
    | sendSingle body => rfl
    | sendCompletion uploadId etags => rfl
    | sendInitialize part after | sendPart part after uploadId | sendAbort uploadId owner =>
        rw [position] at sends
        cases sends
        contradiction
    | _ =>
        rw [position] at sends
        contradiction
  have healthy := (control.coherent.finalizing
    ((control.present thread).finalizing finalize)).2
  rw [← trace.recorded]
  simpa [Session.failed] using healthy

theorem FailureTrace.advance (control : Control calls world)
    (trace : FailureTrace calls world)
    (transition : Transition env (calls thread) world.shared (world.control thread)
      next here events notify) :
    FailureTrace calls (world.advance thread next here events notify) where
  recorded := by
    rw [World.events_advance, firstError_append, ← trace.recorded]
    exact transition.primaryError_eq
  answered := answered_advance control trace transition
  publishing := publishing_advance control trace transition
  reported := reported_advance control trace transition
  observed := observed_advance control trace transition
  guarded := by
    apply guarded_advance _ trace.guarded transition
    · exact fun _ sends => healthy_issue control trace sends
    · intro before event other publishes
      cases event <;> contradiction

theorem Reachable.failureTrace (reachable : Reachable env calls world) :
    FailureTrace calls world :=
  reachable.invariant failureTrace_initial
    (fun _ _ _ _ _ _ control trace transition => FailureTrace.advance control trace transition)
    (fun _ _ trace => { trace with })

/-! ## Failures of later calls -/

theorem operation_ends {start : UploadWorld ι} (control : Control calls start)
    (run : UploadRun env calls start world) (failed : start.shared.failed = true)
    (operation : calls thread ≠ .abort) (pending : ∀ result, start.control thread ≠ .done result) :
    ∀ result, world.control thread = .done result → world.shared.cleanupState = .complete ∧
      (result = .threw world.shared.finalError ∨ result = .destroyed) := by
  refine (UploadRun.invariant (motive := fun world => world.shared.failed = true ∧
    ∀ result, world.control thread = .done result → world.shared.cleanupState = .complete ∧
      (result = .threw world.shared.finalError ∨ result = .destroyed)) ?_ ?_ run control
    ⟨failed, fun result ended => absurd ended (pending result)⟩).2.2
  · rintro world mover next here events notify control ⟨failed, ended⟩ transition
    have change := change_of_transition control.coherent (control.present mover) transition
    refine ⟨change.failed_mono failed, fun result ends => ?_⟩
    by_cases same : thread = mover
    · subst same
      exact transition.ends_failed control.coherent (control.present thread) failed operation
        (by simpa [World.advance] using ends)
    · obtain ⟨complete, outcome⟩ :=
        ended result (by simpa [World.advance, same] using ends)
      obtain ⟨still, final⟩ :=
        change.settled control.coherent (control.counted mover) complete
      refine ⟨still, ?_⟩
      change result = .threw next.finalError ∨ _
      rwa [finalError_congr final]
  · exact fun _ _ holds => holds

private theorem admitted_ends {start : UploadWorld ι} (control : Control calls start)
    (run : UploadRun env calls start world) (operation : calls thread ≠ .abort)
    (admitted : (start.control thread).active = true) :
    ∀ error, world.control thread = .done (.threw error) → world.shared.failed = true ∧
      world.shared.cleanupState = .complete ∧ error = world.shared.finalError := by
  refine (UploadRun.invariant (motive := fun world => world.control thread ≠ .start ∧
    ∀ error, world.control thread = .done (.threw error) → world.shared.failed = true ∧
      world.shared.cleanupState = .complete ∧ error = world.shared.finalError) ?_ ?_ run control
    ⟨?_, ?_⟩).2.2
  · rintro world mover next here events notify control ⟨begun, ended⟩ transition
    have change := change_of_transition control.coherent (control.present mover) transition
    by_cases same : thread = mover
    · subst same
      refine ⟨by simpa [World.advance] using transition.not_start, fun error throws => ?_⟩
      have ends : here = .done (.threw error) := by simpa [World.advance] using throws
      have failed := transition.ends_admitted (control.present thread) begun operation ends
      obtain ⟨complete, outcome⟩ := transition.ends_failed control.coherent
        (control.present thread) failed operation ends
      refine ⟨change.failed_mono failed, complete, ?_⟩
      change error = next.finalError
      simpa using outcome
    · refine ⟨by simpa [World.advance, same] using begun, fun error throws => ?_⟩
      obtain ⟨failed, complete, thrown⟩ :=
        ended error (by simpa [World.advance, same] using throws)
      obtain ⟨still, final⟩ :=
        change.settled control.coherent (control.counted mover) complete
      refine ⟨change.failed_mono failed, still, ?_⟩
      change error = next.finalError
      rwa [finalError_congr final]
  · exact fun _ _ holds => holds
  · intro position
    rw [position] at admitted
    contradiction
  · intro error position
    rw [position] at admitted
    contradiction

theorem abort_ends {start : UploadWorld ι} (control : Control calls start)
    (trace : FailureTrace calls start) (run : UploadRun env calls start world)
    (failed : start.shared.failed = true) (aborting : calls thread = .abort)
    (pending : ∀ result, start.control thread ≠ .done result) :
    ∀ result, world.control thread = .done result → world.shared.cleanupState = .complete ∧
      (result = .threw world.shared.finalError ∨ (result = .aborted true ∧
        ∃ first, first ≠ thread ∧ calls first = .abort ∧
          world.control first = .done (.threw world.shared.finalError))) := by
  refine (UploadRun.invariant (motive := fun world => FailureTrace calls world ∧
    world.shared.failed = true ∧
    ∀ result, world.control thread = .done result → world.shared.cleanupState = .complete ∧
      (result = .threw world.shared.finalError ∨ (result = .aborted true ∧
        ∃ first, first ≠ thread ∧ calls first = .abort ∧
          world.control first = .done (.threw world.shared.finalError)))) ?_ ?_ run control
    ⟨trace, failed, fun result ended => absurd ended (pending result)⟩).2.2.2
  · rintro world mover next here events notify control ⟨trace, failed, ended⟩ transition
    have change := change_of_transition control.coherent (control.present mover) transition
    refine ⟨FailureTrace.advance control trace transition, change.failed_mono failed,
      fun result ends => ?_⟩
    have kept (first : ι) (other : world.shared.cleanupState = .complete)
        (threw : world.control first = .done (.threw world.shared.finalError)) :
        first ≠ mover ∧ (world.advance mover next here events notify).control first =
          .done (.threw next.finalError) := by
      have different : first ≠ mover := by
        rintro rfl
        exact transition.not_done _ threw
      have final := (change.settled control.coherent (control.counted mover) other).2
      refine ⟨different, ?_⟩
      rw [finalError_congr final]
      simpa [World.advance, different] using threw
    by_cases same : thread = mover
    · subst same
      rw [aborting] at transition
      obtain ⟨complete, thrown | ⟨returned, already⟩⟩ :=
        transition.ends_abort control.coherent (aborting ▸ control.present thread) failed
          (by simpa [World.advance] using ends)
      · exact ⟨complete, Or.inl thrown⟩
      · obtain ⟨first, firstAborts, threw⟩ := trace.observed failed already
        obtain ⟨different, still⟩ :=
          kept first (control.coherent.aborted already).2 threw
        exact ⟨complete, Or.inr ⟨returned, first, different, firstAborts, still⟩⟩
    · obtain ⟨complete, outcome⟩ :=
        ended result (by simpa [World.advance, same] using ends)
      obtain ⟨still, final⟩ :=
        change.settled control.coherent (control.counted mover) complete
      refine ⟨still, ?_⟩
      rcases outcome with thrown | ⟨returned, first, different, firstAborts, threw⟩
      · left
        change result = .threw next.finalError
        rwa [finalError_congr final]
      · exact Or.inr ⟨returned, first, different, firstAborts, (kept first complete threw).2⟩
  · rintro world sleeper ⟨trace, rest⟩
    exact ⟨{ trace with }, rest⟩

/-- Whatever ends after a failure ends after its cleanup. -/
theorem complete_of_ended {start : UploadWorld ι} (reachable : Reachable env calls start)
    (run : UploadRun env calls start world) (failed : start.shared.failed = true)
    (pending : ∀ result, start.control thread ≠ .done result) {result : CallResult}
    (ended : world.control thread = .done result) :
    world.shared.cleanupState = .complete := by
  by_cases aborting : calls thread = .abort
  · exact (abort_ends reachable.control reachable.failureTrace run failed aborting pending
      result ended).1
  · exact (operation_ends reachable.control run failed aborting pending result ended).1

end Worlds

/-- One write fails while another waits for its turn behind it; both and the
`Abort` that comes last report the refused part and the refused cleanup. -/
def failureCalls : Fin 3 → Call
  | 0 => .write [1, 2] 0
  | 1 => .write [3, 4] 2
  | 2 => .abort

/-- The refused part has been latched while the second write still waits. -/
def afterLatch : UploadWorld (Fin 3) :=
  play (program smallEnv failureCalls) initialWorld
    (([0, 1, 1, 0, 0, 0, 0, 0, 0, 0, 0].map fun call => (call, initiated)) ++
      [0, 0].map fun call => (call, refused))

def afterCleanup : UploadWorld (Fin 3) :=
  play (program smallEnv failureCalls) afterLatch
    ([1, 1, 1, 0, 0, 0, 2, 0, 1, 2].map fun call => (call, refused))

end Httpfs.S3.Upload
