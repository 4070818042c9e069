import Httpfs.S3.Upload.Progress
import Httpfs.Transition.Descent

/-!
# The end of an upload session

A call runs through its control points in one direction: it is admitted, it
uploads its parts one after the other, and what is left is the completion or the
release with its cleanup.  So every session of finitely many calls comes to rest,
and a session whose writes tile a range comes to rest with every call ended and
the multipart upload it created accounted for.
-/

namespace Httpfs.S3.Upload

open Httpfs.Transition
open Httpfs.Transition.Monitor

universe u

/-! ## The way through a call -/

namespace Pc

/-- The phase of a call, and the work left in the phase. -/
def rank (pc : Pc) : Nat ×ₗ Nat :=
  toLex (match pc with
  | .start => (3, 0)
  | .prepareWrite | .chooseUpload _ => (2, 0)
  | .reserveFinal _ => (1, 20)
  | .uploadParts parts => (1, 10 * parts.length + 1)
  | .ensureUpload _ after => (1, 10 * after.parts.length + 10)
  | .sendInitialize _ after => (1, 10 * after.parts.length + 9)
  | .awaitInitialize _ after => (1, 10 * after.parts.length + 8)
  | .publishUploadId _ after _ => (1, 10 * after.parts.length + 7)
  | .checkPart _ after _ => (1, 10 * after.parts.length + 6)
  | .sendPart _ after _ => (1, 10 * after.parts.length + 5)
  | .awaitPart _ after _ => (1, 10 * after.parts.length + 4)
  | .storeETag _ after _ => (1, 10 * after.parts.length + 3)
  | .checkCompletion => (0, 18)
  | .takeSnapshot => (0, 17)
  | .sendCompletion _ _ | .sendSingle _ => (0, 16)
  | .awaitCompletion _ _ | .awaitSingle _ => (0, 15)
  | .finishFinalize => (0, 14)
  | .publishFailure _ => (0, 13)
  | .failOperation _ => (0, 12)
  | .claimed => (0, 11)
  | .releaseOperation _ => (0, 10)
  | .awaitCleanup _ => (0, 9)
  | .awaitOperations => (0, 8)
  | .awaitAbortCleanup => (0, 7)
  | .sendAbort _ _ => (0, 6)
  | .awaitAbort _ _ => (0, 5)
  | .publishCleanup _ _ => (0, 4)
  | .done _ => (0, 0))

/-- An exception leaves less to do. -/
theorem rank_failOperation_lt {pc : Pc} (raises : pc.canRaise = true) (failure : Failure) :
    (Pc.failOperation failure).rank < pc.rank := by
  cases pc with
  | prepareWrite | uploadParts | ensureUpload | checkPart | awaitPart | storeETag
  | reserveFinal => exact Prod.Lex.toLex_lt_toLex.mpr (Or.inl (by simp))
  | awaitSingle | checkCompletion | takeSnapshot | awaitCompletion =>
      exact Prod.Lex.toLex_lt_toLex.mpr (Or.inr (by simp))
  | _ => contradiction

end Pc

section Steps

variable {env : Env} {call : Call} {session next : Session} {pc here : Pc}
  {events : List Event} {notify : Bool}

/-- Every transition leads on. -/
theorem Transition.rank_lt
    (transition : Transition env call session pc next here events notify) :
    here.rank < pc.rank := by
  induction transition with
  | raise raises => exact Pc.rank_failOperation_lt raises _
  | prepareFailed => exact Pc.rank_failOperation_lt rfl _
  | publishUploadIdLate => exact Prod.Lex.toLex_lt_toLex.mpr (Or.inl (by simp))
  | startPart | storeETag =>
      exact Prod.Lex.toLex_lt_toLex.mpr (Or.inr ⟨rfl, by simp [After.parts, Nat.mul_add]⟩)
  | _ => simp [Pc.rank, After.parts, Prod.Lex.toLex_lt_toLex]

theorem Advance.rank_lt (advance : Advance env call session pc next here events notify) :
    here.rank < pc.rank := by
  cases advance with
  | once transition => exact transition.rank_lt
  | twice first second => exact second.rank_lt.trans first.rank_lt

end Steps

theorem program_descends {ι : Type u} (env : Env) (calls : ι → Call) :
    Descends (program env calls) Pc.rank := by
  intro thread session pc choice next here events notify advances
  exact (advance_of_callStep advances).rank_lt

section Worlds

variable {ι : Type u} [DecidableEq ι] {env : Env} {calls : ι → Call} {world : UploadWorld ι}
  {thread : ι} {next : Session} {here : Pc} {events : List Event} {notify : Bool} {size : Nat}

omit [DecidableEq ι] in
/-- A finalized session has published its object, and an `Abort` that met no
failure has aborted the upload. -/
structure Disposed (world : UploadWorld ι) : Prop where
  finishing : ∀ thread, world.control thread = .finishFinalize → .published ∈ world.events
  finalized : world.shared.lifecycleState = .finalized → .published ∈ world.events
  aborted : world.shared.lifecycleState = .aborted → world.shared.failed = false →
    world.shared.multipartUploadId.isSome = true →
      .raised .ambiguous ∈ world.events ∨ ∃ event ∈ world.events, event.isAbort = true

omit [DecidableEq ι] in
theorem disposed_initial : Disposed (initialWorld : UploadWorld ι) where
  finishing := fun _ finishing => by contradiction
  finalized := fun finalized => by contradiction
  aborted := fun aborted => by contradiction

end Worlds

section Steps

variable {env : Env} {call : Call} {session next : Session} {pc here : Pc}
  {events : List Event} {notify : Bool}

/-- Only a request that published the object leads to the end of a finalize. -/
theorem Transition.published_of_finishing
    (transition : Transition env call session pc next here events notify)
    (finishing : here = .finishFinalize) : .published ∈ events := by
  induction transition with
  | singleUploaded | completed => exact List.mem_singleton_self _
  | _ => contradiction

/-- A session is finalized by the call that has published the object. -/
theorem Transition.finalized_of
    (transition : Transition env call session pc next here events notify)
    (finalized : next.lifecycleState = .finalized) :
    session.lifecycleState = .finalized ∨ pc = .finishFinalize := by
  induction transition with
  | finishFinalize => exact Or.inr rfl
  | publishFailure =>
      rename_i session failure
      exact Or.inl (latchFailureLocked_lifecycle { session with initializationState := .failed }
        failure.error failure.disposition finalized (by simp))
  | failOperation =>
      rename_i session failure
      exact Or.inl (latchFailureLocked_lifecycle session failure.error failure.disposition
        finalized (by simp))
  | beginFinalize | startAbort | abortObserved | abortNothing | abortCleaned | publishAbort =>
      contradiction
  | _ => exact Or.inl finalized

/-- An `Abort` that meets no failure finds nothing to abort, or ends behind the
cleanup request. -/
theorem Transition.aborted_of (coherent : Coherent session) (counted : Counted session pc)
    (present : At call session pc)
    (transition : Transition env call session pc next here events notify)
    (aborted : next.lifecycleState = .aborted) (healthy : next.failed = false)
    (known : next.multipartUploadId.isSome = true) :
    (session.lifecycleState = .aborted ∧ session.failed = false ∧
        session.multipartUploadId.isSome = true) ∨
      session.abortSuppressed = true ∨ pc.afterAbort = true := by
  have operating (active : pc.active = true) (closed : session.lifecycleState = .aborted) :
      False := by
    have positive := counted.active active
    have idle := (coherent.aborted closed).1
    omega
  induction transition with
  | publishUploadId => exact absurd aborted (operating rfl)
  | publishUploadIdLate => exact absurd aborted (operating rfl)
  | publishFailure | failOperation =>
      rw [failed_latchFailureLocked] at healthy
      contradiction
  | abortObserved idle failed =>
      exact absurd (healthy.symm.trans failed) Bool.false_ne_true
  | abortCleaned =>
      have failed := present.failed rfl
      exact absurd (healthy.symm.trans failed) Bool.false_ne_true
  | abortNothing idle unfailed nothing =>
      rename_i session
      rcases nothing with suppressed | none
      · exact Or.inr (Or.inl suppressed)
      · have learned : session.multipartUploadId.isSome = true := known
        rw [none] at learned
        contradiction
  | publishRelease =>
      have failed := present.failed rfl
      exact absurd (healthy.symm.trans failed) Bool.false_ne_true
  | publishAbort => exact Or.inr (Or.inr rfl)
  | beginFinalize | startAbort | finishFinalize => contradiction
  | _ => exact Or.inl ⟨aborted, healthy, known⟩

end Steps

section Worlds

variable {ι : Type u} [DecidableEq ι] {env : Env} {calls : ι → Call} {world : UploadWorld ι}
  {thread : ι} {next : Session} {here : Pc} {events : List Event} {notify : Bool} {size : Nat}

theorem Disposed.advance (control : Control calls world) (trace : MultipartTrace world)
    (disposed : Disposed world)
    (transition : Transition env (calls thread) world.shared (world.control thread)
      next here events notify) :
    Disposed (world.advance thread next here events notify) where
  finishing := fun other finishing => by
    rw [World.events_advance]
    by_cases same : other = thread
    · subst same
      have position : here = .finishFinalize := by simpa [World.advance] using finishing
      exact List.mem_append_right _ (transition.published_of_finishing position)
    · have position : world.control other = .finishFinalize := by
        simpa [World.advance, same] using finishing
      exact List.mem_append_left _ (disposed.finishing other position)
  finalized := fun finalized => by
    rw [World.events_advance]
    apply List.mem_append_left
    rcases transition.finalized_of finalized with before | finishing
    · exact disposed.finalized before
    · exact disposed.finishing thread finishing
  aborted := fun aborted healthy known => by
    rw [World.events_advance]
    have kept : .raised .ambiguous ∈ world.events ∨
        ∃ event ∈ world.events, event.isAbort = true := by
      rcases transition.aborted_of control.coherent (control.counted thread)
        (control.present thread) aborted healthy known with ⟨closed, unfailed, learned⟩ |
        suppressed | sent
      · exact disposed.aborted closed unfailed learned
      · exact Or.inl (trace.suppressed suppressed)
      · exact Or.inr (trace.sent thread sent)
    rcases kept with raised | ⟨event, member, aborts⟩
    · exact Or.inl (List.mem_append_left _ raised)
    · exact Or.inr ⟨event, List.mem_append_left _ member, aborts⟩

theorem Reachable.disposed (reachable : Reachable env calls world) : Disposed world := by
  have kept := reachable.invariant
    (motive := fun world => MultipartTrace world ∧ Disposed world)
    ⟨multipartTrace_initial, disposed_initial⟩
    (fun _ _ _ _ _ _ control kept transition =>
      ⟨kept.1.advance control transition, kept.2.advance control kept.1 transition⟩)
    (fun _ _ kept => ⟨{ kept.1 with }, { kept.2 with }⟩)
  exact kept.2

/-! ## Sessions at rest -/

/-- In a run that strands no write, a write that was turned away leaves no write
waiting behind it. -/
theorem settled_of_run
    (run : RunWhere (program env calls) (fun world thread => ¬ Strands calls world thread)
      initialWorld world) : Settled calls world := by
  have kept := run.invariant
    (motive := fun world => Control calls world ∧ Settled calls world) ?_
    ⟨.initial, settled_initial⟩
  · exact kept.2
  · rintro world next thread choice ⟨control, settled⟩ admitted stepped
    obtain ⟨awake, ⟨waits, rfl⟩ | ⟨shared, here, events, notify, advances, rfl⟩⟩ :=
      step_cases stepped
    · exact ⟨{ control with }, { settled with }⟩
    · cases advance_of_callStep advances with
      | once transition =>
          exact ⟨control.advance transition, settled.advance control admitted transition⟩
      | twice first second =>
          rename_i middle
          have moved := control.advance first
          have kept := settled.advance control admitted first
          have onward : Transition env (calls thread)
              (world.advance thread middle .awaitOperations [] false).shared
              ((world.advance thread middle .awaitOperations [] false).control thread)
              shared here events notify := by
            simpa [World.advance] using second
          have elsewhere : ¬ Strands calls
              (world.advance thread middle .awaitOperations [] false) thread := by
            intro strands
            have position := strands.1
            simp [World.advance] at position
          rw [← World.advance_advance world thread middle shared .awaitOperations here]
          exact ⟨moved.advance onward, kept.advance moved elsewhere onward⟩

/-- A call that can take no step and does not sleep has ended. -/
theorem ended_of_rest (control : Control calls world) (awake : world.asleep thread = false)
    (rests : ∀ choice, step (program env calls) world thread choice = none) :
    ∃ result, world.control thread = .done result := by
  by_contra unfinished
  push Not at unfinished
  have placed (here : world.control thread = .prepareWrite) :
      ∃ data location, calls thread = .write data location := by
    have owned := (control.present thread).owned
    rw [here] at owned
    cases call : calls thread with
    | write data location => exact ⟨data, location, rfl⟩
    | finalize | abort =>
        rw [call] at owned
        contradiction
  have decides : Decides (Waits (calls thread) world.shared (world.control thread))
      (callStep env (calls thread) world.shared (world.control thread) initiated) :=
    callStep_decides _ _ unfinished placed
  have still := rests initiated
  rcases decides with ⟨_, waits⟩ | ⟨_, shared, here, events, notify, advances⟩
  · rw [step_of_wait awake waits] at still
    contradiction
  · rw [step_of_advance awake advances] at still
    contradiction

omit [DecidableEq ι] in
/-- When every call has ended, no role is taken. -/
theorem Control.idle_of_ended (control : Control calls world)
    (ended : ∀ thread, ∃ result, world.control thread = .done result) :
    world.shared.activeOperations = 0 ∧ world.shared.cleanupState ≠ .inProgress ∧
      world.shared.lifecycleState ≠ .aborting := by
  have vacant {role : Pc → Bool} (idle : ∀ result, role (.done result) = false) {count : Nat}
      (population : Population role world.control count) : count = 0 := by
    by_contra taken
    obtain ⟨thread, member⟩ := population.exists_role (Nat.pos_of_ne_zero taken)
    obtain ⟨result, done⟩ := ended thread
    rw [done, idle] at member
    contradiction
  have cleaners := vacant (fun _ => rfl) control.cleaner
  have aborters := vacant (fun _ => rfl) control.aborter
  refine ⟨vacant (fun _ => rfl) control.operations, ?_, ?_⟩
  · intro progress
    simp [Session.cleaners, progress] at cleaners
  · intro aborting
    simp [Session.aborters, aborting] at aborters

/-- A session without calls under way has published its object, sent the cleanup
request, kept the upload because of an ambiguous failure, or is still open. -/
theorem Reachable.accounted (reachable : Reachable env calls world)
    (ended : ∀ thread, ∃ result, world.control thread = .done result) {uploadId : String}
    (created : .initialized uploadId ∈ world.events) :
    .published ∈ world.events ∨ .abortDelete uploadId ∈ world.events ∨
      .raised .ambiguous ∈ world.events ∨
      (world.shared.lifecycleState = .active ∧ world.shared.failed = false) := by
  have control := reachable.control
  have trace := reachable.multipartTrace
  have disposed := reachable.disposed
  obtain ⟨idle, quiet, unaborting⟩ := control.idle_of_ended ended
  have member : uploadId ∈ uploadIds world.events :=
    List.mem_filterMap.mpr ⟨_, created, rfl⟩
  have settled (thread : ι) : (world.control thread).publishing? = none := by
    obtain ⟨result, done⟩ := ended thread
    rw [done]
    rfl
  cases published : world.shared.multipartUploadId with
  | none =>
      rw [trace.unknown published settled] at member
      contradiction
  | some known =>
      have single := trace.published known published
      rw [single, List.mem_singleton] at member
      subst member
      have learned : world.shared.multipartUploadId.isSome = true := by simp [published]
      have deleted (sent : ∃ event ∈ world.events, event.isAbort = true) :
          .abortDelete uploadId ∈ world.events := by
        obtain ⟨event, member, aborts⟩ := sent
        cases event with
        | abortDelete target => exact trace.target_eq member rfl single ▸ member
        | _ => contradiction
      by_cases failed : world.shared.failed = true
      · have started := control.coherent.failed_idle failed idle
        have complete : world.shared.cleanupState = .complete := by
          cases state : world.shared.cleanupState with
          | none => exact absurd state started
          | inProgress => exact absurd state quiet
          | complete => rfl
        rcases trace.aborted failed complete learned with raised | sent
        · exact Or.inr (Or.inr (Or.inl raised))
        · exact Or.inr (Or.inl (deleted sent))
      · have healthy : world.shared.failed = false := by simpa using failed
        cases state : world.shared.lifecycleState with
        | active => exact Or.inr (Or.inr (Or.inr ⟨rfl, healthy⟩))
        | finalizing =>
            have single := (control.coherent.finalizing state).1
            omega
        | finalized => exact Or.inl (disposed.finalized state)
        | aborting => exact absurd state unaborting
        | aborted =>
            rcases disposed.aborted state healthy learned with raised | sent
            · exact Or.inr (Or.inr (Or.inl raised))
            · exact Or.inr (Or.inl (deleted sent))

/-- A session whose writes tile a range and strand no write comes to rest with every
call ended and every failure cleaned up, and the multipart upload it created is
published, aborted, kept on purpose after an ambiguous failure, or still open for
the next call. -/
theorem upload_quiescent (env : Env) (calls : ι → Call) (size : Nat)
    (partition : Partition calls size)
    (run : RunWhere (program env calls) (fun world thread => ¬ Strands calls world thread)
      initialWorld world)
    (rests : ∀ thread choice, step (program env calls) world thread choice = none) :
    (∀ thread, ∃ result, world.control thread = .done result) ∧
      (world.shared.failed = true → world.shared.cleanupState = .complete) ∧
      ∀ uploadId, .initialized uploadId ∈ world.events →
        .published ∈ world.events ∨ .abortDelete uploadId ∈ world.events ∨
          .raised .ambiguous ∈ world.events ∨
          (world.shared.lifecycleState = .active ∧ world.shared.failed = false) := by
  have reachable : Reachable env calls world := run.run
  have sleepers := run.sleepersBlocked (program_notifiesWaiters env calls)
    (sleepersBlocked_initial _ _ _)
  have unstuck := not_stuck partition reachable (settled_of_run run) sleepers
  have awake (thread : ι) : world.asleep thread = false := by
    by_contra asleep
    exact unstuck ⟨⟨thread, by simpa using asleep⟩, rests⟩
  have ended (thread : ι) : ∃ result, world.control thread = .done result :=
    ended_of_rest reachable.control (awake thread) (rests thread)
  refine ⟨ended, ?_, fun uploadId created => reachable.accounted ended created⟩
  intro failed
  obtain ⟨idle, quiet, _⟩ := reachable.control.idle_of_ended ended
  have started := reachable.control.coherent.failed_idle failed idle
  cases state : world.shared.cleanupState with
  | none => exact absurd state started
  | inProgress => exact absurd state quiet
  | complete => rfl

end Worlds

/-- Both bytes of an object are written, and the upload is aborted behind them. -/
def writtenCalls : Fin 2 → Call
  | 0 => .write [1, 2] 0
  | 1 => .abort

theorem partition_writtenCalls : Partition writtenCalls 2 where
  word := by decide
  within := by
    intro thread data location write
    fin_cases thread
    · cases write
      decide
    · cases write
  covers := fun position bound => ⟨0, [1, 2], 0, rfl, Nat.zero_le _, bound⟩
  disjoint := by
    intro first second firstData firstLocation secondData secondLocation position
      firstWrite secondWrite _ _ _ _
    fin_cases first
    · fin_cases second
      · rfl
      · cases secondWrite
    · cases firstWrite

/-- The part of the write is refused, its release sends the cleanup request, and
the `Abort` behind it reports the failure. -/
def refusedUpload : UploadWorld (Fin 2) :=
  haveI := neZero_two
  play (program smallEnv writtenCalls) initialWorld
    ((List.replicate 15 (0 : Fin 2) ++ [1]).map fun call => (call, initiated))

set_option maxRecDepth 4000 in
theorem upload_quiescent_refusedUpload :
    .initialized "id" ∈ refusedUpload.events ∧
      refusedUpload.shared.cleanupState = .complete ∧
      (.published ∈ refusedUpload.events ∨ .abortDelete "id" ∈ refusedUpload.events ∨
        .raised .ambiguous ∈ refusedUpload.events ∨
        (refusedUpload.shared.lifecycleState = .active ∧
          refusedUpload.shared.failed = false)) := by
  have alone (world : UploadWorld (Fin 2)) (thread : Fin 2) :
      ¬ Strands writtenCalls world thread := by
    rintro ⟨_, _, _, data, location, write, _, other, otherData, otherLocation, otherWrite, _,
      behind⟩
    fin_cases thread
    · fin_cases other
      · cases write
        cases otherWrite
        omega
      · cases otherWrite
    · cases write
  have run : RunWhere (program smallEnv writtenCalls)
      (fun world thread => ¬ Strands writtenCalls world thread) initialWorld refusedUpload := by
    apply Relation.ReflTransGen.mono _ _ _ (run_play _ _ _)
    rintro world next ⟨thread, choice, _, stepped⟩
    exact ⟨thread, choice, alone world thread, stepped⟩
  have rests (thread : Fin 2) (choice : Choice) :
      step (program smallEnv writtenCalls) refusedUpload thread choice = none := by
    have ended : refusedUpload.control thread =
        .done (.threw refusedUpload.shared.finalError) := by
      revert thread
      decide
    simp [step, program, callStep, ended]
  have created : .initialized "id" ∈ refusedUpload.events := by decide
  have failed : refusedUpload.shared.failed = true := by decide
  obtain ⟨_, cleaned, accounted⟩ := upload_quiescent smallEnv writtenCalls 2
    partition_writtenCalls run rests
  exact ⟨created, cleaned failed, accounted "id" created⟩

end Httpfs.S3.Upload
