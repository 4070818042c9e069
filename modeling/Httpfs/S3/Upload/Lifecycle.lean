import Httpfs.S3.Upload.Reachable

/-!
# The ends of an upload session

A session that is finalized or aborted stays so, and an `Abort` tells which of
the two it found or brought about: it returns `false` for a finalized session
and ends in any other way only with the session aborted.
-/

namespace Httpfs.S3.Upload

open Httpfs.Transition.Monitor

universe u

namespace LifecycleState

/-- No call leaves this state. -/
def final : LifecycleState → Bool
  | .finalized | .aborted => true
  | _ => false

end LifecycleState

section Steps

variable {env : Env} {call : Call} {session next : Session} {pc here : Pc}
  {events : List Event} {notify : Bool}

theorem Change.lifecycle_final (change : Change pc session next) (counted : Counted session pc)
    (final : session.lifecycleState.final = true) :
    next.lifecycleState = session.lifecycleState := by
  have notAborting (aborting : pc.aborting = true) : False := by
    rw [counted.aborting aborting] at final
    contradiction
  induction change with
  | admitFinalize healthy active idle | startAbort active =>
      rw [active] at final
      contradiction
  | publishFailure operating initializing failure =>
      rw [lifecycleState_latchFailureLocked, if_neg]
      intro finalizing
      rw [show session.lifecycleState = .finalizing from finalizing] at final
      contradiction
  | latch operating failure =>
      rw [lifecycleState_latchFailureLocked, if_neg]
      intro finalizing
      rw [finalizing] at final
      contradiction
  | finish operating finalizing =>
      rw [finalizing] at final
      contradiction
  | abortObserved aborting | abortNothing aborting | publishAbort aborting =>
      exact (notAborting aborting).elim
  | _ => rfl

/-- An `Abort` that goes on at once has found the session active. -/
theorem Transition.active_of_awaitOperations
    (transition : Transition env call session pc next here events notify)
    (waits : here = .awaitOperations) : session.lifecycleState = .active := by
  induction transition with
  | startAbort active => exact active
  | _ => contradiction

/-- How an `Abort` ends. -/
def AbortEnds (session : Session) (result : CallResult) : Prop :=
  (result = .aborted false ∧ session.lifecycleState = .finalized) ∨
    (result ≠ .aborted false ∧ session.lifecycleState = .aborted)

theorem Transition.abortEnds (present : At .abort session pc)
    (transition : Transition env .abort session pc next here events notify)
    {result : CallResult} (ends : here = .done result) : AbortEnds next result := by
  have notReleaser (releaser : Releaser) : Call.abort.owns releaser.owner = false := by
    cases releaser <;> rfl
  have owned := present.owned
  generalize isAbort : Call.abort = operation at transition
  induction transition with
  | throwLatched operation | reject operation => exact absurd isAbort.symm operation
  | releaseHealthy | releaseNothing | releaseCleaned | cleaned | publishRelease =>
      exact absurd (owned.symm.trans (notReleaser _)) (by simp)
  | abortFinalized finalized =>
      obtain rfl := Pc.done.inj ends
      exact Or.inl ⟨rfl, finalized⟩
  | abortAborted aborted =>
      obtain rfl := Pc.done.inj ends
      exact Or.inr ⟨by simp, aborted⟩
  | abortObserved | abortNothing | abortCleaned =>
      obtain rfl := Pc.done.inj ends
      exact Or.inr ⟨by simp, rfl⟩
  | publishAbort =>
      rename_i abortError
      obtain rfl := Pc.done.inj ends
      right
      constructor
      · cases abortError <;> simp [abortResult]
      · rfl
  | _ => contradiction

end Steps

section Runs

variable {ι : Type u} {env : Env} {calls : ι → Call} {world : UploadWorld ι}

/-- No step of a call leaves `FINALIZED`. -/
theorem Control.finalized_step (control : Control calls world) {thread : ι} {choice : Choice}
    {next : Session} {here : Pc} {events : List Event} {notify : Bool}
    (finalized : world.shared.lifecycleState = .finalized)
    (steps : callStep env (calls thread) world.shared (world.control thread) choice =
      some (.advance next here events notify)) : next.lifecycleState = .finalized := by
  have final : world.shared.lifecycleState.final = true := by
    rw [finalized]
    rfl
  cases advance_of_callStep steps with
  | once transition =>
      have change := change_of_transition control.coherent (control.present thread) transition
      rw [change.lifecycle_final (control.counted thread) final, finalized]
  | twice first second =>
      have active := first.active_of_awaitOperations rfl
      rw [finalized] at active
      contradiction

/-- The result of an `Abort` says in which state the session is for good. -/
theorem Reachable.abortEnds [DecidableEq ι] (reachable : Reachable env calls world) {thread : ι}
    {result : CallResult} (aborts : calls thread = .abort)
    (ended : world.control thread = .done result) : AbortEnds world.shared result := by
  refine reachable.invariant (motive := fun world => ∀ thread result, calls thread = .abort →
    world.control thread = .done result → AbortEnds world.shared result) ?_ ?_ ?_
    thread result aborts ended
  · intro thread result _ ended
    contradiction
  · intro world actor next here events notify control known transition thread result aborts ended
    by_cases same : thread = actor
    · subst same
      simp only [World.advance, Function.update_self] at ended
      rw [aborts] at transition
      exact transition.abortEnds (aborts ▸ control.present thread) ended
    · simp only [World.advance, Function.update_of_ne same] at ended
      have before := known thread result aborts ended
      have final : world.shared.lifecycleState.final = true := by
        rcases before with ⟨_, finalized⟩ | ⟨_, aborted⟩
        · rw [finalized]
          rfl
        · rw [aborted]
          rfl
      have change := change_of_transition control.coherent (control.present actor) transition
      rw [AbortEnds, World.advance, change.lifecycle_final (control.counted actor) final]
      exact before
  · exact fun _ _ known => known

end Runs

end Httpfs.S3.Upload
