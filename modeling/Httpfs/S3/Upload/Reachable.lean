import Httpfs.S3.Upload.Control

/-!
# Reachable states of an upload session

Any family of calls runs on one session, indexed by an arbitrary type.  The
local facts of `Control` become an invariant of every run here, and every other
invariant of the session is proved on top of it, one transition at a time.
-/

namespace Httpfs.S3.Upload

open Httpfs.Transition
open Httpfs.Transition.Monitor

universe u

variable {ι : Type u}

/-- A global state of a session and its calls. -/
abbrev UploadWorld (ι : Type u) := World ι Session Pc Event

/-- The calls on one session. -/
def program (env : Env) (calls : ι → Call) : Program ι Session Pc Choice Event :=
  fun thread session pc choice => callStep env (calls thread) session pc choice

/-- A fresh session whose calls have not begun. -/
def initialWorld : UploadWorld ι :=
  World.initial .initial .start

/-- The invariant relating the session to its calls. -/
structure Control (calls : ι → Call) (world : UploadWorld ι) : Prop where
  coherent : Coherent world.shared
  present : ∀ thread, At (calls thread) world.shared (world.control thread)
  operations : Population Pc.active world.control world.shared.activeOperations
  initializer : Population Pc.initializing world.control world.shared.initializers
  cleaner : Population Pc.cleaning world.control world.shared.cleaners
  aborter : Population Pc.aborting world.control world.shared.aborters

namespace Control

variable {env : Env} {calls : ι → Call} {world : UploadWorld ι}

theorem initial : Control calls initialWorld where
  coherent := coherent_initial
  present := fun _ => at_start _ _
  operations := Population.initial _ rfl
  initializer := Population.initial _ rfl
  cleaner := Population.initial _ rfl
  aborter := Population.initial _ rfl

theorem counted (control : Control calls world) (thread : ι) :
    Counted world.shared (world.control thread) where
  active := control.operations.pos_of_role
  initializing := fun initializing => by
    have positive := control.initializer.pos_of_role initializing
    by_contra other
    simp [Session.initializers, other] at positive
  cleaning := fun cleaning => by
    have positive := control.cleaner.pos_of_role cleaning
    by_contra other
    simp [Session.cleaners, other] at positive
  aborting := fun aborting => by
    have positive := control.aborter.pos_of_role aborting
    by_contra other
    simp [Session.aborters, other] at positive

private theorem excluded {role : Pc → Bool} {condition : Bool}
    (population : Population role world.control condition.toNat) {first second : ι}
    (different : first ≠ second) (member : role (world.control first) = true) :
    role (world.control second) = false := by
  by_contra other
  have several := population.two_le different member (by simpa using other)
  have single := Bool.toNat_le condition
  omega

theorem apart (control : Control calls world) {first second : ι}
    (different : first ≠ second) :
    Apart world.shared (world.control first) (world.control second) where
  active := control.operations.two_le different
  initializing := excluded control.initializer different
  cleaning := excluded control.cleaner different
  aborting := excluded control.aborter different

variable [DecidableEq ι]

/-- Every transition of every call keeps the invariant. -/
theorem advance (control : Control calls world) {thread : ι} {next : Session} {here : Pc}
    {events : List Event} {notify : Bool}
    (transition : Transition env (calls thread) world.shared (world.control thread)
      next here events notify) :
    Control calls (world.advance thread next here events notify) := by
  have counted := control.counted thread
  have present := control.present thread
  have change := change_of_transition control.coherent present transition
  constructor
  · exact control.coherent.step counted change
  · intro other
    by_cases same : other = thread
    · subst same
      simpa [World.advance] using present.step control.coherent transition
    · simpa [World.advance, same] using
        (control.present other).interference control.coherent counted
          (control.counted other) (control.apart (Ne.symm same)) change
  · exact control.operations.update (active_conserved counted transition)
  · exact control.initializer.update (initializing_conserved counted transition)
  · exact control.cleaner.update (cleaning_conserved present counted transition)
  · exact control.aborter.update (aborting_conserved present counted transition)

end Control

/-! ## Invariants of runs -/

section Runs

variable [DecidableEq ι] {env : Env} {calls : ι → Call}

/-- All runs of the calls on one session. -/
abbrev UploadRun (env : Env) (calls : ι → Call) : UploadWorld ι → UploadWorld ι → Prop :=
  Run (program env calls)

/-- A property that every transition and every wait keeps holds at the end of
a run that starts with it. -/
theorem UploadRun.invariant {motive : UploadWorld ι → Prop}
    (advances : ∀ world thread next here events notify, Control calls world →
      motive world →
      Transition env (calls thread) world.shared (world.control thread)
        next here events notify →
      motive (world.advance thread next here events notify))
    (sleeps : ∀ world thread, motive world → motive (world.sleep thread))
    {world final : UploadWorld ι} (run : UploadRun env calls world final)
    (control : Control calls world) (start : motive world) :
    Control calls final ∧ motive final := by
  refine RunWhere.invariant (motive := fun world => Control calls world ∧ motive world)
    ?_ run ⟨control, start⟩
  rintro world next thread choice ⟨control, holds⟩ _ stepped
  obtain ⟨awake, ⟨waits, rfl⟩ | ⟨shared, here, events, notify, steps, rfl⟩⟩ :=
    step_cases stepped
  · exact ⟨{ control with }, sleeps world thread holds⟩
  · cases advance_of_callStep steps with
    | once transition =>
        exact ⟨control.advance transition,
          advances _ _ _ _ _ _ control holds transition⟩
    | twice first second =>
        rename_i middle
        have moved := control.advance first
        have kept := advances _ _ _ _ _ _ control holds first
        have onward : Transition env (calls thread)
            (world.advance thread middle .awaitOperations [] false).shared
            ((world.advance thread middle .awaitOperations [] false).control thread)
            shared here events notify := by
          simpa [World.advance] using second
        rw [← World.advance_advance world thread middle shared .awaitOperations here]
        exact ⟨moved.advance onward, advances _ _ _ _ _ _ moved kept onward⟩

/-- The states a session can reach. -/
def Reachable (env : Env) (calls : ι → Call) (world : UploadWorld ι) : Prop :=
  UploadRun env calls initialWorld world

theorem Reachable.control {world : UploadWorld ι} (reachable : Reachable env calls world) :
    Control calls world :=
  (UploadRun.invariant (motive := fun _ => True) (fun _ _ _ _ _ _ _ _ _ => trivial)
    (fun _ _ _ => trivial) reachable .initial trivial).1

/-- Invariants of every reachable state. -/
theorem Reachable.invariant {motive : UploadWorld ι → Prop}
    (start : motive initialWorld)
    (advances : ∀ world thread next here events notify, Control calls world →
      motive world →
      Transition env (calls thread) world.shared (world.control thread)
        next here events notify →
      motive (world.advance thread next here events notify))
    (sleeps : ∀ world thread, motive world → motive (world.sleep thread))
    {world : UploadWorld ι} (reachable : Reachable env calls world) : motive world :=
  (UploadRun.invariant advances sleeps reachable .initial start).2

end Runs

end Httpfs.S3.Upload
