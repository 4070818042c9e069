import Httpfs.S3.Upload.Published
import Httpfs.S3.Upload.Waiting
import Mathlib.Tactic.FinCases

/-!
# Progress of an upload session

Seven loops share one condition variable.  A session whose writes tile a range
gets stuck in one way only: `Abort` closes it between two writes, the one in
front is turned away, and the one behind waits for it in `PrepareWrite`, whose
condition does not look at the lifecycle.
-/

namespace Httpfs.S3.Upload

open Httpfs.Transition
open Httpfs.Transition.Monitor
open Httpfs.Word64

universe u

variable {ι : Type u}

/-- The writes among the calls tile the range `[0, size)` of 64-bit offsets. -/
structure Partition (calls : ι → Call) (size : Nat) : Prop where
  word : size < modulus
  within : ∀ thread data location, calls thread = .write data location →
    location + data.length ≤ size
  covers : ∀ position < size, ∃ thread data location, calls thread = .write data location ∧
    location ≤ position ∧ position < location + data.length
  disjoint : ∀ first second firstData firstLocation secondData secondLocation position,
    calls first = .write firstData firstLocation →
    calls second = .write secondData secondLocation →
    firstLocation ≤ position → position < firstLocation + firstData.length →
    secondLocation ≤ position → position < secondLocation + secondData.length → first = second

/-- The thread's next step turns away a write of at least one byte because of
`Abort`, while a write behind it has been admitted and waits its turn. -/
def Strands (calls : ι → Call) (world : UploadWorld ι) (thread : ι) : Prop :=
  world.control thread = .start ∧ world.shared.lifecycleState = .aborting ∧
    world.shared.failed = false ∧
    ∃ data location, calls thread = .write data location ∧ data ≠ [] ∧
      ∃ other otherData otherLocation, calls other = .write otherData otherLocation ∧
        world.control other = .prepareWrite ∧ location < otherLocation

section Steps

variable {env : Env} {call : Call} {session next : Session} {pc here : Pc}
  {events : List Event} {notify : Bool}

/-- The offset moves with the writes that pass `PrepareWrite` only. -/
theorem Transition.offset_of
    (transition : Transition env call session pc next here events notify) :
    (next.nextOffset = session.nextOffset ∧ preparedWrites events = []) ∨
      ∃ data, call = .write data session.nextOffset ∧ pc = .prepareWrite ∧
        preparedWrites events = [(session.nextOffset, data)] ∧
        next.nextOffset = (add session.nextOffset data.length).val := by
  induction transition with
  | prepared healthy placed numbers split =>
      rename_i data location session allocation count buffered offset parts
      subst placed
      have moved := prepareWriteLocked_offset env.config session data session.nextOffset allocation
      rw [split] at moved
      exact Or.inr ⟨_, rfl, rfl, preparedWrites_prepared _ _ _, moved⟩
  | prepareFailed healthy due stopped =>
      rename_i data location session allocation count buffered offset error
      have kept := prepareWriteLocked_offset env.config session data location allocation
      rw [stopped] at kept
      exact Or.inl ⟨kept, rfl⟩
  | _ => exact Or.inl ⟨rfl, rfl⟩

/-- A write that ends without a failure has passed `PrepareWrite` or was turned
away. -/
theorem Transition.ends_healthy {result : CallResult} (present : At call session pc)
    (write : call.owns .write = true)
    (transition : Transition env call session pc next here events notify)
    (ended : here = .done result) (healthy : next.failed = false) :
    here.passed = true ∨
      (pc = .start ∧ next = session ∧ session.lifecycleState ≠ .active) := by
  have notAbort : pc.owner ≠ .abort := by
    intro abort
    have owned := present.owned
    rw [abort] at owned
    rw [Call.eq_abort owned] at write
    contradiction
  have refuted (after : pc.afterFailure = true) : session.failed ≠ false := by
    simp [present.failed after]
  induction transition with
  | throwLatched operation failed | releaseNothing failed | releaseCleaned failed =>
      exact absurd (healthy.symm.trans failed) Bool.false_ne_true
  | reject operation healthy refused =>
      rcases refused with inactive | ⟨finalize, _⟩
      · exact Or.inr ⟨rfl, rfl, inactive⟩
      · rw [finalize] at write
        contradiction
  | alreadyFinalized | abortFinalized | abortAborted => contradiction
  | finishFinalize => exact Or.inl rfl
  | releaseHealthy =>
      rename_i releaser unfailed
      cases releaser with
      | finish | destroy => exact Or.inl rfl
      | fail => exact absurd unfailed (refuted rfl)
  | cleaned | publishRelease => exact absurd healthy (refuted rfl)
  | abortObserved | abortNothing | abortCleaned | publishAbort => exact absurd rfl notAbort
  | _ => contradiction

/-- Writes are admitted to active sessions only. -/
theorem Transition.admits_write
    (transition : Transition env call session pc next here events notify)
    (admitted : here = .prepareWrite) : session.lifecycleState = .active := by
  induction transition with
  | beginWrite healthy active => exact active
  | _ => contradiction

end Steps

section Worlds

variable {env : Env} {calls : ι → Call} {world : UploadWorld ι} {thread : ι}
  {next : Session} {here : Pc} {events : List Event} {notify : Bool} {size : Nat}

/-! ## Which bytes the offset has passed -/

/-- The offset has passed the writes that were prepared and no others. -/
structure Passed (calls : ι → Call) (world : UploadWorld ι) : Prop where
  behind : ∀ entry ∈ attributedWrites world.trace,
    entry.2.1 + entry.2.2.length ≤ world.shared.nextOffset
  ahead : ∀ thread data location, calls thread = .write data location → data ≠ [] →
    thread ∉ (attributedWrites world.trace).map Prod.fst → world.shared.nextOffset ≤ location

theorem passed_initial : Passed calls initialWorld where
  behind := fun _ member => by contradiction
  ahead := fun _ _ _ _ _ _ => Nat.zero_le _

variable [DecidableEq ι]

theorem Passed.advance (partition : Partition calls size) (passed : Passed calls world)
    (transition : Transition env (calls thread) world.shared (world.control thread)
      next here events notify) :
    Passed calls (world.advance thread next here events notify) := by
  have extended := attributedWrites_advance world thread next here events notify
  rcases transition.offset_of with ⟨same, none⟩ | ⟨data, call, _, one, moved⟩
  · rw [none, List.map_nil, List.append_nil] at extended
    constructor
    · intro entry member
      rw [extended] at member
      exact (passed.behind entry member).trans same.ge
    · intro other data location write nonempty fresh
      rw [extended] at fresh
      exact same.le.trans (passed.ahead other data location write nonempty fresh)
  · have fits := partition.within thread data _ call
    rw [add_eq_pure (fits.trans_lt partition.word), Machine.val_pure] at moved
    rw [one, List.map_singleton] at extended
    constructor
    · intro entry member
      change _ ≤ next.nextOffset
      rw [extended, List.mem_append, List.mem_singleton] at member
      rcases member with earlier | rfl
      · have before := passed.behind entry earlier
        omega
      · exact moved.ge
    · intro other otherData location write nonempty fresh
      change next.nextOffset ≤ location
      rw [extended, List.map_append, List.mem_append, not_or] at fresh
      have before := passed.ahead other otherData location write nonempty fresh.1
      by_contra beyond
      have positive := List.length_pos_iff.mpr nonempty
      have same := partition.disjoint thread other data _ otherData location location call write
        before (by omega) le_rfl (by omega)
      exact fresh.2 (List.mem_singleton.mpr same.symm)

theorem Reachable.passed (partition : Partition calls size)
    (reachable : Reachable env calls world) : Passed calls world :=
  reachable.invariant passed_initial
    (fun _ _ _ _ _ _ _ passed transition => Passed.advance partition passed transition)
    (fun _ _ passed => { passed with })

/-! ## Writes that were turned away -/

omit [DecidableEq ι] in
/-- While no failure is latched, a write that ended without having passed
`PrepareWrite` was turned away from a closed session, and no write waits behind
its bytes. -/
structure Settled (calls : ι → Call) (world : UploadWorld ι) : Prop where
  ended : world.shared.failed = false → ∀ thread data location result,
    calls thread = .write data location → world.control thread = .done result →
      (Pc.done result).passed = true ∨
        (world.shared.lifecycleState ≠ .active ∧
          (data ≠ [] → ∀ other otherData otherLocation,
            calls other = .write otherData otherLocation →
              world.control other = .prepareWrite → otherLocation ≤ location))

omit [DecidableEq ι] in
theorem settled_initial : Settled calls initialWorld where
  ended := fun _ _ _ _ _ _ ended => by contradiction

omit [DecidableEq ι] in
/-- A write waits in `PrepareWrite` only while the session is active or being
aborted. -/
theorem Control.open_of_prepareWrite (control : Control calls world) {data : Bytes}
    {location : Nat} (write : calls thread = .write data location)
    (preparing : world.control thread = .prepareWrite) :
    world.shared.lifecycleState = .active ∨ world.shared.lifecycleState = .aborting := by
  have active : (world.control thread).active = true := by
    rw [preparing]
    rfl
  have busy := (control.counted thread).active active
  cases state : world.shared.lifecycleState with
  | active => exact Or.inl rfl
  | aborting => exact Or.inr rfl
  | finalizing =>
      exact absurd state ((control.present thread).writing active (by simp [write]))
  | finalized =>
      have idle := (control.coherent.finalized state).1
      omega
  | aborted =>
      have idle := (control.coherent.aborted state).1
      omega

theorem Settled.advance (control : Control calls world) (settled : Settled calls world)
    (admitted : ¬ Strands calls world thread)
    (transition : Transition env (calls thread) world.shared (world.control thread)
      next here events notify) :
    Settled calls (world.advance thread next here events notify) := by
  have change := change_of_transition control.coherent (control.present thread) transition
  constructor
  intro healthy ended data location result write finished
  have before : world.shared.failed = false := by
    by_contra failed
    have still := change.failed_mono (by simpa using failed)
    rw [show next.failed = false from healthy] at still
    contradiction
  by_cases same : ended = thread
  · subst same
    have endsHere : here = .done result := by simpa [World.advance] using finished
    rcases transition.ends_healthy (control.present ended) (by rw [write]; rfl) endsHere healthy
      with passed | ⟨position, rfl, inactive⟩
    · exact Or.inl (endsHere ▸ passed)
    · refine Or.inr ⟨inactive, ?_⟩
      intro nonempty other otherData otherLocation otherWrite preparing
      have different : other ≠ ended := by
        rintro rfl
        simp [World.advance, endsHere] at preparing
      have waiting : world.control other = .prepareWrite := by
        simpa [World.advance, different] using preparing
      by_contra behind
      rcases control.open_of_prepareWrite otherWrite waiting with active | aborting
      · exact inactive active
      · exact admitted ⟨position, aborting, before, data, location, write, nonempty, other,
          otherData, otherLocation, otherWrite, waiting, by omega⟩
  · rcases settled.ended before ended data location result write
      (by simpa [World.advance, same] using finished) with passed | ⟨inactive, front⟩
    · exact Or.inl passed
    · refine Or.inr ⟨change.finalize_mono (fun _ => inactive) healthy, ?_⟩
      intro nonempty other otherData otherLocation otherWrite preparing
      by_cases moved : other = thread
      · subst moved
        exact absurd (transition.admits_write (by simpa [World.advance] using preparing)) inactive
      · exact front nonempty other otherData otherLocation otherWrite
          (by simpa [World.advance, moved] using preparing)

/-! ## Stuck states -/

omit [DecidableEq ι] in
/-- A waiting call knows that a failure has not been latched, or that its
cleanup is not complete. -/
theorem Waits.inactive {call : Call} {session : Session} {pc : Pc}
    (waits : Waits call session pc) (failed : session.failed = true) : pc.active = false := by
  cases pc with
  | prepareWrite =>
      cases call with
      | write data location =>
          have healthy := waits.2
          rw [failed] at healthy
          contradiction
      | finalize | abort => contradiction
  | ensureUpload part after =>
      have healthy := waits.2
      rw [failed] at healthy
      contradiction
  | _ => first
      | rfl
      | contradiction

omit [DecidableEq ι] in
theorem Waits.not_cleaning {call : Call} {session : Session} {pc : Pc}
    (waits : Waits call session pc) : pc.cleaning = false := by
  cases pc <;> first
    | rfl
    | contradiction

omit [DecidableEq ι] in
theorem Waits.not_initializing {call : Call} {session : Session} {pc : Pc}
    (waits : Waits call session pc) : pc.initializing = false := by
  cases pc <;> first
    | rfl
    | contradiction

omit [DecidableEq ι] in
/-- An operation that waits while nothing is being initialized and nothing has
failed waits in `PrepareWrite`. -/
theorem Waits.preparing {call : Call} {session : Session} {pc : Pc}
    (waits : Waits call session pc) (active : pc.active = true)
    (initialized : session.initializationState ≠ .inProgress) : pc = .prepareWrite := by
  cases pc with
  | prepareWrite => rfl
  | ensureUpload part after => exact absurd waits.1 initialized
  | _ => contradiction

/-- In a stuck state every call has ended or waits for its condition. -/
theorem waits_of_stuck (control : Control calls world)
    (sleepers : SleepersBlocked (program env calls) world)
    (stuck : Stuck (program env calls) world) (thread : ι) :
    (∃ result, world.control thread = .done result) ∨
      Waits (calls thread) world.shared (world.control thread) := by
  by_contra neither
  push Not at neither
  obtain ⟨unfinished, ready⟩ := neither
  have awake : world.asleep thread = false := by
    by_contra asleep
    have waits := sleepers thread (by simpa using asleep) initiated
    exact ready ((callStep_eq_wait_iff _ initiated).mp waits)
  have placed (here : world.control thread = .prepareWrite) :
      ∃ data location, calls thread = .write data location := by
    have owned := (control.present thread).owned
    rw [here] at owned
    cases write : calls thread with
    | write data location => exact ⟨data, location, rfl⟩
    | finalize | abort =>
        rw [write] at owned
        contradiction
  have decides : Decides (Waits (calls thread) world.shared (world.control thread))
      (callStep env (calls thread) world.shared (world.control thread) initiated) :=
    callStep_decides _ initiated unfinished placed
  rcases decides with ⟨waits, _⟩ | ⟨_, shared, here, events, notify, advances⟩
  · exact ready waits
  · have moves : program env calls thread world.shared (world.control thread) initiated =
        some (.advance shared here events notify) := advances
    have enabled := step_of_advance awake moves
    rw [stuck.2 thread initiated] at enabled
    contradiction

omit [DecidableEq ι] in
/-- After a failure somebody can always go on. -/
theorem healthy_of_waits (control : Control calls world)
    (waits : ∀ thread, (∃ result, world.control thread = .done result) ∨
      Waits (calls thread) world.shared (world.control thread))
    (sleeper : Waits (calls thread) world.shared (world.control thread)) :
    world.shared.failed = false := by
  by_contra healthy
  have failed : world.shared.failed = true := by simpa using healthy
  have idle : world.shared.activeOperations = 0 := by
    by_contra busy
    obtain ⟨operating, active⟩ := control.operations.exists_role (Nat.pos_of_ne_zero busy)
    rcases waits operating with ⟨result, ended⟩ | waiting
    · simp [ended, Pc.active] at active
    · rw [waiting.inactive failed] at active
      contradiction
  have complete : world.shared.cleanupState = .complete := by
    cases state : world.shared.cleanupState with
    | none => exact absurd state (control.coherent.failed_idle failed idle)
    | inProgress =>
        obtain ⟨cleaner, cleaning⟩ := control.cleaner.exists_role
          (by simp [Session.cleaners, state])
        rcases waits cleaner with ⟨result, ended⟩ | waiting
        · simp [ended, Pc.cleaning, Pc.cleanupOwner] at cleaning
        · rw [waiting.not_cleaning] at cleaning
          contradiction
    | complete => rfl
  have aborting : world.shared.lifecycleState ≠ .aborting := by
    intro state
    obtain ⟨aborter, aborts⟩ := control.aborter.exists_role
      (by simp [Session.aborters, state])
    rcases waits aborter with ⟨result, ended⟩ | waiting
    · simp [ended, Pc.aborting, Pc.cleanupOwner] at aborts
    · cases position : world.control aborter with
      | awaitOperations =>
          rw [position] at waiting
          exact absurd idle (Nat.ne_of_gt waiting)
      | awaitAbortCleanup =>
          rw [position] at waiting
          exact waiting complete
      | sendAbort | awaitAbort | publishCleanup =>
          rw [position] at waiting
          contradiction
      | _ => simp [position, Pc.aborting, Pc.cleanupOwner] at aborts
  cases position : world.control thread with
  | start =>
      rw [position] at sleeper
      cases call : calls thread with
      | abort =>
          rw [call] at sleeper
          rcases sleeper with finalizing | state
          · simp [(control.coherent.finalizing finalizing).2] at failed
          · exact aborting state
      | write | finalize =>
          rw [call] at sleeper
          exact sleeper.2 complete
  | awaitOperations =>
      rw [position] at sleeper
      exact absurd idle (Nat.ne_of_gt sleeper)
  | awaitCleanup | awaitAbortCleanup =>
      rw [position] at sleeper
      exact sleeper complete
  | _ =>
      have inactive := sleeper.inactive failed
      rw [position] at sleeper inactive
      contradiction

omit [DecidableEq ι] in
/-- Without a failure everybody waits for a write in `PrepareWrite`. -/
theorem exists_prepareWrite (control : Control calls world)
    (waits : ∀ thread, (∃ result, world.control thread = .done result) ∨
      Waits (calls thread) world.shared (world.control thread))
    (healthy : world.shared.failed = false)
    (sleeper : Waits (calls thread) world.shared (world.control thread)) :
    ∃ waiter, world.control waiter = .prepareWrite ∧
      Waits (calls waiter) world.shared (world.control waiter) := by
  have initialized : world.shared.initializationState ≠ .inProgress := by
    intro progress
    obtain ⟨initializer, initializing⟩ := control.initializer.exists_role
      (by simp [Session.initializers, progress])
    rcases waits initializer with ⟨result, ended⟩ | waiting
    · simp [ended, Pc.initializing] at initializing
    · rw [waiting.not_initializing] at initializing
      contradiction
  have operating (busy : 0 < world.shared.activeOperations) :
      ∃ waiter, world.control waiter = .prepareWrite ∧
        Waits (calls waiter) world.shared (world.control waiter) := by
    obtain ⟨waiter, active⟩ := control.operations.exists_role busy
    rcases waits waiter with ⟨result, ended⟩ | waiting
    · simp [ended, Pc.active] at active
    · exact ⟨waiter, waiting.preparing active initialized, waiting⟩
  have unfailed (other : ι) : (world.control other).afterFailure = false := by
    by_contra after
    have failed := (control.present other).failed (by simpa using after)
    rw [healthy] at failed
    contradiction
  cases position : world.control thread with
  | start =>
      rw [position] at sleeper
      cases call : calls thread with
      | write | finalize =>
          rw [call] at sleeper
          have failed := sleeper.1
          rw [healthy] at failed
          contradiction
      | abort =>
          rw [call] at sleeper
          rcases sleeper with finalizing | aborting
          · exact operating (by rw [(control.coherent.finalizing finalizing).1]; exact one_pos)
          · obtain ⟨aborter, aborts⟩ := control.aborter.exists_role
              (by simp [Session.aborters, aborting])
            rcases waits aborter with ⟨result, ended⟩ | waiting
            · simp [ended, Pc.aborting, Pc.cleanupOwner] at aborts
            · cases there : world.control aborter with
              | awaitOperations =>
                  rw [there] at waiting
                  exact operating waiting
              | awaitAbortCleanup =>
                  have after := unfailed aborter
                  rw [there] at after
                  contradiction
              | sendAbort | awaitAbort | publishCleanup =>
                  rw [there] at waiting
                  contradiction
              | _ => simp [there, Pc.aborting, Pc.cleanupOwner] at aborts
  | prepareWrite => exact ⟨thread, position, sleeper⟩
  | ensureUpload =>
      rw [position] at sleeper
      exact absurd sleeper.1 initialized
  | awaitOperations =>
      rw [position] at sleeper
      exact operating sleeper
  | awaitCleanup | awaitAbortCleanup =>
      have after := unfailed thread
      rw [position] at after
      contradiction
  | _ =>
      rw [position] at sleeper
      contradiction

/-- A session whose writes tile a range is not stuck unless a write was
stranded. -/
theorem not_stuck (partition : Partition calls size) (reachable : Reachable env calls world)
    (settled : Settled calls world) (sleepers : SleepersBlocked (program env calls) world) :
    ¬ Stuck (program env calls) world := by
  intro stuck
  have control := reachable.control
  have passed := reachable.passed partition
  have writers := reachable.writers
  have waits := waits_of_stuck control sleepers stuck
  obtain ⟨⟨sleeper, asleep⟩, _⟩ := stuck
  have sleeping := (callStep_eq_wait_iff _ initiated).mp (sleepers sleeper asleep initiated)
  have healthy := healthy_of_waits control waits sleeping
  obtain ⟨waiter, preparing, waiting⟩ := exists_prepareWrite control waits healthy sleeping
  rw [preparing] at waiting
  cases waiterCall : calls waiter with
  | finalize | abort =>
      rw [waiterCall] at waiting
      contradiction
  | write waiterData waiterLocation =>
      rw [waiterCall] at waiting
      have bound := partition.within waiter _ _ waiterCall
      obtain ⟨front, data, location, write, below, above⟩ :=
        partition.covers world.shared.nextOffset (by have := waiting.1; omega)
      have nonempty : data ≠ [] := by
        rintro rfl
        simp at above
        omega
      have unprepared : front ∉ (attributedWrites world.trace).map Prod.fst := by
        intro member
        obtain ⟨entry, prepared, rfl⟩ := List.mem_map.mp member
        have behind := passed.behind entry prepared
        have own := writers.own entry prepared
        rw [write, Call.write.injEq] at own
        rw [← own.1, ← own.2] at behind
        omega
      have owns : (calls front).owns .write = true := by
        rw [write]
        rfl
      rcases waits front with ⟨result, ended⟩ | blocked
      · rcases settled.ended healthy front data location result write ended with
          past | ⟨_, behind⟩
        · exact unprepared (writers.passed front owns (ended ▸ past))
        · have order := behind nonempty waiter waiterData waiterLocation waiterCall preparing
          have ahead := waiting.1
          omega
      · by_cases position : world.control front = .prepareWrite
        · rw [position, write] at blocked
          have ahead := blocked.1
          omega
        · have owned := (control.present front).owned
          by_cases past : (world.control front).passed = true
          · exact unprepared (writers.passed front owns past)
          · cases there : world.control front with
            | start =>
                rw [there, write] at blocked
                have failed := blocked.1
                rw [healthy] at failed
                contradiction
            | prepareWrite => exact position there
            | ensureUpload part after =>
                cases after with
                | write rest => simp [there, Pc.passed, Pc.owner, After.owner] at past
                | finalize =>
                    rw [there, write] at owned
                    contradiction
            | awaitCleanup releaser | awaitAbortCleanup =>
                have failed := (control.present front).failed (by rw [there]; rfl)
                rw [healthy] at failed
                contradiction
            | awaitOperations =>
                rw [there, write] at owned
                contradiction
            | _ =>
                rw [there] at blocked
                contradiction

/-- In every run that strands no write, no state is stuck: whenever a call
waits on `state_changed`, some call can take a step. -/
theorem upload_not_stuck (env : Env) (calls : ι → Call) (size : Nat)
    (partition : Partition calls size)
    (run : RunWhere (program env calls) (fun world thread => ¬ Strands calls world thread)
      initialWorld world) : ¬ Stuck (program env calls) world := by
  have sleepers := run.sleepersBlocked (program_notifiesWaiters env calls)
    (sleepersBlocked_initial _ _ _)
  have kept := run.invariant
    (motive := fun world => Control calls world ∧ Settled calls world) ?_
    ⟨.initial, settled_initial⟩
  · exact not_stuck partition run.run kept.2 sleepers
  · rintro world next thread choice ⟨control, settled⟩ admitted stepped
    obtain ⟨awake, ⟨waits, rfl⟩ | ⟨shared, here, events, notify, advances, rfl⟩⟩ :=
      step_cases stepped
    · exact ⟨{ control with }, { settled with }⟩
    · cases advance_of_callStep advances with
      | once transition =>
          exact ⟨control.advance transition, settled.advance control admitted transition⟩
      | twice first second =>
          rename_i middle
          have moved := control.advance first
          have kept := settled.advance control admitted first
          have onward : Transition env (calls thread)
              (world.advance thread middle .awaitOperations [] false).shared
              ((world.advance thread middle .awaitOperations [] false).control thread)
              shared here events notify := by
            simpa [World.advance] using second
          have elsewhere : ¬ Strands calls
              (world.advance thread middle .awaitOperations [] false) thread := by
            intro strands
            have position := strands.1
            simp [World.advance] at position
          rw [← World.advance_advance world thread middle shared .awaitOperations here]
          exact ⟨moved.advance onward, kept.advance moved elsewhere onward⟩

omit [DecidableEq ι] in
theorem failed_of_advance (control : Control calls world) [DecidableEq ι]
    (advance : Advance env (calls thread) world.shared (world.control thread) next here events
      notify) (failed : world.shared.failed = true) : next.failed = true := by
  cases advance with
  | once transition =>
      exact (change_of_transition control.coherent (control.present thread)
        transition).failed_mono failed
  | twice first second =>
      rename_i middle
      have moved := control.advance first
      have between := (change_of_transition control.coherent (control.present thread)
        first).failed_mono failed
      have present := moved.present thread
      have position : (world.advance thread middle .awaitOperations [] false).control thread =
          .awaitOperations := by simp [World.advance]
      rw [position] at present
      exact (change_of_transition moved.coherent present second).failed_mono between

/-- The write behind a stranded one never leaves its wait, unless a failure is
latched. -/
theorem stranded_waits (partition : Partition calls size) (reachable : Reachable env calls world)
    (strands : Strands calls world thread) {following final : UploadWorld ι} {choice : Choice}
    (stepped : step (program env calls) world thread choice = some following)
    (run : UploadRun env calls following final) (healthy : final.shared.failed = false) :
    ∃ other, world.control other = .prepareWrite ∧ final.control other = .prepareWrite ∧
      Waits (calls other) final.shared .prepareWrite := by
  obtain ⟨position, aborting, unfailed, data, location, write, nonempty, other, otherData,
    otherLocation, otherWrite, preparing, behind⟩ := strands
  have different : other ≠ thread := by
    rintro rfl
    rw [position] at preparing
    contradiction
  have blocked {later : UploadWorld ι} (reached : Reachable env calls later)
      (unfailed : later.shared.failed = false)
      (unprepared : thread ∉ (attributedWrites later.trace).map Prod.fst) :
      Waits (calls other) later.shared .prepareWrite := by
    have ahead := (reached.passed partition).ahead thread data location write nonempty unprepared
    rw [otherWrite]
    exact ⟨by omega, unfailed⟩
  have kept := RunWhere.invariant
    (motive := fun later => Reachable env calls later ∧ (later.shared.failed = false →
      (∃ result, later.control thread = .done result) ∧
        thread ∉ (attributedWrites later.trace).map Prod.fst ∧
        later.control other = .prepareWrite)) ?_ run ?_
  · obtain ⟨reached, stays⟩ := kept
    obtain ⟨_, unprepared, waiting⟩ := stays healthy
    exact ⟨other, preparing, waiting, blocked reached healthy unprepared⟩
  · rintro later next mover choice ⟨reached, stays⟩ _ moved
    refine ⟨reached.tail ⟨mover, choice, trivial, moved⟩, ?_⟩
    obtain ⟨awake, ⟨waits, rfl⟩ | ⟨shared, here, events, notify, advances, rfl⟩⟩ :=
      step_cases moved
    · exact stays
    · intro healthyAfter
      have before : later.shared.failed = false := by
        by_contra failed
        have still := failed_of_advance reached.control (advance_of_callStep advances)
          (by simpa using failed)
        rw [show shared.failed = false from healthyAfter] at still
        contradiction
      obtain ⟨⟨result, ended⟩, unprepared, waiting⟩ := stays before
      have notEnded : thread ≠ mover := by
        rintro rfl
        simp [program, ended, callStep] at advances
      have notOther : other ≠ mover := by
        rintro rfl
        simp only [program, waiting] at advances
        have sleeps : callStep env (calls other) later.shared .prepareWrite choice = some .wait :=
          (callStep_eq_wait_iff .prepareWrite choice).mpr (blocked reached before unprepared)
        rw [sleeps] at advances
        cases Option.some.inj advances
      refine ⟨⟨result, by simpa [World.advance, notEnded] using ended⟩, ?_,
        by simpa [World.advance, notOther] using waiting⟩
      rw [attributedWrites_advance, List.map_append, List.mem_append, not_or]
      refine ⟨unprepared, ?_⟩
      intro fresh
      obtain ⟨entry, member, rfl⟩ := List.mem_map.mp fresh
      obtain ⟨_, _, rfl⟩ := List.mem_map.mp member
      exact notEnded rfl
  · refine ⟨reachable.tail ⟨thread, choice, trivial, stepped⟩, fun _ => ?_⟩
    have unprepared : thread ∉ (attributedWrites world.trace).map Prod.fst := by
      intro member
      obtain ⟨entry, prepared, rfl⟩ := List.mem_map.mp member
      have behind := reachable.writers.behind entry prepared
      rw [position] at behind
      contradiction
    have rejected : callStep env (calls thread) world.shared (world.control thread) choice =
        reject world.shared "Cannot write to an aborted S3 upload" := by
      rw [position, write]
      simp [callStep, beginCall, beginWriteOperation, cleanupPending, unfailed, aborting]
    obtain ⟨awake, ⟨waits, rfl⟩ | ⟨shared, here, events, notify, advances, rfl⟩⟩ :=
      step_cases stepped
    · rw [program, rejected] at waits
      cases Option.some.inj waits
    · rw [program, rejected] at advances
      cases advances
      refine ⟨⟨_, Function.update_self _ _ _⟩, ?_,
        by simpa [World.advance, different] using preparing⟩
      rw [attributedWrites_advance]
      simpa [preparedWrites] using unprepared

end Worlds

/-- An `Abort` waits for a write that is still under way. -/
def abortedCalls : Fin 2 → Call
  | 0 => .write [1] 0
  | 1 => .abort

theorem partition_abortedCalls : Partition abortedCalls 1 where
  word := by decide
  within := by
    intro thread data location write
    fin_cases thread
    · cases write
      decide
    · cases write
  covers := fun position bound => ⟨0, [1], 0, rfl, Nat.zero_le _, bound⟩
  disjoint := by
    intro first second firstData firstLocation secondData secondLocation position
      firstWrite secondWrite _ _ _ _
    fin_cases first
    · fin_cases second
      · rfl
      · cases secondWrite
    · cases firstWrite

theorem neZero_two : NeZero 2 :=
  ⟨by decide⟩

def waitingAbort : UploadWorld (Fin 2) :=
  haveI := neZero_two
  play (program tenByteEnv abortedCalls) initialWorld
    ([0, 1, 1].map fun call => (call, initiated))

theorem upload_not_stuck_waitingAbort :
    waitingAbort.asleep 1 = true ∧ ¬ Stuck (program tenByteEnv abortedCalls) waitingAbort := by
  have alone (world : UploadWorld (Fin 2)) (thread : Fin 2) :
      ¬ Strands abortedCalls world thread := by
    rintro ⟨_, _, _, data, location, write, _, other, otherData, otherLocation, otherWrite, _,
      behind⟩
    fin_cases thread
    · fin_cases other
      · cases write
        cases otherWrite
        omega
      · cases otherWrite
    · cases write
  have run : RunWhere (program tenByteEnv abortedCalls)
      (fun world thread => ¬ Strands abortedCalls world thread) initialWorld waitingAbort := by
    apply Relation.ReflTransGen.mono _ _ _ (run_play _ _ _)
    rintro world next ⟨thread, choice, _, stepped⟩
    exact ⟨thread, choice, alone world thread, stepped⟩
  exact ⟨by decide, upload_not_stuck tenByteEnv abortedCalls 1 partition_abortedCalls run⟩

/-! ## A stranded write -/

/-- The second byte of an object is written first, and the upload is aborted
before the first byte arrives. -/
def strandedCalls : Fin 3 → Call
  | 0 => .write [1] 0
  | 1 => .write [2] 1
  | 2 => .abort

theorem partition_strandedCalls : Partition strandedCalls 2 where
  word := by decide
  within := by
    intro thread data location write
    fin_cases thread
    · cases write
      decide
    · cases write
      decide
    · cases write
  covers := by
    intro position bound
    rcases Nat.lt_succ_iff_lt_or_eq.mp bound with first | second
    · exact ⟨0, [1], 0, rfl, Nat.zero_le _, first⟩
    · exact ⟨1, [2], 1, rfl, second.ge, by simp [second]⟩
  disjoint := by
    intro first second firstData firstLocation secondData secondLocation position
      firstWrite secondWrite firstLower firstUpper secondLower secondUpper
    fin_cases first <;> fin_cases second <;> cases firstWrite <;> cases secondWrite <;>
      simp at firstUpper secondUpper ⊢ <;> omega

def strandedWorld : UploadWorld (Fin 3) :=
  haveI := neZero_three
  play (program tenByteEnv strandedCalls) initialWorld
    ([1, 1, 2, 2, 0].map fun call => (call, initiated))

theorem upload_stuck_stranded :
    ∃ world, (S3UploadConfig.create ⟨262144, by decide, by decide⟩ 10 1).val =
        .ok tenByteEnv.config ∧
      Partition strandedCalls 2 ∧ Reachable tenByteEnv strandedCalls world ∧
      Stuck (program tenByteEnv strandedCalls) world := by
  refine ⟨strandedWorld, by decide, partition_strandedCalls, run_play _ _ _, ⟨1, ?_⟩, ?_⟩
  · decide
  · intro thread choice
    have blocked : strandedWorld.asleep thread = true ∨
        strandedWorld.control thread =
          .done (.threw (.io "Cannot write to an aborted S3 upload")) := by
      revert thread
      decide
    rcases blocked with asleep | ended
    · simp [step, asleep]
    · simp [step, program, callStep, ended]

end Httpfs.S3.Upload
