import Httpfs.Http.RangeRequest.Probe

/-!
# The verdict on range requests

A guard that has been moved from still thinks that the support is unknown, so it
can overrule the verdict of the guard that took the probe over.  The readers of
files only destroy the guards they have moved from; with that, the verdict that
ranges are not supported is final.
-/

namespace Httpfs.Http.RangeRequest

open Httpfs.Transition
open Httpfs.Transition.Monitor

universe u

variable {ι : Type u}

/-! ## Guards that are left alone once they are moved from -/

/-- A guard that has been moved from is only destroyed. -/
def Careful (shared : Shared) (control : Control) (operation : Operation) : Prop :=
  control = .running → ∀ handle guard, operation.subject = some handle →
    shared.guards.get handle = some guard → guard.movedFrom = true → operation = .destroy handle

theorem careful_beginRequest (shared : Shared) (control : Control) (enabled : Bool) :
    Careful shared control (.beginRequest enabled) := by
  rintro _ _ _ ⟨⟩

/-- The owner of the probe is up to date, and a guard that is not sure owns it. -/
structure Current (shared : Shared) : Prop where
  owner : shared.guards.All fun guard => guard.Owns → shared.state.support = .unknown
  cached : shared.guards.All fun guard =>
    guard.support = .unknown → guard.Owns ∨ guard.movedFrom = true

theorem current_initial : Current {} :=
  ⟨Arena.all_empty, Arena.all_empty⟩

namespace Current

variable {shared : Shared}

/-- When a guard in use is marked, it is the owner or the probe is over. -/
theorem not_any_marked (current : Current shared) (sound : Sound shared) {handle : Nat}
    {guard marked : Guard} (live : shared.guards.get handle = some guard)
    (enabled : guard.enabled = true) (inUse : guard.movedFrom = false) (other : ¬ marked.Owns) :
    ¬ (shared.guards.modify handle fun _ => marked).Any Guard.Owns := by
  by_cases owns : guard.Owns
  · exact sound.unique.not_any_modify live owns other
  · rw [Arena.any_modify live (iff_of_false other owns)]
    rintro ⟨owner, value, ownerLive, holds⟩
    have known : guard.support ≠ .unknown := by
      intro unknown
      rcases current.cached handle guard live unknown with isOwner | movedFrom
      · exact owns isOwner
      · rw [inUse] at movedFrom
        contradiction
    exact sound.resolved handle guard live enabled known (current.owner owner value ownerLive holds)

theorem resolve (current : Current shared) (sound : Sound shared) {handle : Nat}
    {guard marked : Guard} (live : shared.guards.get handle = some guard)
    (enabled : guard.enabled = true) (inUse : guard.movedFrom = false) (other : ¬ marked.Owns)
    (known : marked.support ≠ .unknown) (state : RangeRequestState) :
    Current ⟨state, shared.guards.modify handle fun _ => marked⟩ where
  owner position value positionLive owns :=
    absurd ⟨position, value, positionLive, owns⟩
      (current.not_any_marked sound live enabled inUse other)
  cached := current.cached.modify fun _ _ _ unknown => absurd unknown known

theorem modify_self (current : Current shared) {handle : Nat} {guard : Guard}
    (live : shared.guards.get handle = some guard) :
    Current ⟨shared.state, shared.guards.modify handle fun _ => guard⟩ := by
  constructor
  · exact current.owner.modify fun _ _ _ => current.owner handle guard live
  · exact current.cached.modify fun _ _ _ => current.cached handle guard live

theorem perform (current : Current shared) (sound : Sound shared) {operation : Operation}
    {handle : Nat} {guard : Guard} (subject : operation.subject = some handle)
    (live : shared.guards.get handle = some guard)
    (careful : guard.movedFrom = true → operation = .destroy handle) :
    Current (shared.perform guard operation).1 := by
  have inUse : operation ≠ .destroy handle → guard.movedFrom = false := by
    intro other
    rw [← Bool.not_eq_true]
    exact fun movedFrom => other (careful movedFrom)
  cases operation with
  | beginRequest => contradiction
  | markSupported other =>
      cases subject
      simp only [Shared.perform, Guard.markSupported]
      split
      · rename_i marks
        rw [Bool.and_eq_true, beq_iff_eq] at marks
        exact current.resolve sound live marks.1 (inUse (by simp)) (guard.not_owns_marked .supported)
          (by simp) _
      · exact current.modify_self live
  | markNotSupported other =>
      cases subject
      simp only [Shared.perform, Guard.markNotSupported]
      split
      · rename_i enabled
        exact current.resolve sound live enabled (inUse (by simp))
          (guard.not_owns_marked .notSupported) (by simp) _
      · exact current.modify_self live
  | move other =>
      cases subject
      constructor
      · apply Arena.All.insert
        · exact current.owner.modify fun _ _ _ owns => absurd owns Bool.false_ne_true
        · exact current.owner handle guard live
      · apply Arena.All.insert
        · exact current.cached.modify fun _ _ _ _ => .inr rfl
        · intro unknown
          rcases current.cached handle guard live unknown with owns | movedFrom
          · exact .inl owns
          · rw [inUse (by simp)] at movedFrom
            contradiction
  | destroy other =>
      cases subject
      constructor
      · simp only [Shared.perform, Guard.destroy_support]
        exact current.owner.erase handle
      · exact current.cached.erase handle

theorem change (current : Current shared) (sound : Sound shared) {control control' : Control}
    {operation : Operation} {shared' : Shared} {notify : Bool}
    (change : Change shared control operation shared' control' notify)
    (careful : Careful shared control operation) : Current shared' := by
  induction change with
  | disabled =>
      exact ⟨current.owner.insert fun owns => absurd owns Bool.false_ne_true,
        current.cached.insert fun unknown => nomatch unknown⟩
  | known _ _ known =>
      exact ⟨current.owner.insert fun owns => absurd owns Bool.false_ne_true,
        current.cached.insert fun unknown => absurd unknown known⟩
  | read => exact current
  | construct =>
      unfold Guard.construct
      split
      · rename_i unknown
        exact ⟨current.owner.insert fun _ => unknown, current.cached.insert fun _ => .inl rfl⟩
      · rename_i known
        exact ⟨current.owner.insert fun owns => absurd owns Bool.false_ne_true,
          current.cached.insert fun unknown => absurd unknown known⟩
  | perform handle guard running subject live =>
      exact current.perform sound subject live (careful running handle guard subject live)

/-- The verdict that ranges are not supported is final. -/
theorem stays_notSupported (current : Current shared) {control control' : Control}
    {operation : Operation} {shared' : Shared} {notify : Bool}
    (change : Change shared control operation shared' control' notify)
    (careful : Careful shared control operation)
    (notSupported : shared.state.support = .notSupported) :
    shared'.state.support = .notSupported := by
  by_contra changed
  have written : shared'.state.support ≠ shared.state.support := by
    rw [notSupported]
    exact changed
  rcases change.resolves written with
    ⟨running, handle, guard, live, -, ⟨isMark, unknown, -⟩ | ⟨-, eq⟩⟩
  · rcases current.cached handle guard live unknown with owns | movedFrom
    · have stillUnknown := current.owner handle guard live owns
      rw [notSupported] at stillUnknown
      contradiction
    · have isDestroy := careful running handle guard (by rw [isMark]; rfl) live movedFrom
      rw [isMark] at isDestroy
      contradiction
  · exact changed eq

end Current

/-! ## Runs -/

theorem Change.silent {shared shared' : Shared} {control control' : Control}
    {operation : Operation} (change : Change shared control operation shared' control' false)
    (mustWait : shared.state.mustWait = true) : shared'.state = shared.state := by
  generalize isSilent : false = notify at change
  induction change with
  | disabled => rfl
  | known => rfl
  | read => rfl
  | construct _ free =>
      rw [mustWait] at free
      contradiction
  | perform => exact Shared.perform_silent isSilent.symm

theorem notifiesWaiters : NotifiesWaiters (program ι) where
  waits := by
    intro thread shared control choice waits other
    rcases program_wait waits with ⟨rfl, mustWait⟩
    exact if_pos mustWait
  silent := by
    intro thread shared control choice shared' control' events advances sleeper waiting blocked other
    rcases program_wait (blocked other) with ⟨rfl, mustWait⟩
    have same := (program_advance advances).silent mustWait
    exact if_pos (by rw [same, mustWait])

variable [DecidableEq ι]

/-- No thread is in the middle of anything and no guard has been made. -/
def start (ι : Type u) : World ι Shared Control Empty :=
  World.initial {} .running

theorem step_change {world next : World ι Shared Control Empty} {thread : ι}
    {operation : Operation} (stepped : step (program ι) world thread operation = some next) :
    (world.control thread = .constructing ∧ next.shared = world.shared) ∨
      ∃ control notify,
        Change world.shared (world.control thread) operation next.shared control notify := by
  rcases (step_cases stepped).2 with
    ⟨waits, rfl⟩ | ⟨shared, control, events, notify, advances, rfl⟩
  · exact .inl ⟨(program_wait waits).1, rfl⟩
  · exact .inr ⟨control, notify, program_advance advances⟩

theorem Sound.step {world next : World ι Shared Control Empty} (sound : Sound world.shared)
    {thread : ι} {operation : Operation}
    (stepped : Monitor.step (program ι) world thread operation = some next) :
    Sound next.shared := by
  rcases step_change stepped with ⟨-, same⟩ | ⟨_, _, change⟩
  · rwa [same]
  · exact sound.change change

theorem sound_of_run {world : World ι Shared Control Empty}
    (run : Run (program ι) (start ι) world) : Sound world.shared :=
  run.invariant (motive := fun world => Sound world.shared)
    (fun _ _ _ _ sound _ stepped => sound.step stepped) sound_initial

/-- A thread that is left asleep waits for the owner of the probe. -/
theorem any_owns_of_asleep {world : World ι Shared Control Empty}
    (run : Run (program ι) (start ι) world) {thread : ι} (asleep : world.asleep thread = true) :
    world.shared.guards.Any Guard.Owns := by
  have blocked := run.sleepersBlocked notifiesWaiters
    (sleepersBlocked_initial (program ι) {} .running) thread asleep
  rcases program_wait (blocked (.beginRequest false)) with ⟨-, mustWait⟩
  rw [RangeRequestState.mustWait, Bool.and_eq_true, beq_iff_eq] at mustWait
  exact ((sound_of_run run).probing mustWait.2).mp mustWait.1

/-- The runs in which guards are left alone once they are moved from. -/
abbrev CarefulRun : World ι Shared Control Empty → World ι Shared Control Empty → Prop :=
  RunChoosing (program ι) fun world thread operation =>
    Careful world.shared (world.control thread) operation

theorem Current.step {world next : World ι Shared Control Empty} (current : Current world.shared)
    (sound : Sound world.shared) {thread : ι} {operation : Operation}
    (careful : Careful world.shared (world.control thread) operation)
    (stepped : Monitor.step (program ι) world thread operation = some next) :
    Current next.shared ∧ (world.shared.state.support = .notSupported →
      next.shared.state.support = .notSupported) := by
  rcases step_change stepped with ⟨-, same⟩ | ⟨_, _, change⟩
  · rw [same]
    exact ⟨current, id⟩
  · exact ⟨current.change sound change careful, current.stays_notSupported change careful⟩

theorem current_of_carefulRun {world : World ι Shared Control Empty}
    (careful : CarefulRun (start ι) world) : Sound world.shared ∧ Current world.shared :=
  careful.invariant (motive := fun world => Sound world.shared ∧ Current world.shared)
    (fun _ _ _ _ both admitted stepped =>
      ⟨both.1.step stepped, (both.2.step both.1 admitted stepped).1⟩)
    ⟨sound_initial, current_initial⟩

/-- In a careful run the verdict that ranges are not supported is final. -/
theorem notSupported_of_carefulRun {world later : World ι Shared Control Empty}
    (before : CarefulRun (start ι) world) (after : CarefulRun world later)
    (notSupported : world.shared.state.support = .notSupported) :
    later.shared.state.support = .notSupported := by
  induction after with
  | refl => exact notSupported
  | tail between last inductionHypothesis =>
      rcases current_of_carefulRun (before.trans between) with ⟨sound, current⟩
      rcases last with ⟨thread, operation, admitted, stepped⟩
      exact (current.step sound admitted stepped).2 inductionHypothesis

/-- What a step may do to the state. -/
structure StepSound (world next : World ι Shared Control Empty) (thread : ι)
    (operation : Operation) : Prop where
  known : world.shared.state.support ≠ .unknown → next.shared.state.support ≠ .unknown
  resolves : next.shared.state.support ≠ world.shared.state.support →
    world.control thread = .running ∧ ∃ handle guard,
      world.shared.guards.get handle = some guard ∧ guard.enabled = true ∧
        ((operation = .markSupported handle ∧ guard.support = .unknown ∧
            next.shared.state.support = .supported) ∨
          (operation = .markNotSupported handle ∧
            next.shared.state.support = .notSupported))
  disabled : world.control thread = .running →
    (operation = .beginRequest false ∨ ∃ handle guard, operation.subject = some handle ∧
      world.shared.guards.get handle = some guard ∧ guard.enabled = false) →
    next.shared.state = world.shared.state

theorem Sound.stepSound {world next : World ι Shared Control Empty} (sound : Sound world.shared)
    {thread : ι} {operation : Operation}
    (stepped : Monitor.step (program ι) world thread operation = some next) :
    StepSound world next thread operation := by
  rcases step_change stepped with ⟨constructing, same⟩ | ⟨_, _, change⟩
  · constructor
    · rw [same]
      exact id
    · rw [same]
      exact fun written => absurd rfl written
    · rw [constructing]
      exact fun running => nomatch running
  · exact ⟨change.stays_known, change.resolves, change.of_disabled sound⟩

/-- The probe in every interleaving; and, as long as guards that are moved from
are only destroyed, what a guard that is not sure and a negative verdict mean. -/
theorem rangeRequest_sound (ι : Type u) [DecidableEq ι] :
    (∀ world, Run (program ι) (start ι) world →
      world.shared.guards.AtMostOne Guard.Owns ∧
      (world.shared.state.support = .unknown →
        (world.shared.state.probing = true ↔ world.shared.guards.Any Guard.Owns)) ∧
      (∀ thread, world.asleep thread = true → world.shared.guards.Any Guard.Owns) ∧
      ∀ next thread operation, step (program ι) world thread operation = some next →
        StepSound world next thread operation) ∧
    ∀ world, CarefulRun (start ι) world →
      (world.shared.guards.All fun guard =>
        guard.support = .unknown → guard.Owns ∨ guard.movedFrom = true) ∧
      (world.shared.state.support = .notSupported → ∀ later, CarefulRun world later →
        later.shared.state.support = .notSupported) := by
  constructor
  · intro world run
    have sound := sound_of_run run
    exact ⟨sound.unique, sound.probing, fun _ => any_owns_of_asleep run,
      fun _ _ _ => sound.stepSound⟩
  · intro world careful
    exact ⟨(current_of_carefulRun careful).2.cached,
      fun notSupported _ after => notSupported_of_carefulRun careful after notSupported⟩

/-- One careful step of the only thread. -/
private abbrev Admitted : World Unit Shared Control Empty → World Unit Shared Control Empty → Prop :=
  NextChoosing (program Unit) fun world thread operation =>
    Careful world.shared (world.control thread) operation

/-- A request finds that ranges are not supported. -/
private def refused : World Unit Shared Control Empty :=
  play (program Unit) (start Unit)
    [((), .beginRequest true), ((), .beginRequest true), ((), .markNotSupported 0)]

private theorem carefulRun_refused : CarefulRun (start Unit) refused := by
  have begins : Admitted (start Unit)
      (play (program Unit) (start Unit) [((), .beginRequest true)]) :=
    ⟨(), .beginRequest true, careful_beginRequest _ _ _, rfl⟩
  have constructs : Admitted (play (program Unit) (start Unit) [((), .beginRequest true)])
      (play (program Unit) (start Unit) [((), .beginRequest true), ((), .beginRequest true)]) :=
    ⟨(), .beginRequest true, careful_beginRequest _ _ _, rfl⟩
  have marks : Admitted
      (play (program Unit) (start Unit) [((), .beginRequest true), ((), .beginRequest true)])
      refused := by
    refine ⟨(), .markNotSupported 0, ?_, rfl⟩
    intro _ handle guard subject live movedFrom
    cases subject
    have isNew : some (Guard.construct {}).2 = some guard := live
    cases isNew
    contradiction
  exact ((Relation.ReflTransGen.single begins).tail constructs).tail marks

theorem rangeRequest_sound_refused :
    refused.shared.guards.AtMostOne Guard.Owns ∧
      ∀ later, CarefulRun refused later → later.shared.state.support = .notSupported :=
  ⟨((rangeRequest_sound Unit).1 refused (run_play _ _ _)).1,
    ((rangeRequest_sound Unit).2 refused carefulRun_refused).2 rfl⟩

/-- A guard is moved, the new one finds that ranges are not supported, and the
one that was moved from is told that they are. -/
theorem markSupported_after_move :
    ∃ world next : World Unit Shared Control Empty,
      Run (program Unit) (start Unit) world ∧
      world.shared.state.support = .notSupported ∧
      step (program Unit) world () (.markSupported 0) = some next ∧
      next.shared.state.support = .supported := by
  refine ⟨play (program Unit) (start Unit)
    [((), .beginRequest true), ((), .beginRequest true), ((), .move 0),
      ((), .markNotSupported 1)], _, run_play _ _ _, rfl, rfl, rfl⟩

end Httpfs.Http.RangeRequest
