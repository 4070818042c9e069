import Httpfs.Transition.Arena
import Httpfs.Transition.Monitor

/-!
# Probing for range requests

Whether a server answers range requests is found out by one request at a time.
The guard of that request owns the probe; the guards of other requests are made
to wait until the probe is resolved or given up.

Guards keep a copy of the support they were made with, and they are moved from
owner to owner.  Support is read outside the lock once and written inside it, so
a step of a thread is the read or one critical section; the fields of a guard
are its holder's alone.
-/

namespace Httpfs.Http.RangeRequest

open Httpfs.Transition
open Httpfs.Transition.Monitor

universe u

inductive RangeRequestSupport
  | unknown
  | supported
  | notSupported
  deriving DecidableEq, Repr

/-- `RangeRequestState`, without its mutex and condition variable. -/
structure RangeRequestState where
  probing : Bool := false
  support : RangeRequestSupport := .unknown
  deriving DecidableEq, Repr

/-- `RangeRequestState::Guard`.  That a guard has been moved from is not a field
of the source. -/
structure Guard where
  support : RangeRequestSupport
  enabled : Bool
  ownsProbe : Bool
  movedFrom : Bool := false
  deriving DecidableEq, Repr

/-! ## Operations

A Boolean beside a new state tells whether `probe_complete` is notified. -/

namespace RangeRequestState

def resolveProbe (_state : RangeRequestState) (newSupport : RangeRequestSupport) :
    RangeRequestState :=
  { probing := false, support := newSupport }

def abortProbe (state : RangeRequestState) : RangeRequestState × Bool :=
  if state.support = .unknown then ({ state with probing := false }, true) else (state, false)

/-- The wait predicate of `BeginRequest` is false. -/
def mustWait (state : RangeRequestState) : Bool :=
  state.probing && state.support == .unknown

end RangeRequestState

namespace Guard

/-- A guard that is not enabled, or that was made when the support was known. -/
def settled (support : RangeRequestSupport) (enabled : Bool) : Guard where
  support
  enabled
  ownsProbe := false

/-- The critical section of the constructor, after the wait. -/
def construct (state : RangeRequestState) : RangeRequestState × Guard :=
  if state.support = .unknown then
    ({ state with probing := true },
      { support := .unknown, enabled := true, ownsProbe := true })
  else
    (state, settled state.support true)

def markSupported (guard : Guard) (state : RangeRequestState) :
    RangeRequestState × Guard × Bool :=
  if guard.enabled && guard.support == .unknown then
    (state.resolveProbe .supported, { guard with support := .supported, ownsProbe := false }, true)
  else (state, guard, false)

def markNotSupported (guard : Guard) (state : RangeRequestState) :
    RangeRequestState × Guard × Bool :=
  if guard.enabled then
    (state.resolveProbe .notSupported,
      { guard with support := .notSupported, ownsProbe := false }, true)
  else (state, guard, false)

/-- What the move constructor makes. -/
def moved (other : Guard) : Guard :=
  { other with movedFrom := false }

/-- What the move constructor leaves behind. -/
def leftBehind (other : Guard) : Guard :=
  { other with ownsProbe := false, movedFrom := true }

/-- `~Guard`. -/
def destroy (guard : Guard) (state : RangeRequestState) : RangeRequestState × Bool :=
  if guard.ownsProbe then state.abortProbe else (state, false)

end Guard

/-- What a thread may do next. -/
inductive Operation
  | beginRequest (enabled : Bool)
  | markSupported (guard : Nat)
  | markNotSupported (guard : Nat)
  | move (guard : Nat)
  | destroy (guard : Nat)
  deriving DecidableEq, Repr

/-- The guard an operation is called on. -/
def Operation.subject : Operation → Option Nat
  | .beginRequest _ => none
  | .markSupported guard | .markNotSupported guard | .move guard | .destroy guard => some guard

/-- A thread between two operations, or in `BeginRequest` after it has read an
unknown support. -/
inductive Control
  | running
  | constructing
  deriving DecidableEq, Repr

structure Shared where
  state : RangeRequestState := {}
  guards : Arena Guard := .empty

/-- The operation on a live guard. -/
def Shared.perform (shared : Shared) (guard : Guard) : Operation → Shared × Bool
  | .beginRequest _ => (shared, false)
  | .markSupported handle =>
      let (state, marked, notify) := guard.markSupported shared.state
      (⟨state, shared.guards.modify handle fun _ => marked⟩, notify)
  | .markNotSupported handle =>
      let (state, marked, notify) := guard.markNotSupported shared.state
      (⟨state, shared.guards.modify handle fun _ => marked⟩, notify)
  | .move handle =>
      (⟨shared.state, (shared.guards.modify handle Guard.leftBehind).insert guard.moved⟩, false)
  | .destroy handle =>
      let (state, notify) := guard.destroy shared.state
      (⟨state, shared.guards.erase handle⟩, notify)

def program (ι : Type u) : Program ι Shared Control Operation Empty
  | _, shared, .running, .beginRequest enabled =>
      if enabled then
        if shared.state.support = .unknown then some (.advance shared .constructing [] false)
        else
          some (.advance ⟨shared.state, shared.guards.insert (.settled shared.state.support true)⟩
            .running [] false)
      else
        some (.advance ⟨shared.state, shared.guards.insert (.settled .supported false)⟩
          .running [] false)
  | _, shared, .running, operation =>
      match operation.subject.bind shared.guards.get with
      | none => none
      | some guard =>
          let (shared, notify) := shared.perform guard operation
          some (.advance shared .running [] notify)
  | _, shared, .constructing, _ =>
      if shared.state.mustWait then some .wait
      else
        let (state, guard) := Guard.construct shared.state
        some (.advance ⟨state, shared.guards.insert guard⟩ .running [] false)

variable {ι : Type u}

/-! ## What a step does -/

/-- The ways a step can change what is shared. -/
inductive Change (shared : Shared) (control : Control) (operation : Operation) :
    Shared → Control → Bool → Prop
  | disabled : control = .running → operation = .beginRequest false →
      Change shared control operation
        ⟨shared.state, shared.guards.insert (.settled .supported false)⟩ .running false
  | known : control = .running → operation = .beginRequest true →
      shared.state.support ≠ .unknown → Change shared control operation
        ⟨shared.state, shared.guards.insert (.settled shared.state.support true)⟩ .running false
  | read : control = .running → operation = .beginRequest true →
      shared.state.support = .unknown → Change shared control operation shared .constructing false
  | construct : control = .constructing → shared.state.mustWait = false →
      Change shared control operation
        ⟨(Guard.construct shared.state).1, shared.guards.insert (Guard.construct shared.state).2⟩
        .running false
  | perform (handle : Nat) (guard : Guard) : control = .running →
      operation.subject = some handle → shared.guards.get handle = some guard →
      Change shared control operation (shared.perform guard operation).1 .running
        (shared.perform guard operation).2

theorem program_advance {thread : ι} {shared shared' : Shared} {control control' : Control}
    {operation : Operation} {events : List Empty} {notify : Bool}
    (advances : program ι thread shared control operation =
      some (.advance shared' control' events notify)) :
    Change shared control operation shared' control' notify := by
  cases control with
  | constructing =>
      simp only [program] at advances
      split at advances
      · cases advances
      · rename_i free
        cases advances
        exact .construct rfl (by simpa using free)
  | running =>
      cases operation with
      | beginRequest enabled =>
          simp only [program] at advances
          cases enabled with
          | false =>
              cases advances
              exact .disabled rfl rfl
          | true =>
              by_cases support : shared.state.support = .unknown
              · rw [if_pos rfl, if_pos support] at advances
                cases advances
                exact .read rfl rfl support
              · rw [if_pos rfl, if_neg support] at advances
                cases advances
                exact .known rfl rfl support
      | _ handle =>
          simp only [program, Operation.subject, Option.bind_some] at advances
          split at advances
          · contradiction
          · rename_i guard live
            cases advances
            exact .perform handle guard rfl rfl live

/-- Only a thread in `BeginRequest` waits, and only while a probe is going on. -/
theorem program_wait {thread : ι} {shared : Shared} {control : Control} {operation : Operation}
    (waits : program ι thread shared control operation = some .wait) :
    control = .constructing ∧ shared.state.mustWait = true := by
  cases control with
  | constructing =>
      simp only [program] at waits
      split at waits
      · rename_i mustWait
        exact ⟨rfl, mustWait⟩
      · cases waits
  | running =>
      cases operation with
      | beginRequest enabled =>
          simp only [program] at waits
          split at waits
          · split at waits <;> cases waits
          · cases waits
      | _ handle =>
          simp only [program] at waits
          split at waits <;> cases waits

end Httpfs.Http.RangeRequest
