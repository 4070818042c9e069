import Httpfs.S3.Handle.Program
import Httpfs.Transition.Guarded

/-!
# Who may use the session of a handle

Three roles are counted against the state of a handle: the claims on its
session, the one abort that holds the state at `ABORTING` and the one call
that destroys the session it has detached.  What the trace says about the
aborts of a handle is read off from the control point of each call.
-/

namespace Httpfs.S3.Handle

open Httpfs.S3.Upload (Env Pc Choice)
open Httpfs.Transition
open Httpfs.Transition.Monitor

universe u

variable {ι : Type u}

/-- A global state of a handle and the calls on it. -/
abbrev HandleWorld (ι : Type u) := World ι S3FileHandle Control Event

/-- The calls on one handle. -/
def program (env : Env) (openForWriting : Bool) (operations : ι → Operation) :
    Program ι S3FileHandle Control Choice Event :=
  fun thread handle control choice =>
    handleStep env openForWriting (operations thread) handle control choice

/-- A fresh handle whose calls have not begun. -/
def initialWorld (openForWriting : Bool) : HandleWorld ι :=
  World.initial (.opened openForWriting) .idle

/-! ## Roles -/

namespace Control

/-- An `UploadClaim` is alive.  The `WriteClaim` of a write lives within. -/
def holdsClaim : Control → Bool
  | .claimed _ | .releaseUpload _ => true
  | _ => false

/-- The call has set the state to `ABORTING`. -/
def inAbort : Control → Bool
  | .aborting _ | .endAbort _ => true
  | _ => false

/-- The call owns a detached session. -/
def resetting : Control → Bool
  | .resetSession _ => true
  | _ => false

/-- The session must exist: a claim on it is alive, or one of its calls
runs. -/
def usesSession (control : Control) : Bool :=
  control.holdsClaim || control.inAbort

end Control

@[simp]
theorem holdsClaim_underClaim (pc : Pc) : (underClaim pc).holdsClaim = true := by
  cases pc <;> rfl

@[simp]
theorem inAbort_underClaim (pc : Pc) : (underClaim pc).inAbort = false := by
  cases pc <;> rfl

@[simp]
theorem resetting_underClaim (pc : Pc) : (underClaim pc).resetting = false := by
  cases pc <;> rfl

@[simp]
theorem holdsClaim_underAbort (pc : Pc) : (underAbort pc).holdsClaim = false := by
  cases pc <;> rfl

@[simp]
theorem inAbort_underAbort (pc : Pc) : (underAbort pc).inAbort = true := by
  cases pc <;> rfl

@[simp]
theorem resetting_underAbort (pc : Pc) : (underAbort pc).resetting = false := by
  cases pc <;> rfl

namespace S3FileHandle

/-- How many calls hold the state at `ABORTING`. -/
def aborters (handle : S3FileHandle) : Nat :=
  (decide (handle.uploadState = .aborting)).toNat

/-- How many calls own a detached session. -/
def resetters (handle : S3FileHandle) : Nat :=
  (decide (handle.uploadState = .aborted) && handle.session.isSome).toNat

end S3FileHandle

/-! ## Shared state -/

/-- How the fields of a handle fit together. -/
structure Coherent (openForWriting : Bool) (handle : S3FileHandle) : Prop where
  attached : handle.uploadSession = true ↔ openForWriting = true ∧ handle.uploadState ≠ .aborted
  alive : handle.uploadSession = true → handle.session.isSome = true
  opened : handle.session.isSome = true → openForWriting = true
  unused : handle.uploadSession = false →
    handle.activeUploadCalls = 0 ∧ handle.uploadState ≠ .aborting

/-- What the counts of the roles say about a call in them. -/
structure Counted (handle : S3FileHandle) (control : Control) : Prop where
  claiming : control.holdsClaim = true → 0 < handle.activeUploadCalls
  aborting : control.inAbort = true → handle.uploadState = .aborting
  resetting : control.resetting = true → handle.uploadState = .aborted

section Steps

variable {env : Env} {openForWriting : Bool} {operation : Operation}
  {handle next : S3FileHandle} {control here : Control} {events : List Event} {notify : Bool}

theorem coherent_opened (openForWriting : Bool) :
    Coherent openForWriting (.opened openForWriting) where
  attached := by simp [S3FileHandle.opened]
  alive := by simp +contextual [S3FileHandle.opened]
  opened := by simp [S3FileHandle.opened]
  unused := by simp [S3FileHandle.opened]

theorem Coherent.step (coherent : Coherent openForWriting handle)
    (counted : Counted handle control)
    (transition : Transition env operation handle control next here events notify) :
    Coherent openForWriting next := by
  induction transition with
  | claim active present =>
      exact ⟨coherent.attached, coherent.alive, coherent.opened,
        fun absent => absurd (present.symm.trans absent) (by simp)⟩
  | call alive steps | abortCall alive steps =>
      exact ⟨coherent.attached, fun _ => rfl, fun _ => coherent.opened (by simp [alive]),
        coherent.unused⟩
  | release =>
      refine ⟨coherent.attached, coherent.alive, coherent.opened, fun absent => ?_⟩
      exact ⟨by simp [(coherent.unused absent).1], (coherent.unused absent).2⟩
  | startAbort active present =>
      refine ⟨?_, coherent.alive, coherent.opened,
        fun absent => absurd (present.symm.trans absent) (by simp)⟩
      simpa [active] using coherent.attached
  | keepSession =>
      have aborting := counted.aborting rfl
      refine ⟨by simpa [aborting] using coherent.attached, coherent.alive, coherent.opened,
        fun absent => ?_⟩
      exact absurd aborting (coherent.unused absent).2
  | detach terminal unused =>
      exact ⟨by simp, by simp, coherent.opened, fun _ => ⟨unused, by simp⟩⟩
  | reset =>
      have aborted := counted.resetting rfl
      refine ⟨coherent.attached, fun present => ?_, by simp, coherent.unused⟩
      exact absurd aborted (coherent.attached.mp present).2
  | _ => exact coherent

theorem claims_conserved (counted : Counted handle control)
    (transition : Transition env operation handle control next here events notify) :
    next.activeUploadCalls + control.holdsClaim.toNat =
      handle.activeUploadCalls + here.holdsClaim.toNat := by
  induction transition with
  | release =>
      have positive := counted.claiming rfl
      simp only [Control.holdsClaim, Bool.toNat_true, Bool.toNat_false]
      omega
  | call alive steps =>
      rw [holdsClaim_underClaim]
      rfl
  | abortCall alive steps =>
      rw [holdsClaim_underAbort]
      rfl
  | _ => rfl

theorem aborters_conserved (counted : Counted handle control)
    (transition : Transition env operation handle control next here events notify) :
    next.aborters + control.inAbort.toNat = handle.aborters + here.inAbort.toNat := by
  induction transition with
  | call alive steps =>
      rw [inAbort_underClaim]
      rfl
  | abortCall alive steps =>
      rw [inAbort_underAbort]
      rfl
  | startAbort active present => simp [Control.inAbort, S3FileHandle.aborters, active]
  | keepSession | detach =>
      simp [Control.inAbort, S3FileHandle.aborters, counted.aborting rfl]
  | _ => rfl

theorem resetters_conserved (coherent : Coherent openForWriting handle)
    (counted : Counted handle control) (exists? : control.resetting = true →
      handle.session.isSome = true)
    (transition : Transition env operation handle control next here events notify) :
    next.resetters + control.resetting.toNat = handle.resetters + here.resetting.toNat := by
  induction transition with
  | call alive steps =>
      rw [resetting_underClaim]
      simp [Control.resetting, S3FileHandle.resetters, alive]
  | abortCall alive steps =>
      rw [resetting_underAbort]
      simp [Control.resetting, S3FileHandle.resetters, alive]
  | startAbort active present => simp [Control.resetting, S3FileHandle.resetters, active]
  | keepSession => simp [Control.resetting, S3FileHandle.resetters, counted.aborting rfl]
  | detach terminal unused =>
      have aborting := counted.aborting rfl
      have present : handle.uploadSession = true := by
        by_contra absent
        exact (coherent.unused (by simpa using absent)).2 aborting
      simp [Control.resetting, S3FileHandle.resetters, aborting, coherent.alive present]
  | reset =>
      simp [Control.resetting, S3FileHandle.resetters, counted.resetting rfl, exists? rfl]
  | _ => rfl

end Steps

/-- The invariant relating a handle to its calls. -/
structure Owned (openForWriting : Bool) (world : HandleWorld ι) : Prop where
  coherent : Coherent openForWriting world.shared
  claims : Population Control.holdsClaim world.control world.shared.activeUploadCalls
  aborter : Population Control.inAbort world.control world.shared.aborters
  resetter : Population Control.resetting world.control world.shared.resetters

namespace Owned

variable {env : Env} {openForWriting : Bool} {operations : ι → Operation}
  {world : HandleWorld ι}

theorem initial : Owned openForWriting (initialWorld openForWriting : HandleWorld ι) where
  coherent := coherent_opened openForWriting
  claims := Population.initial _ rfl
  aborter := Population.initial _ rfl
  resetter := Population.initial _ rfl

theorem detached (owned : Owned openForWriting world) {thread : ι}
    (resets : (world.control thread).resetting = true) :
    world.shared.uploadState = .aborted ∧ world.shared.session.isSome = true := by
  have positive := owned.resetter.pos_of_role resets
  by_contra other
  have few : world.shared.resetters = 0 := by
    simpa [S3FileHandle.resetters] using other
  omega

theorem counted (owned : Owned openForWriting world) (thread : ι) :
    Counted world.shared (world.control thread) where
  claiming := owned.claims.pos_of_role
  aborting := fun aborts => by
    have positive := owned.aborter.pos_of_role aborts
    by_contra other
    simp [S3FileHandle.aborters, other] at positive
  resetting := fun resets => (owned.detached resets).1

/-- A call that uses the session finds it. -/
theorem session_isSome (owned : Owned openForWriting world) {thread : ι}
    (uses : (world.control thread).usesSession = true) : world.shared.session.isSome = true := by
  apply owned.coherent.alive
  by_contra absent
  have unused := owned.coherent.unused (by simpa using absent)
  have counted := owned.counted thread
  rcases Bool.or_eq_true_iff.mp uses with claims | aborts
  · have positive := counted.claiming claims
    omega
  · exact unused.2 (counted.aborting aborts)

/-- Only one call at a time holds the state at `ABORTING`. -/
theorem inAbort_unique (owned : Owned openForWriting world) {first second : ι}
    (firstAborts : (world.control first).inAbort = true)
    (secondAborts : (world.control second).inAbort = true) : first = second := by
  by_contra different
  have several := owned.aborter.two_le different firstAborts secondAborts
  have single := Bool.toNat_le (decide (world.shared.uploadState = .aborting))
  rw [S3FileHandle.aborters] at several
  omega

variable [DecidableEq ι]

theorem advance (owned : Owned openForWriting world) {thread : ι} {next : S3FileHandle}
    {here : Control} {events : List Event} {notify : Bool}
    (transition : Transition env (operations thread) world.shared (world.control thread)
      next here events notify) :
    Owned openForWriting (world.advance thread next here events notify) := by
  have counted := owned.counted thread
  constructor
  · exact owned.coherent.step counted transition
  · exact owned.claims.update (claims_conserved counted transition)
  · exact owned.aborter.update (aborters_conserved counted transition)
  · exact owned.resetter.update (resetters_conserved owned.coherent counted
      (fun resets => (owned.detached resets).2) transition)

end Owned

/-! ## Invariants of runs -/

section Runs

variable [DecidableEq ι] {env : Env} {openForWriting : Bool} {operations : ι → Operation}

/-- The states a handle can reach. -/
def Reachable (env : Env) (openForWriting : Bool) (operations : ι → Operation)
    (world : HandleWorld ι) : Prop :=
  Run (program env openForWriting operations) (initialWorld openForWriting) world

/-- A property that every transition and every wait keeps holds at the end of
a run that starts with it. -/
theorem HandleRun.invariant {motive : HandleWorld ι → Prop}
    (advances : ∀ world thread next here events notify, Owned openForWriting world →
      motive world →
      Transition env (operations thread) world.shared (world.control thread)
        next here events notify →
      motive (world.advance thread next here events notify))
    (sleeps : ∀ world thread, motive world → world.control thread ≠ .idle →
      motive (world.sleep thread))
    {world final : HandleWorld ι} (run : Run (program env openForWriting operations) world final)
    (owned : Owned openForWriting world) (start : motive world) :
    Owned openForWriting final ∧ motive final := by
  refine RunWhere.invariant (motive := fun world => Owned openForWriting world ∧ motive world)
    ?_ run ⟨owned, start⟩
  rintro world next thread choice ⟨owned, holds⟩ _ stepped
  rcases step_cases stepped with
    ⟨awake, ⟨waits, rfl⟩ | ⟨shared, here, events, notify, steps, rfl⟩⟩
  · exact ⟨{ owned with }, sleeps world thread holds (handleStep_wait waits)⟩
  · have transition := transition_of_handleStep steps
    exact ⟨owned.advance transition, advances _ _ _ _ _ _ owned holds transition⟩

theorem Reachable.invariant {motive : HandleWorld ι → Prop}
    (start : motive (initialWorld openForWriting))
    (advances : ∀ world thread next here events notify, Owned openForWriting world →
      motive world →
      Transition env (operations thread) world.shared (world.control thread)
        next here events notify →
      motive (world.advance thread next here events notify))
    (sleeps : ∀ world thread, motive world → world.control thread ≠ .idle →
      motive (world.sleep thread))
    {world : HandleWorld ι} (reachable : Reachable env openForWriting operations world) :
    Owned openForWriting world ∧ motive world :=
  HandleRun.invariant advances sleeps reachable .initial start

theorem Reachable.owned {world : HandleWorld ι}
    (reachable : Reachable env openForWriting operations world) : Owned openForWriting world :=
  (reachable.invariant (motive := fun _ => True) trivial (fun _ _ _ _ _ _ _ _ _ => trivial)
    (fun _ _ _ _ => trivial)).1

end Runs

/-! ## The aborts of a handle -/

def Event.isAbort : Event → Bool
  | .aborting | .abortLeft _ => true
  | _ => false

/-- A call as its control point shows it: how far it is with its abort. -/
def AbortHistory (history : List Event) : Control → Prop
  | .aborting _ | .endAbort _ => history = [.aborting]
  | .resetSession _ => history = [.aborting, .abortLeft true]
  | .done _ => history = [] ∨ ∃ terminal, history = [.aborting, .abortLeft terminal]
  | .idle | .claimUpload | .claimed _ | .releaseUpload _ | .beginAbort => history = []

@[simp]
theorem filter_isAbort_session (events : List Upload.Event) :
    (events.map Event.session).filter Event.isAbort = [] := by
  simp [List.filter_eq_nil_iff, Event.isAbort]

theorem AbortHistory.step {env : Env} {operation : Operation} {handle next : S3FileHandle}
    {control here : Control} {events : List Event} {notify : Bool} {history : List Event}
    (known : AbortHistory history control)
    (transition : Transition env operation handle control next here events notify) :
    AbortHistory (history ++ events.filter Event.isAbort) here := by
  induction transition with
  | call alive steps =>
      rw [filter_isAbort_session, List.append_nil]
      unfold underClaim
      split <;> exact known
  | abortCall alive steps =>
      rw [filter_isAbort_session, List.append_nil]
      unfold underAbort
      split <;> exact known
  | startAbort active present =>
      cases known
      rfl
  | keepSession =>
      cases known
      exact Or.inr ⟨false, rfl⟩
  | detach terminal unused =>
      cases known
      rfl
  | reset =>
      cases known
      exact Or.inr ⟨true, rfl⟩
  | begin claims | beginAbortUpload aborts | claim active present =>
      cases known
      rfl
  | reject writes claims | refuse inactive | noSession active absent | release
  | nothingToAbort nothing =>
      cases known
      exact Or.inl rfl

variable [DecidableEq ι]

/-- The events of one call's abort. -/
def abortHistory (trace : List (ι × Event)) (thread : ι) : List Event :=
  (trace.filterMap fun entry => if entry.1 = thread then some entry.2 else none).filter
    Event.isAbort

theorem mem_abortHistory {trace : List (ι × Event)} {thread : ι} {event : Event} :
    event ∈ abortHistory trace thread ↔ (thread, event) ∈ trace ∧ event.isAbort = true := by
  simp only [abortHistory, List.mem_filter, List.mem_filterMap, Prod.exists]
  constructor
  · rintro ⟨⟨other, emitted, member, same⟩, aborts⟩
    split at same
    · rename_i here
      cases same
      cases here
      exact ⟨member, aborts⟩
    · contradiction
  · rintro ⟨member, aborts⟩
    exact ⟨⟨thread, event, member, if_pos rfl⟩, aborts⟩

theorem abortHistory_append_self (trace : List (ι × Event)) (thread : ι) (events : List Event) :
    abortHistory (trace ++ events.map fun event => (thread, event)) thread =
      abortHistory trace thread ++ events.filter Event.isAbort := by
  simp [abortHistory, List.filterMap_append, List.filterMap_map]

theorem abortHistory_append_other (trace : List (ι × Event)) {thread other : ι}
    (different : other ≠ thread) (events : List Event) :
    abortHistory (trace ++ events.map fun event => (thread, event)) other =
      abortHistory trace other := by
  simp [abortHistory, List.filterMap_append, List.filterMap_map, Ne.symm different]

/-- An `AbortUpload` has set the state to `ABORTING` and not left it since. -/
def AbortOpen (trace : List (ι × Event)) : Prop :=
  ∃ thread, (thread, .aborting) ∈ trace ∧ ∀ terminal, (thread, .abortLeft terminal) ∉ trace

/-- When claims are granted and refused. -/
def ClaimAllowed (before : List (ι × Event)) : ι × Event → Prop
  | (_, .granted) =>
      ∀ other, (other, .aborting) ∈ before → (other, .abortLeft false) ∈ before
  | (_, .refused) => AbortOpen before ∨ ∃ other, (other, .abortLeft true) ∈ before
  | _ => True

section Transitions

variable {env : Env} {operation : Operation} {handle next : S3FileHandle}
  {control here : Control} {events : List Event} {notify : Bool}

theorem Transition.granted
    (transition : Transition env operation handle control next here events notify)
    (member : .granted ∈ events) : events = [.granted] ∧ handle.uploadState = .active := by
  induction transition with
  | claim active present => exact ⟨rfl, active⟩
  | call | abortCall => simp at member
  | _ => simp at member

theorem Transition.refused
    (transition : Transition env operation handle control next here events notify)
    (member : .refused ∈ events) : events = [.refused] ∧ handle.uploadState ≠ .active := by
  induction transition with
  | refuse inactive => exact ⟨rfl, inactive⟩
  | call | abortCall => simp at member
  | _ => simp at member

/-- The upload becomes `ABORTED` exactly when an abort ends terminally. -/
theorem Transition.terminal (counted : Counted handle control)
    (transition : Transition env operation handle control next here events notify) :
    next.uploadState = .aborted ↔ handle.uploadState = .aborted ∨ .abortLeft true ∈ events := by
  induction transition with
  | startAbort active present => simp [active]
  | keepSession => simp [counted.aborting rfl]
  | _ => simp

end Transitions

/-- What the trace of a handle says about its aborts and its claims. -/
structure AbortTrace (world : HandleWorld ι) : Prop where
  histories : ∀ thread, AbortHistory (abortHistory world.trace thread) (world.control thread)
  terminal : (∃ thread, (thread, .abortLeft true) ∈ world.trace) ↔
    world.shared.uploadState = .aborted
  guarded : Guarded ClaimAllowed world.trace

section Traces

variable {env : Env} {openForWriting : Bool} {operations : ι → Operation}
  {world : HandleWorld ι}

theorem abortTrace_initial :
    AbortTrace (initialWorld openForWriting : HandleWorld ι) where
  histories := fun _ => rfl
  terminal := by simp [initialWorld, World.initial, S3FileHandle.opened]
  guarded := guarded_nil _

/-- While the upload is active, every abort that has begun has ended without
terminating it. -/
theorem AbortTrace.settled (trace : AbortTrace world) (owned : Owned openForWriting world)
    (active : world.shared.uploadState = .active) {thread : ι}
    (began : (thread, .aborting) ∈ world.trace) : (thread, .abortLeft false) ∈ world.trace := by
  have member : .aborting ∈ abortHistory world.trace thread := mem_abortHistory.mpr ⟨began, rfl⟩
  have known := trace.histories thread
  have unfinished : (thread, .abortLeft true) ∉ world.trace := by
    intro ended
    have aborted := trace.terminal.mp ⟨thread, ended⟩
    rw [active] at aborted
    contradiction
  have counted := owned.counted thread
  cases here : world.control thread with
  | aborting pc | endAbort result =>
      have aborting := counted.aborting (by rw [here]; rfl)
      rw [active] at aborting
      contradiction
  | resetSession result =>
      have aborted := counted.resetting (by rw [here]; rfl)
      rw [active] at aborted
      contradiction
  | done result =>
      rw [here] at known
      rcases known with empty | ⟨terminal, history⟩
      · rw [empty] at member
        contradiction
      · have ended : (thread, .abortLeft terminal) ∈ world.trace :=
          (mem_abortHistory.mp (by rw [history]; simp)).1
        cases terminal with
        | true => exact absurd ended unfinished
        | false => exact ended
  | idle | claimUpload | claimed pc | releaseUpload result | beginAbort =>
      rw [here] at known
      rw [show abortHistory world.trace thread = [] from known] at member
      contradiction

/-- A claim is refused during an abort or after a terminal one. -/
theorem AbortTrace.unsettled (trace : AbortTrace world) (owned : Owned openForWriting world)
    (inactive : world.shared.uploadState ≠ .active) :
    AbortOpen world.trace ∨ ∃ thread, (thread, .abortLeft true) ∈ world.trace := by
  cases state : world.shared.uploadState with
  | active => exact absurd state inactive
  | aborted => exact Or.inr (trace.terminal.mpr state)
  | aborting =>
      left
      have single := owned.aborter
      rw [S3FileHandle.aborters, state] at single
      rcases single.exists_role Nat.one_pos with ⟨thread, aborts⟩
      have history : abortHistory world.trace thread = [.aborting] := by
        have known := trace.histories thread
        cases here : world.control thread <;> rw [here] at known aborts
        case aborting pc => exact known
        case endAbort result => exact known
        all_goals contradiction
      refine ⟨thread, (mem_abortHistory.mp (by rw [history]; simp)).1, fun terminal ended => ?_⟩
      have member : .abortLeft terminal ∈ abortHistory world.trace thread :=
        mem_abortHistory.mpr ⟨ended, rfl⟩
      rw [history] at member
      simp at member

theorem AbortTrace.advance (trace : AbortTrace world) (owned : Owned openForWriting world)
    {thread : ι} {next : S3FileHandle} {here : Control} {events : List Event} {notify : Bool}
    (transition : Transition env (operations thread) world.shared (world.control thread)
      next here events notify) :
    AbortTrace (world.advance thread next here events notify) := by
  constructor
  · intro other
    by_cases same : other = thread
    · subst same
      simp only [World.advance, Function.update_self, abortHistory_append_self]
      exact (trace.histories other).step transition
    · simp only [World.advance, abortHistory_append_other _ same, Function.update_of_ne same]
      exact trace.histories other
  · have ends : (∃ other, (other, Event.abortLeft true) ∈
        world.trace ++ events.map fun event => (thread, event)) ↔
        (∃ other, (other, Event.abortLeft true) ∈ world.trace) ∨ .abortLeft true ∈ events := by
      simp [List.mem_append, exists_or]
    exact (ends.trans (or_congr_left trace.terminal)).trans
      (transition.terminal (owned.counted thread)).symm
  · apply trace.guarded.append
    rintro before ⟨other, event⟩ after split
    have member : event ∈ events := by
      have member : (other, event) ∈ events.map fun event => (thread, event) := by
        rw [split]
        simp
      rcases List.mem_map.mp member with ⟨found, member, same⟩
      cases same
      exact member
    have alone (single : events = [event]) : before = [] := by
      rw [single] at split
      cases before with
      | nil => rfl
      | cons first rest => simp at split
    cases event with
    | granted =>
        rcases transition.granted member with ⟨single, active⟩
        rw [alone single, List.append_nil]
        exact fun _ began => trace.settled owned active began
    | refused =>
        rcases transition.refused member with ⟨single, inactive⟩
        rw [alone single, List.append_nil]
        exact trace.unsettled owned inactive
    | _ => trivial

theorem Reachable.abortTrace (reachable : Reachable env openForWriting operations world) :
    AbortTrace world := by
  refine (reachable.invariant abortTrace_initial ?_ ?_).2
  · intro world thread next here events notify owned trace transition
    exact trace.advance owned transition
  · intro world thread trace _
    exact ⟨trace.histories, trace.terminal, trace.guarded⟩

end Traces

end Httpfs.S3.Handle
