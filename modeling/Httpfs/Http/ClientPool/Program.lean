import Httpfs.Text.Core
import Httpfs.Transition.Arena
import Httpfs.Transition.Monitor

/-!
# The clients of a request session

A session keeps the clients that requests have given back, so that later
requests reuse their connections.  A request captures the snapshot of the
session together with a generation, takes a client for it, and gives the client
back under the generation it captured.  Invalidating the clients starts a new
generation.

Snapshots are immutable and shared, so they are compared by address; `deref` is
what an address refers to.  Client objects are numbered in the order in which
they are made.  A step of a thread is one critical section, or what it does
with a client or lease of its own.  The generation only ever grows by one, and
its 64 bits are taken to last.
-/

namespace Httpfs.Http.ClientPool

open Text
open Httpfs.Transition
open Httpfs.Transition.Monitor

universe u

inductive HTTPRequestSnapshotType
  | http
  | s3
  deriving DecidableEq, Repr

inductive HTTPClientReuseMode
  | sessionLocal
  | shared
  | none
  deriving DecidableEq, Repr

/-- `HTTPRequestSnapshot`, with what its parameters say about clients; `υ` are
the addresses of HTTP utilities. -/
structure HTTPRequestSnapshot (υ : Type) where
  type : HTTPRequestSnapshotType
  httpUtil : υ
  clientReuseMode : HTTPClientReuseMode
  deriving DecidableEq, Repr

def HTTPRequestSnapshot.canReuseClientsWith {υ : Type} [DecidableEq υ]
    (snapshot other : HTTPRequestSnapshot υ) : Bool :=
  snapshot.type == other.type && snapshot.httpUtil == other.httpUtil &&
    snapshot.clientReuseMode == other.clientReuseMode

/-- A client object, with the parameters it was last initialized with. -/
structure HTTPClient (π : Type) where
  number : Nat
  baseUrl : Text
  params : π
  deriving DecidableEq, Repr

/-- `IdleClient`.  The generation it was returned under is not a field of the
source. -/
structure IdleClient (υ π : Type) where
  client : HTTPClient π
  httpUtil : υ
  returnedUnder : Nat
  deriving DecidableEq, Repr

/-- `HTTPClientLease`; `session` is null in a lease that has been moved from. -/
structure HTTPClientLease (υ π : Type) where
  session : Bool := true
  httpUtil : υ
  reuseMode : HTTPClientReuseMode
  generation : Nat
  client : Option (HTTPClient π)
  reusable : Bool := true
  deriving DecidableEq, Repr

/-- What is left behind by the move constructor and the move assignment. -/
def HTTPClientLease.leftBehind {υ π : Type} (lease : HTTPClientLease υ π) :
    HTTPClientLease υ π :=
  { lease with session := false, client := none, reusable := false }

/-- `CapturedHTTPRequestSnapshot`. -/
structure Captured (κ : Type) where
  snapshot : κ
  clientGeneration : Nat
  deriving DecidableEq, Repr

/-- `HTTPRequestSession`, without its mutex. -/
structure HTTPRequestSession (κ υ π : Type) where
  currentSnapshot : κ
  clientGeneration : Nat := 0
  idleClients : List (IdleClient υ π) := []
  deriving DecidableEq, Repr

/-- The session, the leases, what has been captured so far, and the number of
the next client object. -/
structure Shared (κ υ π : Type) where
  session : HTTPRequestSession κ υ π
  leases : Arena (HTTPClientLease υ π) := .empty
  captures : List (Captured κ) := []
  nextClient : Nat := 0

/-- `AcquireClient` between its critical section and the lease. -/
structure Acquisition (κ π : Type) where
  captured : Captured κ
  requestParams : π
  protoHostPort : Text
  client : Option (HTTPClient π)
  deriving DecidableEq, Repr

/-- A thread between two operations, or in `AcquireClient`. -/
inductive Control (κ π : Type)
  | running
  | acquiring (acquisition : Acquisition κ π)

/-- What a thread may do next.  `replace` is what a request may do with the
client of its lease. -/
inductive Operation (κ π : Type)
  | capture
  | tryPublish (expected replacement : κ)
  | acquireClient (captured : Captured κ) (requestParams : π) (protoHostPort : Text)
  | invalidateClients
  | invalidate (lease : Nat)
  | replace (lease : Nat) (client : Option (Text × π))
  | move (lease : Nat)
  | assign (lease other : Nat)
  | release (lease : Nat)

/-- An operation, and whether what it calls may throw does throw. -/
structure Choice (κ π : Type) where
  operation : Operation κ π
  throws : Bool := false

variable {κ υ π : Type}

/-! ## Idle clients -/

/-- The last idle client that fits, and the others. -/
def findIdle (fits : IdleClient υ π → Bool) :
    List (IdleClient υ π) → Option (IdleClient υ π × List (IdleClient υ π))
  | [] => none
  | entry :: rest =>
      match findIdle fits rest with
      | some (found, others) => some (found, entry :: others)
      | none => if fits entry then some (entry, rest) else none

theorem exists_of_findIdle {fits : IdleClient υ π → Bool} {idle others : List (IdleClient υ π)}
    {found : IdleClient υ π} (finds : findIdle fits idle = some (found, others)) :
    fits found = true ∧ ∃ before after, idle = before ++ found :: after ∧
      others = before ++ after := by
  induction idle generalizing others with
  | nil => cases finds
  | cons entry rest inductionHypothesis =>
      simp only [findIdle] at finds
      cases later : findIdle fits rest with
      | some result =>
          rcases result with ⟨laterFound, laterOthers⟩
          rw [later] at finds
          cases finds
          rcases inductionHypothesis later with ⟨fit, before, after, rfl, rfl⟩
          exact ⟨fit, entry :: before, after, rfl, rfl⟩
      | none =>
          rw [later] at finds
          by_cases fit : fits entry = true
          · simp only [if_pos fit, Option.some.injEq, Prod.mk.injEq] at finds
            rcases finds with ⟨rfl, rfl⟩
            exact ⟨fit, [], rest, rfl, rfl⟩
          · simp only [if_neg fit] at finds
            cases finds

namespace HTTPRequestSession

/-- The current snapshot and generation, as `Capture` and `TryPublish` report them. -/
def captured (session : HTTPRequestSession κ υ π) : Captured κ :=
  ⟨session.currentSnapshot, session.clientGeneration⟩

def invalidateClients (session : HTTPRequestSession κ υ π) : HTTPRequestSession κ υ π :=
  { session with clientGeneration := session.clientGeneration + 1, idleClients := [] }

/-- `TryPublish`: the session afterwards and whether the replacement was published. -/
def tryPublish [DecidableEq κ] [DecidableEq υ] (deref : κ → HTTPRequestSnapshot υ)
    (session : HTTPRequestSession κ υ π) (expected replacement : κ) :
    HTTPRequestSession κ υ π × Bool :=
  if session.currentSnapshot ≠ expected then (session, false)
  else
    let session :=
      if (deref session.currentSnapshot).canReuseClientsWith (deref replacement) then session
      else session.invalidateClients
    ({ session with currentSnapshot := replacement }, true)

/-- The critical section of `AcquireClient`. -/
def takeClient [DecidableEq υ] (deref : κ → HTTPRequestSnapshot υ)
    (session : HTTPRequestSession κ υ π) (captured : Captured κ) (protoHostPort : Text) :
    HTTPRequestSession κ υ π × Option (HTTPClient π) :=
  let snapshotParams := deref captured.snapshot
  if snapshotParams.clientReuseMode = .sessionLocal then
    if captured.clientGeneration = session.clientGeneration then
      match findIdle (fun entry => entry.httpUtil == snapshotParams.httpUtil &&
          entry.client.baseUrl == protoHostPort) session.idleClients with
      | some (found, others) => ({ session with idleClients := others }, some found.client)
      | none => (session, none)
    else (session, none)
  else (session, none)

/-- `ReturnClient`; a client that is not kept is closed. -/
def returnClient (session : HTTPRequestSession κ υ π) (lease : HTTPClientLease υ π)
    (throws : Bool) : HTTPRequestSession κ υ π :=
  match lease.client with
  | none => session
  | some client =>
      if lease.reusable && lease.reuseMode == .sessionLocal &&
          lease.generation == session.clientGeneration && !throws then
        { session with
          idleClients := session.idleClients ++
            [⟨client, lease.httpUtil, session.clientGeneration⟩] }
      else session

end HTTPRequestSession

namespace Shared

/-- `AcquireClient` behind its critical section: a client that is reused is
initialized, otherwise one is made. -/
def leaseClient (deref : κ → HTTPRequestSnapshot υ) (shared : Shared κ υ π)
    (acquisition : Acquisition κ π) : Shared κ υ π :=
  let snapshotParams := deref acquisition.captured.snapshot
  let lease (client : Option (HTTPClient π)) : HTTPClientLease υ π :=
    { httpUtil := snapshotParams.httpUtil
      reuseMode := snapshotParams.clientReuseMode
      generation := acquisition.captured.clientGeneration
      client }
  match acquisition.client with
  | some client =>
      { shared with
        leases := shared.leases.insert
          (lease (some { client with params := acquisition.requestParams })) }
  | none =>
      if snapshotParams.clientReuseMode = .none then
        { shared with leases := shared.leases.insert (lease none) }
      else
        { shared with
          leases := shared.leases.insert
            (lease (some ⟨shared.nextClient, acquisition.protoHostPort, acquisition.requestParams⟩))
          nextClient := shared.nextClient + 1 }

def replaceClient (shared : Shared κ υ π) (handle : Nat) :
    Option (Text × π) → Shared κ υ π
  | none =>
      { shared with leases := shared.leases.modify handle fun lease => { lease with client := none } }
  | some (baseUrl, params) =>
      { shared with
        leases := shared.leases.modify handle fun lease =>
          { lease with client := some ⟨shared.nextClient, baseUrl, params⟩ }
        nextClient := shared.nextClient + 1 }

/-- `Release`; a lease that has been moved from has nothing to give back. -/
def release (shared : Shared κ υ π) (handle : Nat) (lease : HTTPClientLease υ π)
    (throws : Bool) : Shared κ υ π :=
  if lease.session then
    { shared with
      session := shared.session.returnClient lease throws
      leases := shared.leases.modify handle fun lease =>
        { lease with session := false, client := none } }
  else shared

/-- The fields of one lease become those of another. -/
def takeOver (shared : Shared κ υ π) (handle other : Nat) (source : HTTPClientLease υ π) :
    Shared κ υ π :=
  { shared with
    leases := (shared.leases.modify handle fun _ => source).modify other
      HTTPClientLease.leftBehind }

end Shared

/-- The lease an operation is called on. -/
def Operation.subject : Operation κ π → Option Nat
  | .capture | .tryPublish _ _ | .acquireClient _ _ _ | .invalidateClients => none
  | .invalidate lease | .replace lease _ | .move lease | .assign lease _ | .release lease =>
      some lease

/-- The operation on a live lease. -/
def Shared.perform (shared : Shared κ υ π) (lease : HTTPClientLease υ π) (choice : Choice κ π) :
    Option (Shared κ υ π) :=
  match choice.operation with
  | .capture | .tryPublish _ _ | .acquireClient _ _ _ | .invalidateClients => none
  | .invalidate handle =>
      some { shared with
        leases := shared.leases.modify handle fun lease => { lease with reusable := false } }
  | .replace handle client => some (shared.replaceClient handle client)
  | .move handle =>
      some { shared with
        leases := (shared.leases.modify handle HTTPClientLease.leftBehind).insert lease }
  | .assign handle other =>
      if handle = other then some shared
      else
        (shared.leases.get other).map fun source =>
          (shared.release handle lease choice.throws).takeOver handle other source
  | .release handle =>
      let released := shared.release handle lease choice.throws
      some { released with leases := released.leases.erase handle }

section Program

variable [DecidableEq κ] [DecidableEq υ]

def program (ι : Type u) (deref : κ → HTTPRequestSnapshot υ) :
    Program ι (Shared κ υ π) (Control κ π) (Choice κ π) Empty
  | _, shared, .running, choice =>
      match choice.operation with
      | .capture =>
          some (.advance { shared with captures := shared.session.captured :: shared.captures }
            .running [] false)
      | .tryPublish expected replacement =>
          let session := (shared.session.tryPublish deref expected replacement).1
          some (.advance
            { shared with session, captures := session.captured :: shared.captures }
            .running [] false)
      | .invalidateClients =>
          some (.advance { shared with session := shared.session.invalidateClients }
            .running [] false)
      | .acquireClient captured requestParams protoHostPort =>
          if captured ∈ shared.captures then
            let (session, client) := shared.session.takeClient deref captured protoHostPort
            some (.advance { shared with session }
              (.acquiring ⟨captured, requestParams, protoHostPort, client⟩) [] false)
          else none
      | operation =>
          (operation.subject.bind shared.leases.get).bind fun lease =>
            (shared.perform lease choice).map fun shared => .advance shared .running [] false
  | _, shared, .acquiring acquisition, choice =>
      if choice.throws then some (.advance shared .running [] false)
      else some (.advance (shared.leaseClient deref acquisition) .running [] false)

variable {ι : Type u} {deref : κ → HTTPRequestSnapshot υ}

/-! ## What a step does -/

/-- The ways a step can change what is shared. -/
inductive Change (deref : κ → HTTPRequestSnapshot υ) (shared : Shared κ υ π)
    (control : Control κ π) (choice : Choice κ π) : Shared κ υ π → Control κ π → Prop
  | capture : control = .running → choice.operation = .capture →
      Change deref shared control choice
        { shared with captures := shared.session.captured :: shared.captures } .running
  | tryPublish (expected replacement : κ) : control = .running →
      choice.operation = .tryPublish expected replacement →
      Change deref shared control choice
        { shared with
          session := (shared.session.tryPublish deref expected replacement).1
          captures := (shared.session.tryPublish deref expected replacement).1.captured ::
            shared.captures } .running
  | invalidateClients : control = .running → choice.operation = .invalidateClients →
      Change deref shared control choice
        { shared with session := shared.session.invalidateClients } .running
  | acquireClient (captured : Captured κ) (requestParams : π) (protoHostPort : Text) :
      control = .running →
      choice.operation = .acquireClient captured requestParams protoHostPort →
      captured ∈ shared.captures →
      Change deref shared control choice
        { shared with session := (shared.session.takeClient deref captured protoHostPort).1 }
        (.acquiring ⟨captured, requestParams, protoHostPort,
          (shared.session.takeClient deref captured protoHostPort).2⟩)
  | failed (acquisition : Acquisition κ π) : control = .acquiring acquisition →
      choice.throws = true → Change deref shared control choice shared .running
  | leaseClient (acquisition : Acquisition κ π) : control = .acquiring acquisition →
      choice.throws = false →
      Change deref shared control choice (shared.leaseClient deref acquisition) .running
  | perform (handle : Nat) (lease : HTTPClientLease υ π) (shared' : Shared κ υ π) :
      control = .running → choice.operation.subject = some handle →
      shared.leases.get handle = some lease → shared.perform lease choice = some shared' →
      Change deref shared control choice shared' .running

theorem program_advance {thread : ι} {shared shared' : Shared κ υ π}
    {control control' : Control κ π} {choice : Choice κ π} {events : List Empty} {notify : Bool}
    (advances : program ι deref thread shared control choice =
      some (.advance shared' control' events notify)) :
    Change deref shared control choice shared' control' := by
  cases control with
  | acquiring acquisition =>
      simp only [program] at advances
      split at advances
      · rename_i throws
        cases advances
        exact .failed acquisition rfl throws
      · rename_i returns
        cases advances
        exact .leaseClient acquisition rfl (by simpa using returns)
  | running =>
      rcases choice with ⟨operation, throws⟩
      cases operation with
      | capture =>
          cases advances
          exact .capture rfl rfl
      | tryPublish expected replacement =>
          cases advances
          exact .tryPublish expected replacement rfl rfl
      | invalidateClients =>
          cases advances
          exact .invalidateClients rfl rfl
      | acquireClient captured requestParams protoHostPort =>
          simp only [program] at advances
          split at advances
          · rename_i issued
            cases advances
            exact .acquireClient captured requestParams protoHostPort rfl rfl issued
          · cases advances
      | _ =>
          simp only [program, Operation.subject, Option.bind_some, Option.bind_eq_some_iff,
            Option.map_eq_some_iff] at advances
          rcases advances with ⟨lease, live, result, performs, eq⟩
          cases eq
          exact .perform _ lease _ rfl rfl live performs

/-- The change an operation without a lease makes is its own. -/
theorem Change.of_subject_none {shared after : Shared κ υ π} {control here : Control κ π}
    {choice : Choice κ π} (change : Change deref shared control choice after here)
    (running : control = .running) (noLease : choice.operation.subject = none) :
    match choice.operation with
    | .tryPublish expected replacement =>
        after = { shared with
          session := (shared.session.tryPublish deref expected replacement).1
          captures := (shared.session.tryPublish deref expected replacement).1.captured ::
            shared.captures } ∧ here = .running
    | .acquireClient captured requestParams protoHostPort =>
        after = { shared with
          session := (shared.session.takeClient deref captured protoHostPort).1 } ∧
          here = .acquiring ⟨captured, requestParams, protoHostPort,
            (shared.session.takeClient deref captured protoHostPort).2⟩
    | .invalidateClients =>
        after = { shared with session := shared.session.invalidateClients } ∧ here = .running
    | _ => here = .running := by
  induction change with
  | capture _ isOperation =>
      rw [isOperation]
  | tryPublish _ _ _ isOperation =>
      rw [isOperation]
      exact ⟨rfl, rfl⟩
  | invalidateClients _ isOperation =>
      rw [isOperation]
      exact ⟨rfl, rfl⟩
  | acquireClient _ _ _ _ isOperation =>
      rw [isOperation]
      exact ⟨rfl, rfl⟩
  | failed _ acquiring =>
      rw [running] at acquiring
      cases acquiring
  | leaseClient _ acquiring =>
      rw [running] at acquiring
      cases acquiring
  | perform _ _ _ _ subject =>
      rw [noLease] at subject
      cases subject

theorem Change.of_acquiring {shared after : Shared κ υ π} {here : Control κ π}
    {choice : Choice κ π} {acquisition : Acquisition κ π} {control : Control κ π}
    (change : Change deref shared control choice after here)
    (acquiring : control = .acquiring acquisition) (returns : choice.throws = false) :
    after = shared.leaseClient deref acquisition := by
  subst acquiring
  induction change with
  | capture running => cases running
  | tryPublish _ _ running => cases running
  | invalidateClients running => cases running
  | acquireClient _ _ _ running => cases running
  | perform _ _ _ running => cases running
  | failed _ _ throws =>
      rw [returns] at throws
      cases throws
  | leaseClient _ isAcquisition =>
      cases isAcquisition
      rfl

/-- Only `AcquireClient` sets out to make a lease. -/
theorem Change.acquires {shared after : Shared κ υ π} {control here : Control κ π}
    {choice : Choice κ π} {acquisition : Acquisition κ π}
    (change : Change deref shared control choice after here)
    (acquiring : here = .acquiring acquisition) :
    control = .running ∧ choice.operation =
      .acquireClient acquisition.captured acquisition.requestParams acquisition.protoHostPort := by
  induction change with
  | acquireClient _ _ _ running isOperation =>
      cases acquiring
      exact ⟨running, isOperation⟩
  | _ => cases acquiring

/-- Nothing waits in a session. -/
theorem program_ne_wait {thread : ι} {shared : Shared κ υ π} {control : Control κ π}
    {choice : Choice κ π} : program ι deref thread shared control choice ≠ some .wait := by
  intro waits
  cases control with
  | acquiring acquisition =>
      simp only [program] at waits
      split at waits <;> cases waits
  | running =>
      rcases choice with ⟨operation, throws⟩
      cases operation with
      | capture => cases waits
      | tryPublish => cases waits
      | invalidateClients => cases waits
      | acquireClient =>
          simp only [program] at waits
          split at waits <;> cases waits
      | _ =>
          simp only [program, Operation.subject, Option.bind_some, Option.bind_eq_some_iff,
            Option.map_eq_some_iff] at waits
          rcases waits with ⟨_, _, _, _, eq⟩
          cases eq

end Program

end Httpfs.Http.ClientPool
