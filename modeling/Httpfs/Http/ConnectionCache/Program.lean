import Httpfs.Http.ConnectionCache.Client
import Httpfs.Transition.Arena
import Httpfs.Transition.Monitor
import Mathlib.Data.List.FinRange

/-!
# The cache of connections

All curl clients of a database share one cache of 16 pools with 32 slots each.  A
request looks for a client that is connected to its server, one pool after the
other, beginning with the pool its thread touched last; it makes a client when it
finds none, and a client that is no longer needed is stored in the first empty slot,
or in place of another client when all pools were full.

A step of a thread is one critical section over one pool, or what it does with a
client of its own.  Callers keep clients in variables, which any thread may use.
How often a request is tried, and whether what is called throws, is left to the
environment.
-/

namespace Httpfs.Http.ConnectionCache

open Text
open Httpfs.Transition
open Httpfs.Transition.Monitor

universe u

def POOL_COUNT : Nat := 16

def POOL_SIZE : Nat := 32

/-! ## Pools -/

abbrev Pool := Fin POOL_SIZE → Option HTTPFSCurlClient

/-- The pools of `HTTPClientConnectionCache`. -/
abbrev Cache := Fin POOL_COUNT → Pool

theorem and_mask_lt (position : Nat) : position &&& (POOL_COUNT - 1) < POOL_COUNT :=
  Nat.lt_succ_of_le Nat.and_le_right

/-- `position & (POOL_COUNT - 1)`. -/
def poolIndex (position : Nat) : Fin POOL_COUNT :=
  ⟨position &&& (POOL_COUNT - 1), and_mask_lt position⟩

def Cache.empty : Cache :=
  fun _ _ => none

def Cache.set (cache : Cache) (index : Fin POOL_COUNT) (slot : Fin POOL_SIZE)
    (entry : Option HTTPFSCurlClient) : Cache :=
  Function.update cache index (Function.update (cache index) slot entry)

/-- The first slot of a pool whose entry passes a test. -/
def Pool.firstSlot (pool : Pool) (test : Option HTTPFSCurlClient → Bool) :
    Option (Fin POOL_SIZE) :=
  (List.finRange POOL_SIZE).find? fun slot => test (pool slot)

/-- The critical section of `Find`. -/
def Cache.take (cache : Cache) (index : Fin POOL_COUNT) (baseUrl : Text) :
    Option (HTTPFSCurlClient × Cache) :=
  ((cache index).firstSlot fun entry => entry.any fun client => client.baseUrl == baseUrl).bind
    fun slot => (cache index slot).map fun client => (client, cache.set index slot none)

/-- The critical section of the first pass of `Store`. -/
def Cache.place (cache : Cache) (index : Fin POOL_COUNT) (client : HTTPFSCurlClient) :
    Option Cache :=
  ((cache index).firstSlot Option.isNone).map fun slot => cache.set index slot (some client)

/-- The critical section of `Clear`. -/
def Cache.clear (cache : Cache) (index : Fin POOL_COUNT) : Cache :=
  Function.update cache index fun _ => none

/-! ## Threads -/

/-- A client in a caller's variable, with the parameters and the server the caller
asked for. -/
structure Lease where
  client : HTTPFSCurlClient
  params : RequestParams
  protoHostPort : Text

/-- `SendRequest` below the connection cache: the request, and whether the client is
stored behind it. -/
structure Sending where
  request : BaseRequest
  store : Bool

/-- Who looks for a client: `InitializeClient` for a caller, `CachingSendRequest`, or
`InitializeClient` for a request that is being sent, on the first attempt or on a
retry with the client that failed. -/
inductive Finder
  | initializeClient (params : RequestParams) (protoHostPort : Text)
  | cachingSendRequest (request : BaseRequest)
  | sendRequest (sending : Sending) (previous : Option Lease)

namespace Finder

def params : Finder → RequestParams
  | .initializeClient params _ => params
  | .cachingSendRequest request => request.params
  | .sendRequest sending _ => sending.request.params

def protoHostPort : Finder → Text
  | .initializeClient _ protoHostPort => protoHostPort
  | .cachingSendRequest request => request.protoHostPort
  | .sendRequest sending _ => sending.request.protoHostPort

end Finder

/-- Where a thread is; a client that is being sent with was provided by the caller or
found for the request. -/
inductive Stage
  | running
  | finding (finder : Finder) (start : Fin POOL_COUNT) (visited : Nat)
  | sending (sending : Sending) (lease : Lease) (provided : Bool)
  | answered (sending : Sending) (lease : Lease)
  | storing (client : HTTPFSCurlClient) (start : Fin POOL_COUNT) (visited : Nat)
  | clearing (visited : Nat)

/-- A thread with its `cache_pool_idx`, once it has one. -/
structure Control where
  stage : Stage := .running
  cachePoolIdx : Option (Fin POOL_COUNT) := none

/-- The cache, the setting, the variables of all callers, and the number of the next
client object. -/
structure Shared where
  cache : Cache := .empty
  connectionCachingEnabled : Bool := true
  leases : Arena Lease := .empty
  nextClient : Nat := 0

/-- What a caller may do. `reconfigure` is what a session does with an idle client,
`destroy` what happens to a client that nobody returns. -/
inductive Operation
  | initializeClient (params : RequestParams) (protoHostPort : Text)
  | sendRequest (request : BaseRequest) (client : Option Nat)
  | closeClient (client : Nat)
  | reconfigure (client : Nat) (params : RequestParams)
  | destroy (client : Nat)
  | clearCachedConnections
  | setCaching (enabled : Bool)

/-- What the environment decides: the next operation of the thread, whether what is
called throws, whether the request is tried again, and the random slot. -/
structure Choice where
  operation : Operation
  throws : Bool := false
  retry : Bool := false
  slot : Fin POOL_SIZE

inductive Event
  | cacheHit (protoHostPort : Text)
  | cacheMiss (protoHostPort : Text)
  | performed (provided : Bool) (lease : Lease) (request : BaseRequest)
  | evicted (client : Nat)

/-- `EnableCaching`. -/
def Shared.enableCaching (shared : Shared) (request : BaseRequest) : Bool :=
  shared.connectionCachingEnabled && request.params.httpProxy.isEmpty

namespace Shared

/-- What a finder does with its client. -/
def deliver (shared : Shared) (finder : Finder) (client : HTTPFSCurlClient) : Shared × Stage :=
  let lease : Lease := ⟨client, finder.params, finder.protoHostPort⟩
  match finder with
  | .initializeClient _ _ => ({ shared with leases := shared.leases.insert lease }, .running)
  | .cachingSendRequest request => (shared, .sending ⟨request, true⟩ lease false)
  | .sendRequest sending _ => (shared, .sending sending lease false)

/-- A new client for a finder. -/
def connect (shared : Shared) (selectCURLCertPath : Text) (finder : Finder) : Shared × Stage :=
  let client := HTTPFSCurlClient.new selectCURLCertPath shared.nextClient finder.params
    finder.protoHostPort
  { shared with nextClient := shared.nextClient + 1 }.deliver finder client

/-- `InitializeClient`. -/
def initializeClient (shared : Shared) (selectCURLCertPath : Text) (finder : Finder)
    (start : Fin POOL_COUNT) : Shared × Stage :=
  if shared.connectionCachingEnabled then (shared, .finding finder start 0)
  else shared.connect selectCURLCertPath finder

/-- `Find` returned no client: `CachingSendRequest` goes on without one, and
`InitializeClient` makes one. -/
def missed (shared : Shared) (selectCURLCertPath : Text) (finder : Finder)
    (start : Fin POOL_COUNT) : Shared × Stage :=
  match finder with
  | .cachingSendRequest request =>
      shared.initializeClient selectCURLCertPath (.sendRequest ⟨request, true⟩ none) start
  | finder => shared.connect selectCURLCertPath finder

/-- An exception on the way to a client leaves the client of the failed attempt in
the caller's variable. -/
def failed (shared : Shared) : Finder → Shared
  | .sendRequest _ (some previous) =>
      { shared with leases := shared.leases.insert previous }
  | _ => shared

/-- `Store` up to its first critical section. -/
def store (client : HTTPFSCurlClient) (start : Fin POOL_COUNT) : Stage :=
  if client.baseUrl.isEmpty then .running else .storing client start 0

end Shared

/-! ## Steps -/

abbrev StepResult := Option (Outcome Shared Control Event)

section Program

variable {ι : Type u} (selectCURLCertPath : Text) (hash : ι → Fin POOL_COUNT)

/-- `GetCachePoolIndex`. -/
def getCachePoolIndex (thread : ι) (control : Control) : Fin POOL_COUNT :=
  control.cachePoolIdx.getD (hash thread)

/-- Go on at another place. -/
def proceed (control : Control) (result : Shared × Stage) (events : List Event) : StepResult :=
  some (.advance result.1 { control with stage := result.2 } events false)

/-- A pool was touched with success. -/
def touched (index : Fin POOL_COUNT) (result : Shared × Stage) (events : List Event) :
    StepResult :=
  some (.advance result.1 ⟨result.2, some index⟩ events false)

/-- The first step of an operation. -/
def begin (shared : Shared) (control : Control) (start : Fin POOL_COUNT) :
    Operation → StepResult
  | .initializeClient params protoHostPort =>
      proceed control
        (shared.initializeClient selectCURLCertPath (.initializeClient params protoHostPort) start)
        []
  | .sendRequest request none =>
      if shared.enableCaching request then
        proceed control (shared, .finding (.cachingSendRequest request) start 0) []
      else
        proceed control
          (shared.initializeClient selectCURLCertPath (.sendRequest ⟨request, false⟩ none) start) []
  | .sendRequest request (some client) =>
      (shared.leases.get client).bind fun lease =>
        proceed control
          ({ shared with leases := shared.leases.erase client },
            .sending ⟨request, false⟩ lease true) []
  | .closeClient client =>
      (shared.leases.get client).bind fun lease =>
        proceed control
          ({ shared with leases := shared.leases.erase client },
            if shared.connectionCachingEnabled then Shared.store lease.client.cleanup start
            else .running) []
  | .reconfigure client params =>
      (shared.leases.get client).bind fun _ =>
        proceed control
          ({ shared with
            leases := shared.leases.modify client fun lease =>
              { lease with client := lease.client.configure selectCURLCertPath params, params } },
            .running) []
  | .destroy client =>
      (shared.leases.get client).bind fun _ =>
        proceed control ({ shared with leases := shared.leases.erase client }, .running) []
  | .clearCachedConnections => proceed control (shared, .clearing 0) []
  | .setCaching enabled =>
      proceed control ({ shared with connectionCachingEnabled := enabled }, .running) []

/-- The loop of `Find`. -/
def find (shared : Shared) (control : Control) (finder : Finder) (start : Fin POOL_COUNT)
    (visited : Nat) (throws : Bool) : StepResult :=
  if finder.protoHostPort.isEmpty || visited == POOL_COUNT then
    proceed control
      (if throws then (shared.failed finder, .running)
        else shared.missed selectCURLCertPath finder start)
      [.cacheMiss finder.protoHostPort]
  else
    let index := poolIndex (start + visited)
    match shared.cache.take index finder.protoHostPort with
    | some (client, cache) =>
        let shared := { shared with cache }
        touched index
          (if throws then (shared.failed finder, .running)
            else shared.deliver finder (client.configure selectCURLCertPath finder.params))
          [.cacheHit finder.protoHostPort]
    | none => proceed control (shared, .finding finder start (visited + 1)) []

/-- Behind an attempt: the exception, the retry with another client, or the return to
the caller. -/
def finishSending (shared : Shared) (control : Control) (start : Fin POOL_COUNT)
    (sending : Sending) (lease : Lease) (throws retry : Bool) : StepResult :=
  if throws then
    proceed control ({ shared with leases := shared.leases.insert lease }, .running) []
  else if retry then
    proceed control
      (shared.initializeClient selectCURLCertPath (.sendRequest sending (some lease)) start) []
  else if sending.store then proceed control (shared, Shared.store lease.client start) []
  else proceed control ({ shared with leases := shared.leases.insert lease }, .running) []

/-- The loop of `Store`, and the eviction behind it. -/
def place (shared : Shared) (control : Control) (client : HTTPFSCurlClient)
    (start : Fin POOL_COUNT) (visited : Nat) (slot : Fin POOL_SIZE) : StepResult :=
  if visited = POOL_COUNT then
    proceed control
      ({ shared with cache := shared.cache.set start slot (some client) }, .running)
      ((shared.cache start slot).toList.map fun client => .evicted client.number)
  else
    let index := poolIndex (start + visited)
    match shared.cache.place index client with
    | some cache => touched index ({ shared with cache }, .running) []
    | none => proceed control (shared, .storing client start (visited + 1)) []

/-- The loop of `Clear`. -/
def clear (shared : Shared) (control : Control) (visited : Nat) : StepResult :=
  if inside : visited < POOL_COUNT then
    proceed control
      ({ shared with cache := shared.cache.clear ⟨visited, inside⟩ }, .clearing (visited + 1)) []
  else proceed control (shared, .running) []

def program : Program ι Shared Control Choice Event := fun thread shared control choice =>
  let start := getCachePoolIndex hash thread control
  match control.stage with
  | .running => begin selectCURLCertPath shared control start choice.operation
  | .finding finder start visited =>
      find selectCURLCertPath shared control finder start visited choice.throws
  | .sending sending lease provided =>
      proceed control
        (shared, .answered sending
          { lease with client := lease.client.behind sending.request })
        [.performed provided lease sending.request]
  | .answered sending lease =>
      finishSending selectCURLCertPath shared control start sending lease choice.throws choice.retry
  | .storing client start visited => place shared control client start visited choice.slot
  | .clearing visited => clear shared control visited

end Program

/-- A database whose threads have sent no request yet. -/
def initialWorld (ι : Type u) : World ι Shared Control Event :=
  World.initial {} {}

end Httpfs.Http.ConnectionCache
