import Httpfs.Http.ConnectionCache.Program
import Httpfs.Http.ConnectionCache.Reuse

/-!
# Requests on clients that others have used

A client in a caller's variable, or in the hands of a thread that sends a request,
is ready for what was asked for; a cached client is parked.  So whatever a client
was used for before, by any thread, a request is made with the options that a new
client would set.
-/

namespace Httpfs.Http.ConnectionCache

open Text
open Httpfs.Http.Curl (normalizePathToBeAdded)
open Httpfs.Options
open Httpfs.Transition
open Httpfs.Transition.Monitor

universe u

variable {selectCURLCertPath : Text}

/-- A client that was made for the server it is asked for, and is ready. -/
structure Lease.Sound (selectCURLCertPath : Text) (lease : Lease) : Prop where
  ready : Ready selectCURLCertPath lease.params lease.client
  baseUrl : lease.client.baseUrl = lease.protoHostPort
  curlBaseUrl : lease.client.curlBaseUrl = normalizePathToBeAdded lease.client.baseUrl

/-- A client in the cache, or on its way there. -/
structure Cached (selectCURLCertPath : Text) (client : HTTPFSCurlClient) : Prop where
  parked : Parked selectCURLCertPath client
  named : client.baseUrl.isEmpty = false
  curlBaseUrl : client.curlBaseUrl = normalizePathToBeAdded client.baseUrl

/-- The lease was taken for the request. -/
def Lease.For (lease : Lease) (request : BaseRequest) : Prop :=
  lease.params = request.params ∧ lease.protoHostPort = request.protoHostPort

def Finder.Sound (selectCURLCertPath : Text) : Finder → Prop
  | .sendRequest _ (some previous) => previous.Sound selectCURLCertPath
  | _ => True

def Stage.Sound (selectCURLCertPath : Text) : Stage → Prop
  | .finding finder _ _ => finder.Sound selectCURLCertPath
  | .sending attempt lease provided =>
      lease.Sound selectCURLCertPath ∧ (provided = false → lease.For attempt.request)
  | .answered _ lease => lease.Sound selectCURLCertPath
  | .storing client _ _ => Cached selectCURLCertPath client
  | .running | .clearing _ => True

def Event.Sound (selectCURLCertPath : Text) : Event → Prop
  | .performed provided lease request =>
      lease.Sound selectCURLCertPath ∧ (provided = false → lease.For request)
  | _ => True

structure Shared.Sound (selectCURLCertPath : Text) (shared : Shared) : Prop where
  cached : ∀ index slot client, shared.cache index slot = some client →
    Cached selectCURLCertPath client
  leases : shared.leases.All (Lease.Sound selectCURLCertPath)

/-! ## The cache -/

namespace Cache

variable {cache : Cache} {index : Fin POOL_COUNT} {slot : Fin POOL_SIZE}
  {entry : Option HTTPFSCurlClient}

theorem set_cases {other : Fin POOL_COUNT} {otherSlot : Fin POOL_SIZE}
    {client : HTTPFSCurlClient} (holds : cache.set index slot entry other otherSlot = some client) :
    (other = index ∧ otherSlot = slot ∧ entry = some client) ∨
      ((other, otherSlot) ≠ (index, slot) ∧ cache other otherSlot = some client) := by
  by_cases samePool : other = index
  · subst samePool
    rw [Cache.set, Function.update_self] at holds
    by_cases sameSlot : otherSlot = slot
    · subst sameSlot
      rw [Function.update_self] at holds
      exact Or.inl ⟨rfl, rfl, holds⟩
    · rw [Function.update_of_ne sameSlot] at holds
      exact Or.inr ⟨by simp [sameSlot], holds⟩
  · rw [Cache.set, Function.update_of_ne samePool] at holds
    exact Or.inr ⟨by simp [samePool], holds⟩

/-- A client that is taken was in a slot, connected to the server. -/
theorem take_eq_some {baseUrl : Text} {client : HTTPFSCurlClient} {after : Cache}
    (takes : cache.take index baseUrl = some (client, after)) :
    ∃ slot, cache index slot = some client ∧ client.baseUrl = baseUrl ∧
      after = cache.set index slot none := by
  obtain ⟨slot, first, found⟩ := Option.bind_eq_some_iff.mp takes
  obtain ⟨stored, holds, eq⟩ := Option.map_eq_some_iff.mp found
  cases eq
  have fits := List.find?_some first
  rw [holds] at fits
  exact ⟨slot, holds, by simpa using fits, rfl⟩

theorem take_eq_none {baseUrl : Text} (misses : cache.take index baseUrl = none)
    {client : HTTPFSCurlClient} (holds : cache index slot = some client) :
    client.baseUrl ≠ baseUrl := by
  rintro rfl
  rw [Cache.take, Option.bind_eq_none_iff] at misses
  cases first : (cache index).firstSlot fun entry =>
      entry.any fun stored => stored.baseUrl == client.baseUrl with
  | none =>
      have absent := List.find?_eq_none.mp first slot (List.mem_finRange slot)
      simp [holds] at absent
  | some found =>
      have empty := misses found first
      have fits := List.find?_some first
      rw [Option.map_eq_none_iff] at empty
      simp [empty] at fits

theorem place_eq_some {client : HTTPFSCurlClient} {after : Cache}
    (places : cache.place index client = some after) :
    ∃ slot, cache index slot = none ∧ after = cache.set index slot (some client) := by
  obtain ⟨slot, first, eq⟩ := Option.map_eq_some_iff.mp places
  have empty := List.find?_some first
  exact ⟨slot, by simpa using empty, eq.symm⟩

theorem place_eq_none {client : HTTPFSCurlClient} (full : cache.place index client = none) :
    cache index slot ≠ none := by
  rw [Cache.place, Option.map_eq_none_iff] at full
  have taken := List.find?_eq_none.mp full slot (List.mem_finRange slot)
  simpa using taken

theorem clear_eq_some {other : Fin POOL_COUNT} {client : HTTPFSCurlClient}
    (holds : cache.clear index other slot = some client) : cache other slot = some client := by
  by_cases same : other = index
  · subst same
    rw [Cache.clear, Function.update_self] at holds
    contradiction
  · rwa [Cache.clear, Function.update_of_ne same] at holds

end Cache

/-! ## Steps keep clients sound -/

/-- A step that keeps everything sound. -/
def StepSound (selectCURLCertPath : Text) (result : StepResult) : Prop :=
  ∀ shared control events notify, result = some (.advance shared control events notify) →
    shared.Sound selectCURLCertPath ∧ control.stage.Sound selectCURLCertPath ∧
      ∀ event ∈ events, event.Sound selectCURLCertPath

/-- Where a client is delivered to. -/
def Delivers (selectCURLCertPath : Text) (result : Shared × Stage) : Prop :=
  result.1.Sound selectCURLCertPath ∧ result.2.Sound selectCURLCertPath

section Steps

variable {shared : Shared} {control : Control} {client : HTTPFSCurlClient} {lease : Lease}
  {finder : Finder} {start : Fin POOL_COUNT} {visited : Nat}

theorem stepSound_proceed {result : Shared × Stage} {events : List Event}
    (delivers : Delivers selectCURLCertPath result)
    (reports : ∀ event ∈ events, event.Sound selectCURLCertPath) :
    StepSound selectCURLCertPath (proceed control result events) := by
  intro next here emitted notify eq
  cases eq
  exact ⟨delivers.1, delivers.2, reports⟩

theorem stepSound_touched {index : Fin POOL_COUNT} {result : Shared × Stage}
    {events : List Event} (delivers : Delivers selectCURLCertPath result)
    (reports : ∀ event ∈ events, event.Sound selectCURLCertPath) :
    StepSound selectCURLCertPath (touched index result events) := by
  intro next here emitted notify eq
  cases eq
  exact ⟨delivers.1, delivers.2, reports⟩

namespace Shared.Sound

theorem insert (sound : shared.Sound selectCURLCertPath)
    (leased : lease.Sound selectCURLCertPath) :
    { shared with leases := shared.leases.insert lease }.Sound selectCURLCertPath where
  cached := sound.cached
  leases := sound.leases.insert leased

theorem erase (sound : shared.Sound selectCURLCertPath) (handle : Nat) :
    { shared with leases := shared.leases.erase handle }.Sound selectCURLCertPath where
  cached := sound.cached
  leases := sound.leases.erase handle

/-- Setting one slot of the cache. -/
theorem set (sound : shared.Sound selectCURLCertPath) (index : Fin POOL_COUNT)
    (slot : Fin POOL_SIZE) {entry : Option HTTPFSCurlClient}
    (stored : ∀ client, entry = some client → Cached selectCURLCertPath client) :
    { shared with cache := shared.cache.set index slot entry }.Sound selectCURLCertPath where
  cached := by
    intro other otherSlot client holds
    rcases Cache.set_cases holds with ⟨_, _, here⟩ | ⟨_, before⟩
    · exact stored client here
    · exact sound.cached other otherSlot client before
  leases := sound.leases

theorem deliver (sound : shared.Sound selectCURLCertPath) (finder : Finder)
    (ready : Ready selectCURLCertPath finder.params client)
    (baseUrl : client.baseUrl = finder.protoHostPort)
    (curlBaseUrl : client.curlBaseUrl = normalizePathToBeAdded client.baseUrl) :
    Delivers selectCURLCertPath (shared.deliver finder client) := by
  have leased : Lease.Sound selectCURLCertPath ⟨client, finder.params, finder.protoHostPort⟩ :=
    ⟨ready, baseUrl, curlBaseUrl⟩
  cases finder with
  | initializeClient params protoHostPort => exact ⟨sound.insert leased, trivial⟩
  | cachingSendRequest request => exact ⟨sound, leased, fun _ => ⟨rfl, rfl⟩⟩
  | sendRequest sending previous => exact ⟨sound, leased, fun _ => ⟨rfl, rfl⟩⟩

theorem connect (sound : shared.Sound selectCURLCertPath) (finder : Finder) :
    Delivers selectCURLCertPath (shared.connect selectCURLCertPath finder) := by
  have counted : { shared with nextClient := shared.nextClient + 1 }.Sound selectCURLCertPath :=
    ⟨sound.cached, sound.leases⟩
  exact counted.deliver finder (ready_new _ _ _ _) rfl rfl

theorem initializeClient (sound : shared.Sound selectCURLCertPath)
    (finding : finder.Sound selectCURLCertPath) (start : Fin POOL_COUNT) :
    Delivers selectCURLCertPath (shared.initializeClient selectCURLCertPath finder start) := by
  unfold Shared.initializeClient
  split
  · exact ⟨sound, finding⟩
  · exact sound.connect finder

theorem missed (sound : shared.Sound selectCURLCertPath) (finder : Finder)
    (start : Fin POOL_COUNT) :
    Delivers selectCURLCertPath (shared.missed selectCURLCertPath finder start) := by
  cases finder with
  | cachingSendRequest request =>
      have nothing : Finder.Sound selectCURLCertPath (.sendRequest ⟨request, true⟩ none) := trivial
      exact sound.initializeClient nothing start
  | initializeClient params protoHostPort => exact sound.connect _
  | sendRequest sending previous => exact sound.connect _

theorem failed (sound : shared.Sound selectCURLCertPath)
    (finding : finder.Sound selectCURLCertPath) :
    (shared.failed finder).Sound selectCURLCertPath := by
  cases finder with
  | sendRequest sending previous =>
      cases previous with
      | none => exact sound
      | some previous => exact sound.insert finding
  | initializeClient params protoHostPort => exact sound
  | cachingSendRequest request => exact sound

end Shared.Sound

/-! ## Clients between their requests -/

theorem Lease.Sound.configure (leased : lease.Sound selectCURLCertPath) (params : RequestParams) :
    Lease.Sound selectCURLCertPath
      { lease with client := lease.client.configure selectCURLCertPath params, params } := by
  obtain ⟨_, baseUrl, curlBaseUrl⟩ :=
    lease.client.configure_keeps selectCURLCertPath params
  refine ⟨leased.ready.parked.configure params, ?_, ?_⟩
  · exact baseUrl.trans leased.baseUrl
  · exact curlBaseUrl.trans (baseUrl ▸ leased.curlBaseUrl)

theorem Lease.Sound.behind (leased : lease.Sound selectCURLCertPath) (request : BaseRequest) :
    Lease.Sound selectCURLCertPath { lease with client := lease.client.behind request } :=
  ⟨leased.ready.behind request, leased.baseUrl, leased.curlBaseUrl⟩

/-- `Store` takes parked clients that are connected to a server. -/
theorem store_sound (parked : Parked selectCURLCertPath client)
    (curlBaseUrl : client.curlBaseUrl = normalizePathToBeAdded client.baseUrl)
    (start : Fin POOL_COUNT) : (Shared.store client start).Sound selectCURLCertPath := by
  unfold Shared.store
  split
  · trivial
  · rename_i named
    exact ⟨parked, by simpa using named, curlBaseUrl⟩

/-- A cached client is delivered ready. -/
theorem Cached.deliver (cached : Cached selectCURLCertPath client)
    (sound : shared.Sound selectCURLCertPath) (fits : client.baseUrl = finder.protoHostPort) :
    Delivers selectCURLCertPath
      (shared.deliver finder (client.configure selectCURLCertPath finder.params)) := by
  obtain ⟨_, baseUrl, curlBaseUrl⟩ := client.configure_keeps selectCURLCertPath finder.params
  apply sound.deliver finder (cached.parked.configure _)
  · exact baseUrl.trans fits
  · exact curlBaseUrl.trans (baseUrl ▸ cached.curlBaseUrl)

/-! ## The steps -/

theorem begin_sound (sound : shared.Sound selectCURLCertPath) (operation : Operation) :
    StepSound selectCURLCertPath (begin selectCURLCertPath shared control start operation) := by
  have silent : ∀ event ∈ ([] : List Event), event.Sound selectCURLCertPath := by simp
  cases operation with
  | initializeClient params protoHostPort =>
      have nothing : Finder.Sound selectCURLCertPath (.initializeClient params protoHostPort) :=
        trivial
      exact stepSound_proceed (sound.initializeClient nothing start) silent
  | sendRequest request handle =>
      cases handle with
      | none =>
          simp only [begin]
          split
          · exact stepSound_proceed ⟨sound, trivial⟩ silent
          · have nothing : Finder.Sound selectCURLCertPath
                (.sendRequest ⟨request, false⟩ none) := trivial
            exact stepSound_proceed (sound.initializeClient nothing start) silent
      | some handle =>
          simp only [begin]
          cases live : shared.leases.get handle with
          | none => exact fun _ _ _ _ eq => by contradiction
          | some lease =>
              have leased := sound.leases handle lease live
              exact stepSound_proceed ⟨sound.erase handle, leased, by simp⟩ silent
  | closeClient handle =>
      simp only [begin]
      cases live : shared.leases.get handle with
      | none => exact fun _ _ _ _ eq => by contradiction
      | some lease =>
          have leased := sound.leases handle lease live
          refine stepSound_proceed ⟨sound.erase handle, ?_⟩ silent
          dsimp only
          split
          · exact store_sound leased.ready.parked.cleanup leased.curlBaseUrl start
          · trivial
  | reconfigure handle params =>
      simp only [begin]
      cases live : shared.leases.get handle with
      | none => exact fun _ _ _ _ eq => by contradiction
      | some lease =>
          refine stepSound_proceed ⟨⟨sound.cached, ?_⟩, trivial⟩ silent
          exact sound.leases.modify fun _ _ leased => leased.configure params
  | destroy handle =>
      simp only [begin]
      cases live : shared.leases.get handle with
      | none => exact fun _ _ _ _ eq => by contradiction
      | some lease => exact stepSound_proceed ⟨sound.erase handle, trivial⟩ silent
  | clearCachedConnections => exact stepSound_proceed ⟨sound, trivial⟩ silent
  | setCaching enabled =>
      exact stepSound_proceed ⟨⟨sound.cached, sound.leases⟩, trivial⟩ silent

theorem find_sound (sound : shared.Sound selectCURLCertPath)
    (finding : finder.Sound selectCURLCertPath) (throws : Bool) :
    StepSound selectCURLCertPath
      (find selectCURLCertPath shared control finder start visited throws) := by
  unfold find
  split
  · apply stepSound_proceed
    · split
      · exact ⟨sound.failed finding, trivial⟩
      · exact sound.missed finder start
    · simp [Event.Sound]
  · dsimp only
    split
    · rename_i client cache takes
      obtain ⟨slot, holds, fits, rfl⟩ := Cache.take_eq_some takes
      have cached := sound.cached _ _ _ holds
      have nothing : ∀ other, none = some other → Cached selectCURLCertPath other :=
        fun _ impossible => by contradiction
      have without := sound.set (poolIndex (start + visited)) slot nothing
      apply stepSound_touched
      · split
        · exact ⟨without.failed finding, trivial⟩
        · exact cached.deliver without fits
      · simp [Event.Sound]
    · exact stepSound_proceed ⟨sound, finding⟩ (by simp)

theorem finishSending_sound (sound : shared.Sound selectCURLCertPath)
    (leased : lease.Sound selectCURLCertPath) (attempt : Sending) (throws retry : Bool) :
    StepSound selectCURLCertPath
      (finishSending selectCURLCertPath shared control start attempt lease throws retry) := by
  have silent : ∀ event ∈ ([] : List Event), event.Sound selectCURLCertPath := by simp
  have previous : Finder.Sound selectCURLCertPath (.sendRequest attempt (some lease)) := leased
  unfold finishSending
  split
  · exact stepSound_proceed ⟨sound.insert leased, trivial⟩ silent
  · split
    · exact stepSound_proceed (sound.initializeClient previous start) silent
    · split
      · exact stepSound_proceed ⟨sound, store_sound leased.ready.parked leased.curlBaseUrl start⟩
          silent
      · exact stepSound_proceed ⟨sound.insert leased, trivial⟩ silent

theorem place_sound (sound : shared.Sound selectCURLCertPath)
    (cached : Cached selectCURLCertPath client) (slot : Fin POOL_SIZE) :
    StepSound selectCURLCertPath (place shared control client start visited slot) := by
  have stored : ∀ other, some client = some other → Cached selectCURLCertPath other := by
    rintro _ ⟨⟩
    exact cached
  unfold place
  split
  · refine stepSound_proceed ⟨sound.set start slot stored, trivial⟩ ?_
    intro event member
    obtain ⟨evicted, _, rfl⟩ := List.mem_map.mp member
    trivial
  · dsimp only
    split
    · rename_i cache places
      obtain ⟨empty, _, rfl⟩ := Cache.place_eq_some places
      exact stepSound_touched ⟨sound.set _ empty stored, trivial⟩ (by simp)
    · exact stepSound_proceed ⟨sound, cached⟩ (by simp)

theorem clear_sound (sound : shared.Sound selectCURLCertPath) :
    StepSound selectCURLCertPath (clear shared control visited) := by
  unfold clear
  split
  · refine stepSound_proceed ⟨⟨?_, sound.leases⟩, trivial⟩ (by simp)
    intro index slot client holds
    exact sound.cached _ _ _ (Cache.clear_eq_some holds)
  · exact stepSound_proceed ⟨sound, trivial⟩ (by simp)

theorem program_sound {ι : Type u} (hash : ι → Fin POOL_COUNT) {thread : ι} {choice : Choice}
    (sound : shared.Sound selectCURLCertPath)
    (staged : control.stage.Sound selectCURLCertPath) :
    StepSound selectCURLCertPath
      (program selectCURLCertPath hash thread shared control choice) := by
  unfold program
  dsimp only
  cases stage : control.stage with
  | running => exact begin_sound sound _
  | finding finder start visited =>
      rw [stage] at staged
      exact find_sound sound staged _
  | sending attempt lease provided =>
      rw [stage] at staged
      refine stepSound_proceed ⟨sound, staged.1.behind attempt.request⟩ ?_
      intro event member
      rw [List.mem_singleton] at member
      subst member
      exact staged
  | answered attempt lease =>
      rw [stage] at staged
      exact finishSending_sound sound staged attempt _ _
  | storing client start visited =>
      rw [stage] at staged
      exact place_sound sound staged _
  | clearing visited => exact clear_sound sound

end Steps

/-! ## Runs -/

section Runs

variable {ι : Type u} [DecidableEq ι]

structure WorldSound (selectCURLCertPath : Text) (world : World ι Shared Control Event) :
    Prop where
  shared : world.shared.Sound selectCURLCertPath
  stages : ∀ thread, (world.control thread).stage.Sound selectCURLCertPath
  events : ∀ entry ∈ world.trace, entry.2.Sound selectCURLCertPath

omit [DecidableEq ι] in
theorem worldSound_initial : WorldSound selectCURLCertPath (initialWorld ι) where
  shared := ⟨fun _ _ _ holds => by contradiction, Arena.all_empty⟩
  stages := fun _ => trivial
  events := fun _ member => by contradiction

theorem WorldSound.step {hash : ι → Fin POOL_COUNT} {world next : World ι Shared Control Event}
    {thread : ι} {choice : Choice} (sound : WorldSound selectCURLCertPath world)
    (stepped : step (program selectCURLCertPath hash) world thread choice = some next) :
    WorldSound selectCURLCertPath next := by
  obtain ⟨_, ⟨_, rfl⟩ | ⟨shared, control, events, notify, advances, rfl⟩⟩ := step_cases stepped
  · exact ⟨sound.shared, sound.stages, sound.events⟩
  · obtain ⟨sharedSound, stageSound, reports⟩ :=
      program_sound hash sound.shared (sound.stages thread) _ _ _ _ advances
    refine ⟨sharedSound, ?_, ?_⟩
    · intro other
      by_cases same : other = thread
      · subst same
        simpa [World.advance] using stageSound
      · simpa [World.advance, same] using sound.stages other
    · intro entry member
      rcases List.mem_append.mp member with before | new
      · exact sound.events entry before
      · obtain ⟨event, emitted, rfl⟩ := List.mem_map.mp new
        exact reports event emitted

end Runs

/-! ## A client that is handed over -/

/-- A request with a bearer token. -/
def tokenRequest (token : Text) : BaseRequest where
  type := .head
  protoHostPort := ['h']
  path := ['/']
  params := { bearerToken := token }

/-- An operation, or the next step of one, without failures. -/
def goOn (operation : Operation) : Choice where
  operation := operation
  slot := ⟨0, by decide⟩

/-- A thread that lists files, and one that reads them. -/
inductive Caller where
  | lister
  | reader
  deriving DecidableEq

def twoThreads : Program Caller Shared Control Choice Event :=
  program [] fun _ => poolIndex 0

/-- The lister has sent a request without the cache, and keeps the client. -/
def leasedClient : World Caller Shared Control Event :=
  play twoThreads (initialWorld Caller)
    [(.lister, goOn (.setCaching false)),
      (.lister, goOn (.sendRequest (tokenRequest ['a']) none)),
      (.lister, goOn .clearCachedConnections), (.lister, goOn .clearCachedConnections),
      (.lister, goOn (.setCaching true))]

/-- It has returned the client. -/
def parkedClient : World Caller Shared Control Event :=
  play twoThreads leasedClient
    [(.lister, goOn (.closeClient 0)), (.lister, goOn .clearCachedConnections)]

/-- The reader, with another token, has sent a request with it. -/
def handedOver : World Caller Shared Control Event :=
  play twoThreads parkedClient
    [(.reader, goOn (.sendRequest (tokenRequest ['b']) none)),
      (.reader, goOn .clearCachedConnections), (.reader, goOn .clearCachedConnections)]

theorem run_handedOver : Run twoThreads (initialWorld Caller) handedOver :=
  ((run_play _ _ _).trans (run_play _ _ _)).trans (run_play _ _ _)

end Httpfs.Http.ConnectionCache
