import Httpfs.Http.ConnectionCache.Isolation
import Httpfs.Transition.Custody

/-!
# Where the clients of the connection cache are

A client object is in one slot of the cache, in the variable of one caller, or in
the hands of one thread.  No two threads ever send a request with the same client,
and no client is found in the cache while it is used.
-/

namespace Httpfs.Http.ConnectionCache

open Text
open Httpfs.Transition
open Httpfs.Transition.Monitor

universe u

/-- Where a client can be. -/
inductive Place (ι : Type u)
  | slot (index : Fin POOL_COUNT) (entry : Fin POOL_SIZE)
  | lease (handle : Nat)
  | thread (thread : ι)

/-- The client in the hands of a thread. -/
def Stage.client? : Stage → Option HTTPFSCurlClient
  | .finding (.sendRequest _ previous) _ _ => previous.map Lease.client
  | .sending _ lease _ | .answered _ lease => some lease.client
  | .storing client _ _ => some client
  | .running | .finding _ _ _ | .clearing _ => none

variable {ι : Type u}

/-- The client with a number is at a place. -/
def Held (shared : Shared) (stages : ι → Stage) : Place ι → Nat → Prop
  | .slot index entry, number =>
      ∃ client, shared.cache index entry = some client ∧ client.number = number
  | .lease handle, number =>
      ∃ lease, shared.leases.get handle = some lease ∧ lease.client.number = number
  | .thread thread, number =>
      ∃ client, (stages thread).client? = some client ∧ client.number = number

/-- Every client is at one place. -/
abbrev Exclusive (shared : Shared) (stages : ι → Stage) : Prop :=
  Custody (Held shared stages) shared.nextClient

/-- The slots, the variables, and the hands of one thread. -/
abbrev Local (shared : Shared) (stage : Stage) : Place Unit → Nat → Prop :=
  Held shared fun _ => stage

/-- What a step of a thread can do with the clients. -/
inductive Flow (shared : Shared) (stage : Stage) (after : Shared) (here : Stage) : Prop
  | kept (more : shared.nextClient ≤ after.nextClient)
      (keeps : ∀ place number, Local after here place number →
        Local shared stage place number) : Flow shared stage after here
  | moved (giver receiver : Place Unit) (passed : Nat)
      (more : shared.nextClient ≤ after.nextClient)
      (gives : Local shared stage giver passed)
      (moves : ∀ place number, Local after here place number →
        (place = receiver ∧ number = passed) ∨
          (place ≠ giver ∧ Local shared stage place number)) : Flow shared stage after here
  | made (receiver : Place Unit) (more : shared.nextClient < after.nextClient)
      (makes : ∀ place number, Local after here place number →
        (place = receiver ∧ number = shared.nextClient) ∨
          Local shared stage place number) : Flow shared stage after here

/-! ## From one thread to all -/

/-- A place as seen by a thread. -/
def Place.seenBy (thread : ι) : Place Unit → Place ι
  | .slot index entry => .slot index entry
  | .lease handle => .lease handle
  | .thread _ => .thread thread

theorem Place.seenBy_injective (thread : ι) : Function.Injective (Place.seenBy thread) := by
  intro first second same
  cases first <;> cases second <;> cases same <;> rfl

section Lift

variable [DecidableEq ι] {shared after : Shared} {stages : ι → Stage} {thread : ι} {here : Stage}

omit [DecidableEq ι] in
theorem held_of_local {place : Place Unit} {number : Nat}
    (holds : Local shared (stages thread) place number) :
    Held shared stages (place.seenBy thread) number := by
  cases place with
  | slot | lease | thread => exact holds

/-- Behind a step of one thread the others hold what they held. -/
theorem held_update {holder : Place ι} {number : Nat}
    (holds : Held after (Function.update stages thread here) holder number) :
    (∃ place : Place Unit, holder = place.seenBy thread ∧ Local after here place number) ∨
      ((∀ place : Place Unit, holder ≠ place.seenBy thread) ∧
        Held shared stages holder number) := by
  cases holder with
  | slot index entry => exact Or.inl ⟨.slot index entry, rfl, holds⟩
  | lease handle => exact Or.inl ⟨.lease handle, rfl, holds⟩
  | thread other =>
      obtain ⟨client, found, numbered⟩ := holds
      by_cases same : other = thread
      · subst same
        rw [Function.update_self] at found
        exact Or.inl ⟨.thread (), rfl, client, found, numbered⟩
      · rw [Function.update_of_ne same] at found
        refine Or.inr ⟨?_, client, found, numbered⟩
        intro place
        cases place with
        | slot | lease => exact fun impossible => by contradiction
        | thread =>
            rintro ⟨⟩
            exact same rfl

theorem Custody.flow (exclusive : Exclusive shared stages)
    (flow : Flow shared (stages thread) after here) :
    Exclusive after (Function.update stages thread here) := by
  cases flow with
  | kept more keeps =>
      apply exclusive.letGo _ more
      intro holder number holds
      rcases held_update holds with ⟨place, rfl, own⟩ | ⟨_, held⟩
      · exact held_of_local (keeps place number own)
      · exact held
  | moved giver receiver passed more gives moves =>
      have moved : ∀ holder number,
          Held after (Function.update stages thread here) holder number →
            (holder = receiver.seenBy thread ∧ number = passed) ∨
              (holder ≠ giver.seenBy thread ∧ Held shared stages holder number) := by
        intro holder number holds
        rcases held_update holds with ⟨place, rfl, own⟩ | ⟨elsewhere, held⟩
        · rcases moves place number own with ⟨rfl, rfl⟩ | ⟨other, held⟩
          · exact Or.inl ⟨rfl, rfl⟩
          · exact Or.inr ⟨(Place.seenBy_injective thread).ne other, held_of_local held⟩
        · exact Or.inr ⟨elsewhere giver, held⟩
      exact exclusive.move (held_of_local gives) moved more
  | made receiver more makes =>
      have made : ∀ holder number,
          Held after (Function.update stages thread here) holder number →
            (holder = receiver.seenBy thread ∧ number = shared.nextClient) ∨
              Held shared stages holder number := by
        intro holder number holds
        rcases held_update holds with ⟨place, rfl, own⟩ | ⟨_, held⟩
        · rcases makes place number own with ⟨rfl, rfl⟩ | held
          · exact Or.inl ⟨rfl, rfl⟩
          · exact Or.inr (held_of_local held)
        · exact Or.inr held
      exact exclusive.make made more

end Lift

/-! ## The steps -/

/-- A step with such a flow. -/
def StepFlow (shared : Shared) (stage : Stage) (result : StepResult) : Prop :=
  ∀ after control events notify, result = some (.advance after control events notify) →
    Flow shared stage after control.stage

section Steps

variable {shared after : Shared} {control : Control} {stage here : Stage} {finder : Finder}
  {client : HTTPFSCurlClient} {lease : Lease} {start : Fin POOL_COUNT} {visited : Nat}
  {selectCURLCertPath : Text}

theorem stepFlow_proceed {result : Shared × Stage} {events : List Event}
    (flow : Flow shared stage result.1 result.2) :
    StepFlow shared stage (proceed control result events) := by
  intro next here emitted notify eq
  cases eq
  exact flow

theorem stepFlow_touched {index : Fin POOL_COUNT} {result : Shared × Stage}
    {events : List Event} (flow : Flow shared stage result.1 result.2) :
    StepFlow shared stage (touched index result events) := by
  intro next here emitted notify eq
  cases eq
  exact flow

/-- A thread lets go of its client, or keeps it. -/
theorem flow_kept (more : shared.nextClient ≤ after.nextClient)
    (slots : ∀ index entry client, after.cache index entry = some client →
      shared.cache index entry = some client)
    (leases : ∀ handle lease, after.leases.get handle = some lease →
      ∃ before, shared.leases.get handle = some before ∧
        before.client.number = lease.client.number)
    (hands : ∀ client, here.client? = some client →
      ∃ before, stage.client? = some before ∧ before.number = client.number) :
    Flow shared stage after here := by
  refine .kept more ?_
  intro place number holds
  cases place with
  | slot index entry =>
      obtain ⟨client, stored, numbered⟩ := holds
      exact ⟨client, slots _ _ _ stored, numbered⟩
  | lease handle =>
      obtain ⟨lease, live, numbered⟩ := holds
      obtain ⟨before, was, same⟩ := leases handle lease live
      exact ⟨before, was, same.trans numbered⟩
  | thread _ =>
      obtain ⟨client, found, numbered⟩ := holds
      obtain ⟨before, was, same⟩ := hands client found
      exact ⟨before, was, same.trans numbered⟩

/-- A thread puts its client into a variable. -/
theorem flow_insert (more : shared.nextClient ≤ after.nextClient)
    (slots : ∀ index entry client, after.cache index entry = some client →
      shared.cache index entry = some client)
    (leases : after.leases = shared.leases.insert lease)
    (own : stage.client? = some lease.client) (empty : here.client? = none) :
    Flow shared stage after here := by
  refine .moved (.thread ()) (.lease shared.leases.next) lease.client.number more
    ⟨lease.client, own, rfl⟩ ?_
  intro place number holds
  cases place with
  | slot index entry =>
      obtain ⟨client, stored, numbered⟩ := holds
      exact Or.inr ⟨by simp, client, slots _ _ _ stored, numbered⟩
  | lease handle =>
      obtain ⟨found, live, numbered⟩ := holds
      rw [leases] at live
      rcases Arena.get_insert_cases live with ⟨rfl, rfl⟩ | before
      · exact Or.inl ⟨rfl, numbered.symm⟩
      · exact Or.inr ⟨by simp, found, before, numbered⟩
  | thread _ =>
      obtain ⟨client, found, _⟩ := holds
      rw [empty] at found
      contradiction

/-- A thread takes a client out of a variable. -/
theorem flow_erase {handle : Nat} (live : shared.leases.get handle = some lease)
    (hands : ∀ client, here.client? = some client → client.number = lease.client.number) :
    Flow shared stage { shared with leases := shared.leases.erase handle } here := by
  refine .moved (.lease handle) (.thread ()) lease.client.number le_rfl ⟨lease, live, rfl⟩ ?_
  intro place number holds
  cases place with
  | slot index entry => exact Or.inr ⟨by simp, holds⟩
  | lease other =>
      obtain ⟨found, still, numbered⟩ := holds
      obtain ⟨different, before⟩ := Arena.get_erase_cases still
      exact Or.inr ⟨by simpa using different, found, before, numbered⟩
  | thread _ =>
      obtain ⟨client, found, numbered⟩ := holds
      exact Or.inl ⟨rfl, numbered ▸ hands client found⟩

/-- A thread puts its client into a slot of the cache. -/
theorem flow_set (index : Fin POOL_COUNT) (entry : Fin POOL_SIZE)
    (own : stage.client? = some client) :
    Flow shared stage { shared with cache := shared.cache.set index entry (some client) }
      .running := by
  refine .moved (.thread ()) (.slot index entry) client.number le_rfl ⟨client, own, rfl⟩ ?_
  intro place number holds
  cases place with
  | slot other position =>
      obtain ⟨stored, found, numbered⟩ := holds
      rcases Cache.set_cases found with ⟨rfl, rfl, same⟩ | ⟨_, before⟩
      · cases same
        exact Or.inl ⟨rfl, numbered.symm⟩
      · exact Or.inr ⟨by simp, stored, before, numbered⟩
  | lease handle => exact Or.inr ⟨by simp, holds⟩
  | thread _ =>
      obtain ⟨_, found, _⟩ := holds
      contradiction

/-- Where a finder puts its client. -/
def Finder.receiver (shared : Shared) : Finder → Place Unit
  | .initializeClient _ _ => .lease shared.leases.next
  | .cachingSendRequest _ | .sendRequest _ _ => .thread ()

/-- Behind a delivery the finder has the client, and lets go of any other. -/
theorem local_deliver {place : Place Unit} {number : Nat}
    (holds : Local (shared.deliver finder client).1 (shared.deliver finder client).2 place
      number) :
    (place = finder.receiver shared ∧ number = client.number) ∨
      ((∀ own : Unit, place ≠ .thread own) ∧ Local shared .running place number) := by
  cases finder with
  | initializeClient params protoHostPort =>
      cases place with
      | slot index entry => exact Or.inr ⟨by simp, holds⟩
      | lease handle =>
          obtain ⟨found, live, numbered⟩ := holds
          rcases Arena.get_insert_cases live with ⟨rfl, rfl⟩ | before
          · exact Or.inl ⟨rfl, numbered.symm⟩
          · exact Or.inr ⟨by simp, found, before, numbered⟩
      | thread _ =>
          obtain ⟨_, found, _⟩ := holds
          contradiction
  | cachingSendRequest request =>
      cases place with
      | slot index entry => exact Or.inr ⟨by simp, holds⟩
      | lease handle => exact Or.inr ⟨by simp, holds⟩
      | thread _ =>
          obtain ⟨_, found, numbered⟩ := holds
          cases found
          exact Or.inl ⟨rfl, numbered.symm⟩
  | sendRequest attempt previous =>
      cases place with
      | slot index entry => exact Or.inr ⟨by simp, holds⟩
      | lease handle => exact Or.inr ⟨by simp, holds⟩
      | thread _ =>
          obtain ⟨_, found, numbered⟩ := holds
          cases found
          exact Or.inl ⟨rfl, numbered.symm⟩

theorem local_of_running {place : Place Unit} {number : Nat}
    (holds : Local shared .running place number) : Local shared stage place number := by
  cases place with
  | slot | lease => exact holds
  | thread _ =>
      obtain ⟨_, found, _⟩ := holds
      contradiction

theorem nextClient_deliver (shared : Shared) (finder : Finder) (client : HTTPFSCurlClient) :
    (shared.deliver finder client).1.nextClient = shared.nextClient := by
  cases finder with
  | initializeClient | cachingSendRequest | sendRequest => rfl

/-- A client is made for the finder. -/
theorem flow_connect (finder : Finder) :
    Flow shared stage (shared.connect selectCURLCertPath finder).1
      (shared.connect selectCURLCertPath finder).2 := by
  have numbered := (HTTPFSCurlClient.configure_keeps selectCURLCertPath
    { number := shared.nextClient
      baseUrl := finder.protoHostPort
      curlBaseUrl := Curl.normalizePathToBeAdded finder.protoHostPort } finder.params).1
  refine .made (finder.receiver shared) ?_ ?_
  · rw [Shared.connect, nextClient_deliver]
    exact Nat.lt_succ_self _
  · intro place number holds
    rcases local_deliver holds with ⟨rfl, rfl⟩ | ⟨_, before⟩
    · refine Or.inl ⟨?_, numbered⟩
      cases finder with
      | initializeClient | cachingSendRequest | sendRequest => rfl
    · have kept : Local shared .running place number := by
        cases place with
        | slot | lease | thread => exact before
      exact Or.inr (local_of_running kept)

theorem flow_initializeClient (start : Fin POOL_COUNT)
    (hands : ∀ client, (Stage.finding finder start 0).client? = some client →
      stage.client? = some client) :
    Flow shared stage (shared.initializeClient selectCURLCertPath finder start).1
      (shared.initializeClient selectCURLCertPath finder start).2 := by
  unfold Shared.initializeClient
  split
  · exact flow_kept le_rfl (fun _ _ _ stored => stored) (fun _ lease live => ⟨lease, live, rfl⟩)
      fun client found => ⟨client, hands client found, rfl⟩
  · exact flow_connect finder

theorem flow_missed :
    Flow shared (.finding finder start visited) (shared.missed selectCURLCertPath finder start).1
      (shared.missed selectCURLCertPath finder start).2 := by
  cases finder with
  | cachingSendRequest request => exact flow_initializeClient start (by simp [Stage.client?])
  | initializeClient params protoHostPort => exact flow_connect _
  | sendRequest attempt previous => exact flow_connect _

/-- An exception lets the client that was found go. -/
theorem flow_failed {cache : Cache}
    (slots : ∀ index entry client, cache index entry = some client →
      shared.cache index entry = some client) :
    Flow shared (.finding finder start visited) ({ shared with cache }.failed finder)
      .running := by
  have dropped : Flow shared (.finding finder start visited) { shared with cache } .running :=
    flow_kept le_rfl slots (fun _ lease live => ⟨lease, live, rfl⟩) (by simp [Stage.client?])
  cases finder with
  | sendRequest attempt previous =>
      cases previous with
      | none => exact dropped
      | some previous => exact flow_insert le_rfl slots rfl rfl rfl
  | initializeClient params protoHostPort => exact dropped
  | cachingSendRequest request => exact dropped

/-- A cached client goes to the finder. -/
theorem flow_hit {index : Fin POOL_COUNT} {entry : Fin POOL_SIZE} {found : HTTPFSCurlClient}
    (stored : shared.cache index entry = some found) (same : client.number = found.number) :
    Flow shared stage
      ({ shared with cache := shared.cache.set index entry none }.deliver finder client).1
      ({ shared with cache := shared.cache.set index entry none }.deliver finder client).2 := by
  refine .moved (.slot index entry) (finder.receiver shared) found.number ?_
    ⟨found, stored, rfl⟩ ?_
  · rw [nextClient_deliver]
  · intro place number holds
    rcases local_deliver holds with ⟨rfl, rfl⟩ | ⟨others, before⟩
    · refine Or.inl ⟨?_, same⟩
      cases finder with
      | initializeClient | cachingSendRequest | sendRequest => rfl
    · cases place with
      | slot other position =>
          obtain ⟨client, left, numbered⟩ := before
          rcases Cache.set_cases left with ⟨_, _, impossible⟩ | ⟨different, was⟩
          · contradiction
          · exact Or.inr ⟨by simpa using different, client, was, numbered⟩
      | lease handle => exact Or.inr ⟨by simp, before⟩
      | thread own => exact absurd rfl (others own)

/-! ## The program -/

theorem begin_flow (operation : Operation) :
    StepFlow shared .running (begin selectCURLCertPath shared control start operation) := by
  have same : ∀ handle lease, shared.leases.get handle = some lease →
      ∃ before, shared.leases.get handle = some before ∧
        before.client.number = lease.client.number := fun _ lease live => ⟨lease, live, rfl⟩
  cases operation with
  | initializeClient params protoHostPort =>
      exact stepFlow_proceed (flow_initializeClient start (by simp [Stage.client?]))
  | sendRequest request handle =>
      cases handle with
      | none =>
          simp only [begin]
          split
          · exact stepFlow_proceed
              (flow_kept le_rfl (fun _ _ _ stored => stored) same (by simp [Stage.client?]))
          · exact stepFlow_proceed (flow_initializeClient start (by simp [Stage.client?]))
      | some handle =>
          simp only [begin]
          cases live : shared.leases.get handle with
          | none => exact fun _ _ _ _ eq => by contradiction
          | some lease => exact stepFlow_proceed (flow_erase live (by simp [Stage.client?]))
  | closeClient handle =>
      simp only [begin]
      cases live : shared.leases.get handle with
      | none => exact fun _ _ _ _ eq => by contradiction
      | some lease =>
          apply stepFlow_proceed
          apply flow_erase live
          intro client taken
          dsimp only at taken
          split at taken
          · unfold Shared.store at taken
            split at taken
            · contradiction
            · cases taken
              rfl
          · contradiction
  | reconfigure handle params =>
      simp only [begin]
      cases live : shared.leases.get handle with
      | none => exact fun _ _ _ _ eq => by contradiction
      | some lease =>
          apply stepFlow_proceed
          refine flow_kept le_rfl (fun _ _ _ stored => stored) ?_ (by simp [Stage.client?])
          intro other changed found
          rcases Arena.get_modify_cases found with ⟨rfl, before, was, rfl⟩ | ⟨_, was⟩
          · exact ⟨before, was, (before.client.configure_keeps _ _).1.symm⟩
          · exact ⟨changed, was, rfl⟩
  | destroy handle =>
      simp only [begin]
      cases live : shared.leases.get handle with
      | none => exact fun _ _ _ _ eq => by contradiction
      | some lease => exact stepFlow_proceed (flow_erase live (by simp [Stage.client?]))
  | clearCachedConnections =>
      exact stepFlow_proceed
        (flow_kept le_rfl (fun _ _ _ stored => stored) same (by simp [Stage.client?]))
  | setCaching enabled =>
      exact stepFlow_proceed
        (flow_kept le_rfl (fun _ _ _ stored => stored) same (by simp [Stage.client?]))

theorem find_flow (throws : Bool) :
    StepFlow shared (.finding finder start visited)
      (find selectCURLCertPath shared control finder start visited throws) := by
  unfold find
  split
  · apply stepFlow_proceed
    split
    · exact flow_failed fun _ _ _ stored => stored
    · exact flow_missed
  · dsimp only
    split
    · rename_i client cache takes
      obtain ⟨entry, stored, _, rfl⟩ := Cache.take_eq_some takes
      apply stepFlow_touched
      split
      · apply flow_failed
        intro index other client left
        rcases Cache.set_cases left with ⟨_, _, impossible⟩ | ⟨_, was⟩
        · contradiction
        · exact was
      · exact flow_hit stored (client.configure_keeps _ _).1
    · apply stepFlow_proceed
      refine flow_kept le_rfl (fun _ _ _ stored => stored)
        (fun _ lease live => ⟨lease, live, rfl⟩) fun client own => ⟨client, ?_, rfl⟩
      cases finder with
      | initializeClient | cachingSendRequest | sendRequest => exact own

theorem finishSending_flow (attempt : Sending) (throws retry : Bool) :
    StepFlow shared (.answered attempt lease)
      (finishSending selectCURLCertPath shared control start attempt lease throws retry) := by
  unfold finishSending
  split
  · exact stepFlow_proceed (flow_insert le_rfl (fun _ _ _ stored => stored) rfl rfl rfl)
  · split
    · exact stepFlow_proceed (flow_initializeClient start (by simp [Stage.client?]))
    · split
      · apply stepFlow_proceed
        refine flow_kept le_rfl (fun _ _ _ stored => stored)
          (fun _ lease live => ⟨lease, live, rfl⟩) ?_
        intro client taken
        dsimp only at taken
        unfold Shared.store at taken
        split at taken
        · contradiction
        · exact ⟨client, taken, rfl⟩
      · exact stepFlow_proceed (flow_insert le_rfl (fun _ _ _ stored => stored) rfl rfl rfl)

theorem place_flow (slot : Fin POOL_SIZE) :
    StepFlow shared (.storing client start visited)
      (place shared control client start visited slot) := by
  unfold place
  split
  · exact stepFlow_proceed (flow_set start slot rfl)
  · dsimp only
    split
    · rename_i cache places
      obtain ⟨entry, _, rfl⟩ := Cache.place_eq_some places
      exact stepFlow_touched (flow_set _ entry rfl)
    · apply stepFlow_proceed
      exact flow_kept le_rfl (fun _ _ _ stored => stored) (fun _ lease live => ⟨lease, live, rfl⟩)
        fun client own => ⟨client, own, rfl⟩

theorem clear_flow :
    StepFlow shared (.clearing visited) (clear shared control visited) := by
  unfold clear
  split
  · apply stepFlow_proceed
    exact flow_kept le_rfl (fun _ _ _ left => Cache.clear_eq_some left)
      (fun _ lease live => ⟨lease, live, rfl⟩) (by simp [Stage.client?])
  · apply stepFlow_proceed
    exact flow_kept le_rfl (fun _ _ _ stored => stored) (fun _ lease live => ⟨lease, live, rfl⟩)
      (by simp [Stage.client?])

theorem program_flow {ι : Type u} (hash : ι → Fin POOL_COUNT) {thread : ι} {choice : Choice} :
    StepFlow shared control.stage
      (program selectCURLCertPath hash thread shared control choice) := by
  unfold program
  dsimp only
  cases stage : control.stage with
  | running => exact begin_flow _
  | finding finder start visited => exact find_flow _
  | sending attempt lease provided =>
      apply stepFlow_proceed
      refine flow_kept le_rfl (fun _ _ _ stored => stored)
        (fun _ lease live => ⟨lease, live, rfl⟩) ?_
      rintro _ ⟨⟩
      exact ⟨lease.client, rfl, rfl⟩
  | answered attempt lease => exact finishSending_flow _ _ _
  | storing client start visited => exact place_flow _
  | clearing visited => exact clear_flow

end Steps

/-! ## Runs -/

section Runs

variable [DecidableEq ι]

/-- The clients of a world. -/
abbrev WorldHeld (world : World ι Shared Control Event) : Place ι → Nat → Prop :=
  Held world.shared fun thread => (world.control thread).stage

omit [DecidableEq ι] in
theorem exclusive_initial : Custody (WorldHeld (initialWorld ι)) 0 := by
  apply Custody.empty
  intro holder number holds
  cases holder with
  | slot | lease | thread =>
      obtain ⟨_, impossible, _⟩ := holds
      contradiction

theorem exclusive_step {selectCURLCertPath : Text} {hash : ι → Fin POOL_COUNT}
    {world next : World ι Shared Control Event} {thread : ι} {choice : Choice}
    (exclusive : Custody (WorldHeld world) world.shared.nextClient)
    (stepped : step (program selectCURLCertPath hash) world thread choice = some next) :
    Custody (WorldHeld next) next.shared.nextClient := by
  obtain ⟨_, ⟨_, rfl⟩ | ⟨shared, control, events, notify, advances, rfl⟩⟩ := step_cases stepped
  · exact exclusive
  · have moved := Custody.flow exclusive (program_flow hash _ _ _ _ advances)
    have stages : (fun other => ((world.advance thread shared control events notify).control
          other).stage) =
        Function.update (fun other => (world.control other).stage) thread control.stage :=
      Function.comp_update Control.stage world.control thread control
    rw [WorldHeld, stages]
    exact moved

/-- No two threads ever send requests with one client, and no client is in the cache
or in a variable while it is used: wherever a client object is, it is there alone. -/
theorem client_exclusive (selectCURLCertPath : Text) (hash : ι → Fin POOL_COUNT)
    {world : World ι Shared Control Event}
    (run : Run (program selectCURLCertPath hash) (initialWorld ι) world) :
    ∀ first second number, WorldHeld world first number → WorldHeld world second number →
      first = second := by
  have exclusive := RunWhere.invariant
    (motive := fun world => Custody (WorldHeld world) world.shared.nextClient)
    (fun _ _ _ _ exclusive _ stepped => exclusive_step exclusive stepped) run exclusive_initial
  exact exclusive.unique

end Runs

theorem client_exclusive_handedOver :
    WorldHeld handedOver (.thread .reader) 0 ∧
      ∀ place, WorldHeld handedOver place 0 → place = .thread .reader := by
  have here : WorldHeld handedOver (.thread .reader) 0 := ⟨_, rfl, rfl⟩
  refine ⟨here, fun place holds => ?_⟩
  exact client_exclusive [] (fun _ => poolIndex 0) run_handedOver _ _ _ holds here

end Httpfs.Http.ConnectionCache
