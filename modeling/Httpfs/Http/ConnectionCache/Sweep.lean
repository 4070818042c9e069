import Httpfs.Http.ConnectionCache.Isolation

/-!
# Going over the pools

`Find` and the first pass of `Store` lock one pool after the other, while other
threads change the pools behind and ahead of them.  Still neither ends without
success if one slot would have served it all the time: a client that stays cached is
never missed, and no client is evicted while a slot stays empty.
-/

namespace Httpfs.Http.ConnectionCache

open Text
open Httpfs.Transition
open Httpfs.Transition.Monitor

universe u

/-! ## All pools are visited -/

theorem poolIndex_eq (position : Nat) : (poolIndex position).val = position % POOL_COUNT :=
  Nat.and_two_pow_sub_one_eq_mod position 4

/-- Sixteen pools in a row are all pools. -/
theorem exists_poolIndex (start index : Fin POOL_COUNT) :
    ∃ offset < POOL_COUNT, poolIndex (start + offset) = index := by
  refine ⟨(index + (POOL_COUNT - start)) % POOL_COUNT, Nat.mod_lt _ (by decide), ?_⟩
  apply Fin.ext
  have inside := index.isLt
  rw [poolIndex_eq, Nat.add_mod_mod]
  have around : start + (index.val + (POOL_COUNT - start)) = index + POOL_COUNT := by
    have bound := start.isLt
    omega
  rw [around, Nat.add_mod_right, Nat.mod_eq_of_lt inside]

/-- The pools visited so far, seen from one that is not among them. -/
def Unvisited (index start : Fin POOL_COUNT) (visited : Nat) : Prop :=
  ∀ offset < visited, poolIndex (start + offset) ≠ index

theorem unvisited_succ {index start : Fin POOL_COUNT} {visited : Nat}
    (unvisited : Unvisited index start visited) (other : poolIndex (start + visited) ≠ index) :
    Unvisited index start (visited + 1) := by
  intro offset bound
  rcases Nat.lt_succ_iff_lt_or_eq.mp bound with before | rfl
  · exact unvisited offset before
  · exact other

theorem not_unvisited (index start : Fin POOL_COUNT) : ¬ Unvisited index start POOL_COUNT := by
  intro unvisited
  obtain ⟨offset, bound, same⟩ := exists_poolIndex start index
  exact unvisited offset bound same

/-! ## Loops over the pools -/

section Loop

variable {ι : Type u} [DecidableEq ι] {selectCURLCertPath : Text} {hash : ι → Fin POOL_COUNT}

/-- A loop over the pools: where a thread is in it, and what is reported when it ends
without success.  A pool that would serve it is not passed over. -/
structure Loop (selectCURLCertPath : Text) (hash : ι → Fin POOL_COUNT)
    (position : Stage → Option (Fin POOL_COUNT × Nat)) (ends : Event → Prop)
    (serves : Shared → Fin POOL_COUNT → Prop) : Prop where
  moves : ∀ thread shared control choice shared' control' events notify start visited,
    program selectCURLCertPath hash thread shared control choice =
        some (.advance shared' control' events notify) →
      position control'.stage = some (start, visited) →
        visited = 0 ∨ ∃ before, visited = before + 1 ∧
          position control.stage = some (start, before) ∧
          ¬ serves shared (poolIndex (start + before))
  reports : ∀ thread shared control choice shared' control' events notify event,
    program selectCURLCertPath hash thread shared control choice =
        some (.advance shared' control' events notify) →
      event ∈ events → ends event → ∃ start, position control.stage = some (start, POOL_COUNT)

/-- While one pool would serve it all the time, a loop that begins does not end
without success. -/
theorem Loop.never_ends {position : Stage → Option (Fin POOL_COUNT × Nat)} {ends : Event → Prop}
    {serves : Shared → Fin POOL_COUNT → Prop}
    (loop : Loop selectCURLCertPath hash position ends serves) (index : Fin POOL_COUNT)
    {world final : World ι Shared Control Event} {thread : ι}
    (outside : position (world.control thread).stage = none)
    (run : RunWhere (program selectCURLCertPath hash)
      (fun world _ => serves world.shared index) world final) :
    ∃ entries, final.trace = world.trace ++ entries ∧
      ∀ event, ends event → (thread, event) ∉ entries := by
  have kept := run.invariant
    (motive := fun reached => (∃ entries, reached.trace = world.trace ++ entries ∧
        ∀ event, ends event → (thread, event) ∉ entries) ∧
      ∀ start visited, position (reached.control thread).stage = some (start, visited) →
        Unvisited index start visited) ?_ ⟨⟨[], by simp, by simp⟩, ?_⟩
  · exact kept.1
  · rintro reached next mover choice ⟨⟨entries, appended, quiet⟩, unvisited⟩ serving stepped
    obtain ⟨_, ⟨_, rfl⟩ | ⟨shared, control, events, notify, advances, rfl⟩⟩ := step_cases stepped
    · exact ⟨⟨entries, appended, quiet⟩, unvisited⟩
    · constructor
      · refine ⟨entries ++ events.map fun event => (mover, event), ?_, ?_⟩
        · simp [World.advance, appended]
        · intro event isEnd member
          rcases List.mem_append.mp member with before | new
          · exact quiet event isEnd before
          · obtain ⟨emitted, reported, same⟩ := List.mem_map.mp new
            cases same
            obtain ⟨start, atEnd⟩ := loop.reports _ _ _ _ _ _ _ _ _ advances reported isEnd
            exact not_unvisited index start (unvisited start POOL_COUNT atEnd)
      · intro start visited here
        by_cases same : thread = mover
        · subst same
          have there : position control.stage = some (start, visited) := by
            simpa [World.advance] using here
          rcases loop.moves _ _ _ _ _ _ _ _ _ _ advances there with
            rfl | ⟨before, rfl, was, passes⟩
          · exact fun offset impossible => by contradiction
          · apply unvisited_succ (unvisited start before was)
            rintro rfl
            exact passes serving
        · exact unvisited start visited (by simpa [World.advance, same] using here)
  · intro start visited inside
    rw [outside] at inside
    contradiction

end Loop

/-! ## What a step of the program visits -/

def Stage.visited : Stage → Nat
  | .finding _ _ visited | .storing _ _ visited => visited
  | .running | .sending _ _ _ | .answered _ _ | .clearing _ => 0

/-- A loop begins at its first pool and goes on past a pool that does not serve it. -/
inductive Visits (shared : Shared) : Stage → Stage → Prop
  | fresh {stage here : Stage} (first : here.visited = 0) : Visits shared stage here
  | find {finder : Finder} {start : Fin POOL_COUNT} {visited : Nat}
      (misses : shared.cache.take (poolIndex (start + visited)) finder.protoHostPort = none) :
      Visits shared (.finding finder start visited) (.finding finder start (visited + 1))
  | store {client : HTTPFSCurlClient} {start : Fin POOL_COUNT} {visited : Nat}
      (full : shared.cache.place (poolIndex (start + visited)) client = none) :
      Visits shared (.storing client start visited) (.storing client start (visited + 1))

/-- A failure is reported by a loop that has visited all pools. -/
def Stage.Reports : Stage → Event → Prop
  | .finding finder _ visited, .cacheMiss protoHostPort =>
      protoHostPort = finder.protoHostPort ∧
        (protoHostPort.isEmpty = true ∨ visited = POOL_COUNT)
  | .storing _ _ visited, .evicted _ => visited = POOL_COUNT
  | _, .cacheHit _ | _, .performed _ _ _ => True
  | _, _ => False

def StepVisits (shared : Shared) (stage : Stage) (result : StepResult) : Prop :=
  ∀ after control events notify, result = some (.advance after control events notify) →
    Visits shared stage control.stage ∧ ∀ event ∈ events, stage.Reports event

section Steps

variable {shared : Shared} {control : Control} {stage : Stage} {finder : Finder}
  {client : HTTPFSCurlClient} {lease : Lease} {start : Fin POOL_COUNT} {visited : Nat}
  {selectCURLCertPath : Text}

theorem stepVisits_proceed {result : Shared × Stage} {events : List Event}
    (visits : Visits shared stage result.2) (reports : ∀ event ∈ events, stage.Reports event) :
    StepVisits shared stage (proceed control result events) := by
  intro next here emitted notify eq
  cases eq
  exact ⟨visits, reports⟩

theorem stepVisits_touched {index : Fin POOL_COUNT} {result : Shared × Stage}
    {events : List Event} (visits : Visits shared stage result.2)
    (reports : ∀ event ∈ events, stage.Reports event) :
    StepVisits shared stage (touched index result events) := by
  intro next here emitted notify eq
  cases eq
  exact ⟨visits, reports⟩

theorem visited_deliver (shared : Shared) (finder : Finder) (client : HTTPFSCurlClient) :
    (shared.deliver finder client).2.visited = 0 := by
  cases finder with
  | initializeClient | cachingSendRequest | sendRequest => rfl

theorem visited_initializeClient (shared : Shared) (finder : Finder) (start : Fin POOL_COUNT) :
    (shared.initializeClient selectCURLCertPath finder start).2.visited = 0 := by
  unfold Shared.initializeClient
  split
  · rfl
  · exact visited_deliver _ _ _

theorem visited_missed (shared : Shared) (finder : Finder) (start : Fin POOL_COUNT) :
    (shared.missed selectCURLCertPath finder start).2.visited = 0 := by
  cases finder with
  | cachingSendRequest => exact visited_initializeClient _ _ _
  | initializeClient | sendRequest => exact visited_deliver _ _ _

theorem visited_store (client : HTTPFSCurlClient) (start : Fin POOL_COUNT) :
    (Shared.store client start).visited = 0 := by
  unfold Shared.store
  split <;> rfl

theorem begin_visits (operation : Operation) :
    StepVisits shared .running (begin selectCURLCertPath shared control start operation) := by
  have silent : ∀ event ∈ ([] : List Event), Stage.running.Reports event := by simp
  cases operation with
  | initializeClient params protoHostPort =>
      exact stepVisits_proceed (.fresh (visited_initializeClient _ _ _)) silent
  | sendRequest request handle =>
      cases handle with
      | none =>
          simp only [begin]
          split
          · exact stepVisits_proceed (.fresh rfl) silent
          · exact stepVisits_proceed (.fresh (visited_initializeClient _ _ _)) silent
      | some handle =>
          simp only [begin]
          cases shared.leases.get handle with
          | none => exact fun _ _ _ _ eq => by contradiction
          | some lease => exact stepVisits_proceed (.fresh rfl) silent
  | closeClient handle =>
      simp only [begin]
      cases shared.leases.get handle with
      | none => exact fun _ _ _ _ eq => by contradiction
      | some lease =>
          refine stepVisits_proceed (.fresh ?_) silent
          dsimp only
          split
          · exact visited_store _ _
          · rfl
  | reconfigure handle | destroy handle =>
      simp only [begin]
      cases shared.leases.get handle with
      | none => exact fun _ _ _ _ eq => by contradiction
      | some lease => exact stepVisits_proceed (.fresh rfl) silent
  | clearCachedConnections | setCaching => exact stepVisits_proceed (.fresh rfl) silent

theorem find_visits (throws : Bool) :
    StepVisits shared (.finding finder start visited)
      (find selectCURLCertPath shared control finder start visited throws) := by
  unfold find
  split
  · rename_i ended
    apply stepVisits_proceed
    · apply Visits.fresh
      split
      · rfl
      · exact visited_missed _ _ _
    · intro event member
      rw [List.mem_singleton] at member
      subst member
      refine ⟨rfl, ?_⟩
      simpa using ended
  · dsimp only
    split
    · apply stepVisits_touched
      · apply Visits.fresh
        split
        · rfl
        · exact visited_deliver _ _ _
      · intro event member
        rw [List.mem_singleton] at member
        subst member
        trivial
    · rename_i misses
      exact stepVisits_proceed (.find misses) (by simp)

theorem finishSending_visits (attempt : Sending) (throws retry : Bool) :
    StepVisits shared (.answered attempt lease)
      (finishSending selectCURLCertPath shared control start attempt lease throws retry) := by
  unfold finishSending
  split
  · exact stepVisits_proceed (.fresh rfl) (by simp)
  · split
    · exact stepVisits_proceed (.fresh (visited_initializeClient _ _ _)) (by simp)
    · split
      · exact stepVisits_proceed (.fresh (visited_store _ _)) (by simp)
      · exact stepVisits_proceed (.fresh rfl) (by simp)

theorem place_visits (slot : Fin POOL_SIZE) :
    StepVisits shared (.storing client start visited)
      (place shared control client start visited slot) := by
  unfold place
  split
  · rename_i all
    refine stepVisits_proceed (.fresh rfl) ?_
    intro event member
    obtain ⟨evicted, _, rfl⟩ := List.mem_map.mp member
    exact all
  · dsimp only
    split
    · exact stepVisits_touched (.fresh rfl) (by simp)
    · rename_i full
      exact stepVisits_proceed (.store full) (by simp)

theorem clear_visits : StepVisits shared (.clearing visited) (clear shared control visited) := by
  unfold clear
  split
  · exact stepVisits_proceed (.fresh rfl) (by simp)
  · exact stepVisits_proceed (.fresh rfl) (by simp)

theorem program_visits {ι : Type u} (hash : ι → Fin POOL_COUNT) {thread : ι} {choice : Choice} :
    StepVisits shared control.stage
      (program selectCURLCertPath hash thread shared control choice) := by
  unfold program
  dsimp only
  cases control.stage with
  | running => exact begin_visits _
  | finding finder start visited => exact find_visits _
  | sending attempt lease provided =>
      apply stepVisits_proceed (.fresh rfl)
      intro event member
      rw [List.mem_singleton] at member
      subst member
      trivial
  | answered attempt lease => exact finishSending_visits _ _ _
  | storing client start visited => exact place_visits _
  | clearing visited => exact clear_visits

end Steps

/-! ## Find and Store -/

section Results

variable {ι : Type u} [DecidableEq ι]

/-- A pool has a client that is connected to the server. -/
def Holds (baseUrl : Text) (shared : Shared) (index : Fin POOL_COUNT) : Prop :=
  ∃ slot client, shared.cache index slot = some client ∧ client.baseUrl = baseUrl

/-- A pool has an empty slot. -/
def HasRoom (shared : Shared) (index : Fin POOL_COUNT) : Prop :=
  ∃ slot, shared.cache index slot = none

def findPosition (baseUrl : Text) : Stage → Option (Fin POOL_COUNT × Nat)
  | .finding finder start visited =>
      if finder.protoHostPort = baseUrl then some (start, visited) else none
  | _ => none

def storePosition : Stage → Option (Fin POOL_COUNT × Nat)
  | .storing _ start visited => some (start, visited)
  | _ => none

variable {selectCURLCertPath : Text} {hash : ι → Fin POOL_COUNT} {baseUrl : Text}

omit [DecidableEq ι] in
theorem find_loop (named : baseUrl.isEmpty = false) :
    Loop selectCURLCertPath hash (findPosition baseUrl) (fun event => event = .cacheMiss baseUrl)
      (Holds baseUrl) where
  moves := by
    intro thread shared control choice shared' control' events notify start visited advances here
    have visits := (program_visits hash _ _ _ _ advances).1
    cases stage' : control'.stage with
    | finding finder start' visited' =>
        rw [stage', findPosition] at here
        split at here
        · rename_i same
          cases here
          rw [stage'] at visits
          generalize control.stage = stage at visits ⊢
          cases visits with
          | fresh first => exact Or.inl first
          | find misses =>
              refine Or.inr ⟨_, rfl, if_pos same, ?_⟩
              rintro ⟨slot, client, stored, fits⟩
              exact Cache.take_eq_none misses stored (fits.trans same.symm)
        · contradiction
    | running | sending | answered | storing | clearing =>
        rw [stage'] at here
        contradiction
  reports := by
    rintro thread shared control choice shared' control' events notify _ advances reported rfl
    have reports := (program_visits hash _ _ _ _ advances).2 _ reported
    cases stage : control.stage with
    | finding finder start visited =>
        rw [stage] at reports
        obtain ⟨same, unnamed | all⟩ := reports
        · rw [named] at unnamed
          contradiction
        · exact ⟨start, by rw [findPosition, if_pos same.symm, all]⟩
    | running | sending | answered | storing | clearing =>
        rw [stage] at reports
        contradiction

omit [DecidableEq ι] in
theorem store_loop :
    Loop selectCURLCertPath hash storePosition (fun event => ∃ client, event = .evicted client)
      HasRoom where
  moves := by
    intro thread shared control choice shared' control' events notify start visited advances here
    have visits := (program_visits hash _ _ _ _ advances).1
    cases stage' : control'.stage with
    | storing client start' visited' =>
        rw [stage'] at here visits
        cases here
        generalize control.stage = stage at visits ⊢
        cases visits with
        | fresh first => exact Or.inl first
        | store full =>
            refine Or.inr ⟨_, rfl, rfl, ?_⟩
            rintro ⟨slot, empty⟩
            exact Cache.place_eq_none full empty
    | running | sending | answered | finding | clearing =>
        rw [stage'] at here
        contradiction
  reports := by
    rintro thread shared control choice shared' control' events notify _ advances reported
      ⟨evicted, rfl⟩
    have reports := (program_visits hash _ _ _ _ advances).2 _ reported
    cases stage : control.stage with
    | storing client start visited =>
        rw [stage] at reports
        cases reports
        exact ⟨start, rfl⟩
    | running | sending | answered | finding | clearing =>
        rw [stage] at reports
        contradiction

/-- A `Find` does not miss a client that is in a pool for as long as it searches,
whatever the other threads take, store, evict or clear meanwhile. -/
theorem find_never_misses (selectCURLCertPath : Text) (hash : ι → Fin POOL_COUNT)
    {world final : World ι Shared Control Event} {thread : ι} (baseUrl : Text)
    (index : Fin POOL_COUNT) (named : baseUrl.isEmpty = false)
    (outside : findPosition baseUrl (world.control thread).stage = none)
    (run : RunWhere (program selectCURLCertPath hash)
      (fun world _ => Holds baseUrl world.shared index) world final) :
    ∃ entries, final.trace = world.trace ++ entries ∧
      (thread, .cacheMiss baseUrl) ∉ entries := by
  obtain ⟨entries, appended, quiet⟩ := (find_loop named).never_ends index outside run
  exact ⟨entries, appended, quiet _ rfl⟩

/-- A `Store` evicts no client while a pool has an empty slot all the time. -/
theorem store_never_evicts (selectCURLCertPath : Text) (hash : ι → Fin POOL_COUNT)
    {world final : World ι Shared Control Event} {thread : ι} (index : Fin POOL_COUNT)
    (outside : storePosition (world.control thread).stage = none)
    (run : RunWhere (program selectCURLCertPath hash)
      (fun world _ => HasRoom world.shared index) world final) :
    ∃ entries, final.trace = world.trace ++ entries ∧
      ∀ client, (thread, .evicted client) ∉ entries := by
  obtain ⟨entries, appended, quiet⟩ := store_loop.never_ends index outside run
  exact ⟨entries, appended, fun client => quiet _ ⟨client, rfl⟩⟩

end Results

theorem find_never_misses_handedOver :
    ∃ entries,
      (play twoThreads parkedClient [(.reader, goOn (.sendRequest (tokenRequest ['b']) none)),
        (.reader, goOn .clearCachedConnections)]).trace = parkedClient.trace ++ entries ∧
      (.reader, .cacheMiss ['h']) ∉ entries := by
  have begins : Next twoThreads (fun world _ => Holds ['h'] world.shared (poolIndex 0))
      parkedClient (play twoThreads parkedClient
        [(.reader, goOn (.sendRequest (tokenRequest ['b']) none))]) :=
    ⟨.reader, goOn (.sendRequest (tokenRequest ['b']) none), ⟨⟨0, by decide⟩, _, rfl, rfl⟩, rfl⟩
  have finds : Next twoThreads (fun world _ => Holds ['h'] world.shared (poolIndex 0))
      (play twoThreads parkedClient [(.reader, goOn (.sendRequest (tokenRequest ['b']) none))])
      (play twoThreads parkedClient [(.reader, goOn (.sendRequest (tokenRequest ['b']) none)),
        (.reader, goOn .clearCachedConnections)]) :=
    ⟨.reader, goOn .clearCachedConnections, ⟨⟨0, by decide⟩, _, rfl, rfl⟩, rfl⟩
  exact find_never_misses [] (fun _ => poolIndex 0) ['h'] (poolIndex 0) rfl rfl
    ((Relation.ReflTransGen.single begins).tail finds)

theorem store_never_evicts_parkedClient :
    ∃ entries, parkedClient.trace = leasedClient.trace ++ entries ∧
      ∀ client, (.lister, .evicted client) ∉ entries := by
  have closes : Next twoThreads (fun world _ => HasRoom world.shared (poolIndex 1)) leasedClient
      (play twoThreads leasedClient [(.lister, goOn (.closeClient 0))]) :=
    ⟨.lister, goOn (.closeClient 0), ⟨⟨0, by decide⟩, rfl⟩, rfl⟩
  have stores : Next twoThreads (fun world _ => HasRoom world.shared (poolIndex 1))
      (play twoThreads leasedClient [(.lister, goOn (.closeClient 0))]) parkedClient :=
    ⟨.lister, goOn .clearCachedConnections, ⟨⟨0, by decide⟩, rfl⟩, rfl⟩
  exact store_never_evicts [] (fun _ => poolIndex 0) (poolIndex 1) rfl
    ((Relation.ReflTransGen.single closes).tail stores)

end Httpfs.Http.ConnectionCache
