import Httpfs.S3.Refresh.Material

/-!
# The phases of a refresh

Calls that hold the material the store had at the start ask the provider once:
whoever takes the lock first stores the new material, and everyone after that
reads it.  A reload before the lock must not read its two halves from two stores;
one whose second half is new would come back with old authentication parameters.
-/

namespace Httpfs.S3.Refresh

open Http Text
open Httpfs.S3.Session
open Httpfs.Transition
open Httpfs.Transition.Monitor

universe u

/-! ## The lock -/

def Stage.holdsLock : Stage → Bool
  | .unlocked => false
  | .locked | .refreshed => true

def Control.holdsLock : Control → Bool
  | .readAuthParams stage | .readHttpParams stage _ => stage.holdsLock
  | .refreshSecret _ _ => true
  | .called | .lock | .returned _ _ | .threw => false

variable {ι : Type u}

/-- The calls in their critical sections hold the lock. -/
def Exclusive (world : World ι (RefreshState ι) Control Event) : Prop :=
  ∀ thread, (world.control thread).holdsLock = true ↔
    world.shared.credentialRefreshMutex = some thread

theorem release_mutex (state : RefreshState ι) (stage : Stage) :
    (state.release stage).credentialRefreshMutex =
      if stage.holdsLock then none else state.credentialRefreshMutex := by
  cases stage with
  | unlocked => rfl
  | locked => rfl
  | refreshed => rfl

theorem release_store (state : RefreshState ι) (stage : Stage) :
    (state.release stage).store = state.store := by
  cases stage with
  | unlocked => rfl
  | locked => rfl
  | refreshed => rfl

section Steps

variable {decode : Text → Text} {call : RefreshCall} {thread : ι} {choice : Choice}
  {state next : RefreshState ι} {pc here : Control} {events : List Event}

/-- A step takes the lock for its own thread or gives up its own. -/
theorem Transition.exclusive (steps : Transition decode call thread choice state pc next here events)
    (holds : pc.holdsLock = true ↔ state.credentialRefreshMutex = some thread) :
    (here.holdsLock = true ↔ next.credentialRefreshMutex = some thread) ∧
      ∀ other, other ≠ thread →
        (next.credentialRefreshMutex = some other ↔ state.credentialRefreshMutex = some other) := by
  have released (stage : Stage) (isStage : pc.holdsLock = stage.holdsLock) :
      (false = true ↔ (state.release stage).credentialRefreshMutex = some thread) ∧
        ∀ other, other ≠ thread →
          ((state.release stage).credentialRefreshMutex = some other ↔
            state.credentialRefreshMutex = some other) := by
    rw [release_mutex]
    cases locked : stage.holdsLock with
    | false =>
        rw [isStage, locked] at holds
        exact ⟨holds, fun _ _ => Iff.rfl⟩
    | true =>
        have own := holds.mp (isStage.trans locked)
        rw [if_pos rfl, own]
        refine ⟨by simp, fun other different => ?_⟩
        simp [different.symm]
  induction steps with
  | begin | readAuthParams reads | unchanged reads same => exact ⟨holds, fun _ _ => Iff.rfl⟩
  | stillUnchanged reads same | refreshed | skipped answers | stored answers =>
      exact ⟨holds, fun _ _ => Iff.rfl⟩
  | authParamsThrew fails | httpParamsThrew fails | reloaded reads changed => exact released _ rfl
  | nothingNew reads same => exact released .refreshed rfl
  | notRefreshed | failed answers => exact released .locked rfl
  | lock free =>
      refine ⟨by simp [Control.holdsLock, Stage.holdsLock], fun other different => ?_⟩
      simp [free, different.symm]

end Steps

/-! ## Before and after the new material is stored -/

/-- Where a call can be while the store is as it was. -/
def Control.Untouched (refreshable : SecretType) (call : RefreshCall) : Control → Prop
  | .called | .lock => True
  | .readAuthParams stage => stage ≠ .refreshed
  | .readHttpParams stage reloadedAuthParams =>
      stage ≠ .refreshed ∧ reloadedAuthParams = call.material.authParams
  | .refreshSecret remaining refreshedSecret =>
      refreshedSecret = false ∧ refreshable ∈ remaining ∧ remaining.Nodup
  | .returned _ _ | .threw => False

/-- Where a call can be once the store has something new. -/
def Control.Renewing (refreshable : SecretType) (decode : Text → Text) (store : SecretStore)
    (call : RefreshCall) : Control → Prop
  | .called | .lock | .readAuthParams _ => True
  | .readHttpParams stage reloadedAuthParams =>
      call.reloadAuthParams (store.readS3AuthParams decode call.path) = .ok reloadedAuthParams ∨
        stage = .unlocked ∧ reloadedAuthParams = call.material.authParams
  | .refreshSecret remaining refreshedSecret =>
      refreshedSecret = true ∧ refreshable ∉ remaining
  | .returned result renewed => result = true ∧ Renewed decode store call renewed
  | .threw => False

def Control.atProvider : Control → Bool
  | .refreshSecret _ _ => true
  | _ => false

/-- The provider of the one refreshable secret stores what is wanted; the secrets
of the other types are not refreshed. -/
def ProviderAnswers (refreshable : SecretType) (wanted : SecretStore → Prop) (pc : Control)
    (choice : Choice) : Prop :=
  ∀ type remaining refreshedSecret, pc = .refreshSecret (type :: remaining) refreshedSecret →
    if type = refreshable then ∃ store, wanted store ∧ choice = .answer (.stored store)
    else choice = .answer .noMatch ∨ choice = .answer .notRefreshable

section Answers

variable {refreshable type : SecretType} {wanted : SecretStore → Prop}
  {remaining : List SecretType} {refreshedSecret : Bool} {choice : Choice}

theorem ProviderAnswers.ne_failed
    (answers : ProviderAnswers refreshable wanted (.refreshSecret (type :: remaining) refreshedSecret)
      choice) : choice ≠ .answer .failed := by
  rintro rfl
  have answer := answers type remaining refreshedSecret rfl
  split at answer
  · rcases answer with ⟨store, -, stores⟩
    cases stores
  · rcases answer with skips | skips
    · cases skips
    · cases skips

theorem ProviderAnswers.ne_of_skipped
    (answers : ProviderAnswers refreshable wanted (.refreshSecret (type :: remaining) refreshedSecret)
      choice) (skips : choice = .answer .noMatch ∨ choice = .answer .notRefreshable) :
    type ≠ refreshable := by
  intro isType
  have answer := answers type remaining refreshedSecret rfl
  rw [if_pos isType] at answer
  rcases answer with ⟨store, -, rfl⟩
  rcases skips with skips | skips
  · cases skips
  · cases skips

theorem ProviderAnswers.of_stored
    (answers : ProviderAnswers refreshable wanted (.refreshSecret (type :: remaining) refreshedSecret)
      choice) {store : SecretStore} (stores : choice = .answer (.stored store)) :
    type = refreshable ∧ wanted store := by
  subst stores
  have answer := answers type remaining refreshedSecret rfl
  split at answer
  · rename_i isType
    rcases answer with ⟨same, isWanted, eq⟩
    cases eq
    exact ⟨isType, isWanted⟩
  · rcases answer with skips | skips
    · cases skips
    · cases skips

end Answers

/-- The second half of a reload before the lock finds the store of the first half,
or HTTP parameters that have not changed. -/
def Untorn (decode : Text → Text) (store : SecretStore) (call : RefreshCall) (pc : Control) :
    Prop :=
  ∀ reloadedAuthParams, pc = .readHttpParams .unlocked reloadedAuthParams →
    call.reloadAuthParams (store.readS3AuthParams decode call.path) = .ok reloadedAuthParams ∨
      ∃ read, store.readRefreshableHTTPParams call.path = .ok read ∧
        read.same (.ofParams call.material.httpParams) = true

section Steps

variable {decode : Text → Text} {call : RefreshCall} {thread : ι} {choice : Choice}
  {state next : RefreshState ι} {pc here : Control} {events : List Event}
  {refreshable : SecretType} {wanted : SecretStore → Prop}

/-- While the store is as it was, a call finds nothing new, asks the provider
behind the lock, and there comes to the secret that can be refreshed. -/
theorem Transition.untouched
    (steps : Transition decode call thread choice state pc next here events)
    (holds : Holds decode state.store call) (before : pc.Untouched refreshable call)
    (answers : ProviderAnswers refreshable wanted pc choice) :
    (next.store = state.store ∧ here.Untouched refreshable call ∧
      ((events = [] ∧ here.atProvider = pc.atProvider) ∨
        (events = [.refreshSecretForPath] ∧ pc.holdsLock = true ∧ pc.atProvider = false ∧
          here.atProvider = true))) ∨
    (wanted next.store ∧ pc.atProvider = true ∧ events = [] ∧
      ∃ remaining, here = .refreshSecret remaining true ∧ refreshable ∉ remaining) := by
  rcases holds.httpParams with ⟨readHttp, readsHttp, sameHttp⟩
  induction steps with
  | begin => exact .inl ⟨rfl, nofun, .inl ⟨rfl, rfl⟩⟩
  | authParamsThrew fails =>
      rw [holds.reloadAuthParams] at fails
      contradiction
  | readAuthParams reads =>
      rw [holds.reloadAuthParams] at reads
      exact .inl ⟨rfl, ⟨before, (Except.ok.inj reads).symm⟩, .inl ⟨rfl, rfl⟩⟩
  | httpParamsThrew fails =>
      rw [readsHttp] at fails
      contradiction
  | reloaded reads changed =>
      rcases before with ⟨-, same⟩
      rw [readsHttp] at reads
      cases reads
      rw [compareMaterial_eq_none.mpr ⟨same, sameHttp⟩] at changed
      contradiction
  | unchanged reads same => exact .inl ⟨rfl, trivial, .inl ⟨rfl, rfl⟩⟩
  | stillUnchanged reads same =>
      refine .inl ⟨rfl, ⟨rfl, ?_, by decide⟩, .inr ⟨rfl, rfl, rfl, rfl⟩⟩
      cases refreshable with
      | s3 | r2 | gcs | aws => decide
  | nothingNew reads same => exact absurd rfl before.1
  | lock free => exact .inl ⟨rfl, nofun, .inl ⟨rfl, rfl⟩⟩
  | notRefreshed => exact absurd before.2.1 List.not_mem_nil
  | refreshed => exact absurd before.1 Bool.noConfusion
  | skipped skips =>
      rcases before with ⟨notYet, member, distinct⟩
      have still := (List.mem_cons.mp member).resolve_left (answers.ne_of_skipped skips).symm
      exact .inl ⟨rfl, ⟨notYet, still, (List.nodup_cons.mp distinct).2⟩, .inl ⟨rfl, rfl⟩⟩
  | failed fails => exact absurd fails answers.ne_failed
  | @stored type remaining refreshedSecret store stores =>
      rcases answers.of_stored stores with ⟨isType, isWanted⟩
      refine .inr ⟨isWanted, rfl, rfl, remaining, rfl, ?_⟩
      rw [← isType]
      exact (List.nodup_cons.mp before.2.2).1

/-- Once the store has something new, a call comes back with it and leaves the
provider alone. -/
theorem Transition.renewing
    (steps : Transition decode call thread choice state pc next here events)
    (differs : Differs decode state.store call)
    (after : pc.Renewing refreshable decode state.store call)
    (answers : ProviderAnswers refreshable wanted pc choice)
    (untorn : Untorn decode state.store call pc) :
    next.store = state.store ∧ here.Renewing refreshable decode state.store call ∧
      events = [] := by
  rcases differs.reload with
    ⟨newAuthParams, readsAuth, newHttpParams, readsHttp, changed, renews⟩
  induction steps with
  | begin | lock free => exact ⟨rfl, trivial, rfl⟩
  | authParamsThrew fails =>
      rw [readsAuth] at fails
      contradiction
  | readAuthParams reads => exact ⟨rfl, .inl reads, rfl⟩
  | httpParamsThrew fails =>
      rw [readsHttp] at fails
      contradiction
  | @reloaded stage reloadedAuthParams reloadedHttpParams reloaded reads compares =>
      refine ⟨release_store _ _, ⟨rfl, ?_⟩, rfl⟩
      rw [readsHttp] at reads
      cases reads
      have isNew : reloadedAuthParams = newAuthParams := by
        rcases after with new | ⟨isUnlocked, old⟩
        · rw [readsAuth] at new
          exact (Except.ok.inj new).symm
        · rw [isUnlocked] at untorn
          rcases untorn reloadedAuthParams rfl with new | ⟨read, readsAgain, same⟩
          · rw [readsAuth] at new
            exact (Except.ok.inj new).symm
          · -- With both halves as before nothing was reloaded.
            rw [readsHttp] at readsAgain
            cases readsAgain
            rw [compareMaterial_eq_none.mpr ⟨old, same⟩] at compares
            contradiction
      rw [isNew] at compares
      exact renews reloaded compares
  | unchanged reads same => exact ⟨rfl, trivial, rfl⟩
  | stillUnchanged reads same =>
      rcases after with new | ⟨isUnlocked, -⟩
      · rw [readsAuth] at new
        rw [readsHttp] at reads
        cases new
        cases reads
        exact absurd same changed
      · contradiction
  | nothingNew reads same =>
      rcases after with new | ⟨isUnlocked, -⟩
      · rw [readsAuth] at new
        rw [readsHttp] at reads
        cases new
        cases reads
        exact absurd same changed
      · contradiction
  | notRefreshed => exact absurd after.1 Bool.noConfusion
  | refreshed => exact ⟨rfl, trivial, rfl⟩
  | skipped skips =>
      exact ⟨rfl, ⟨after.1, fun member => after.2 (List.mem_cons_of_mem _ member)⟩, rfl⟩
  | failed fails => exact absurd fails answers.ne_failed
  | stored stores =>
      exfalso
      apply after.2
      rw [(answers.of_stored stores).1]
      exact List.mem_cons_self

end Steps

/-! ## Whole runs -/

section Runs

variable [DecidableEq ι] {decode : Text → Text} {calls : ι → RefreshCall} {store : SecretStore}
  {refreshable : SecretType} {world next : World ι (RefreshState ι) Control Event}
  {thread : ι} {choice : Choice}

/-- The store has something new for every call. -/
def DiffersForAll (decode : Text → Text) (calls : ι → RefreshCall) (store : SecretStore) : Prop :=
  ∀ thread, Differs decode store (calls thread)

/-- The first invocation of the provider stores something new. -/
def ProviderRefreshes (decode : Text → Text) (calls : ι → RefreshCall) (refreshable : SecretType)
    (world : World ι (RefreshState ι) Control Event) (thread : ι) (choice : Choice) : Prop :=
  world.events.length ≤ 1 →
    ProviderAnswers refreshable (DiffersForAll decode calls) (world.control thread) choice

/-- The choices of runs with one refreshable secret and no torn reload. -/
def Refreshes (decode : Text → Text) (calls : ι → RefreshCall) (refreshable : SecretType)
    (world : World ι (RefreshState ι) Control Event) (thread : ι) (choice : Choice) : Prop :=
  ProviderRefreshes decode calls refreshable world thread choice ∧
    Untorn decode world.shared.store (calls thread) (world.control thread)

/-- The world while the store is as it was. -/
structure Before (store : SecretStore) (refreshable : SecretType) (calls : ι → RefreshCall)
    (world : World ι (RefreshState ι) Control Event) : Prop where
  store_eq : world.shared.store = store
  untouched : ∀ thread, (world.control thread).Untouched refreshable (calls thread)
  invoked : world.events = [] ∧ (∀ thread, (world.control thread).atProvider = false) ∨
    world.events = [.refreshSecretForPath] ∧ ∃ thread, (world.control thread).atProvider = true

/-- The world once the store has something new. -/
structure After (decode : Text → Text) (refreshable : SecretType) (calls : ι → RefreshCall)
    (world : World ι (RefreshState ι) Control Event) : Prop where
  differs : DiffersForAll decode calls world.shared.store
  renewing : ∀ thread,
    (world.control thread).Renewing refreshable decode world.shared.store (calls thread)
  invoked : world.events = [.refreshSecretForPath]

theorem holdsLock_of_atProvider {pc : Control} (provider : pc.atProvider = true) :
    pc.holdsLock = true := by
  cases pc with
  | refreshSecret remaining refreshedSecret => rfl
  | called | readAuthParams | readHttpParams | lock | returned | threw => contradiction

/-- Every step is an advance of one call. -/
theorem advance_of_step (admitted : ∀ thread, (calls thread).Admitted)
    (stepped : step (refreshStep decode calls) world thread choice = some next) :
    ∃ shared here events, next = world.advance thread shared here events false ∧
      Transition decode (calls thread) thread choice world.shared (world.control thread) shared here
        events := by
  rcases step_cases stepped with ⟨-, ⟨waits, -⟩ | ⟨shared, here, events, notify, advances, rfl⟩⟩
  · rcases refreshStep_cases (admitted thread) waits with ⟨_, _, _, isAdvance, _⟩
    contradiction
  · rcases refreshStep_cases (admitted thread) advances with ⟨_, _, _, isAdvance, steps⟩
    cases isAdvance
    exact ⟨shared, here, events, rfl, steps⟩

theorem Exclusive.step (admitted : ∀ thread, (calls thread).Admitted) (exclusive : Exclusive world)
    (stepped : Monitor.step (refreshStep decode calls) world thread choice = some next) :
    Exclusive next := by
  rcases advance_of_step admitted stepped with ⟨shared, here, events, rfl, steps⟩
  rcases steps.exclusive (exclusive thread) with ⟨own, others⟩
  intro other
  by_cases same : other = thread
  · subst same
    simpa [World.advance] using own
  · have kept : (world.advance thread shared here events false).control other =
        world.control other := by
      simp [World.advance, same]
    rw [kept, exclusive other]
    exact (others other same).symm

omit [DecidableEq ι] in
/-- Two calls cannot both hold the lock. -/
theorem Exclusive.eq {first second : ι} (exclusive : Exclusive world)
    (firstHolds : (world.control first).holdsLock = true)
    (secondHolds : (world.control second).holdsLock = true) : first = second := by
  have mutex := (exclusive first).mp firstHolds
  rw [(exclusive second).mp secondHolds] at mutex
  exact (Option.some.inj mutex).symm

theorem Before.step (admitted : ∀ thread, (calls thread).Admitted)
    (holds : ∀ thread, Holds decode store (calls thread)) (exclusive : Exclusive world)
    (before : Before store refreshable calls world)
    (refreshes : ProviderRefreshes decode calls refreshable world thread choice)
    (stepped : Monitor.step (refreshStep decode calls) world thread choice = some next) :
    Before store refreshable calls next ∨ After decode refreshable calls next := by
  rcases advance_of_step admitted stepped with ⟨shared, here, events, rfl, steps⟩
  have once : world.events.length ≤ 1 := by
    rcases before.invoked with ⟨none, -⟩ | ⟨one, -⟩
    · simp [none]
    · simp [one]
  have holdsHere : Holds decode world.shared.store (calls thread) := by
    rw [before.store_eq]
    exact holds thread
  rcases steps.untouched holdsHere (before.untouched thread) (refreshes once) with
    ⟨same, untouched, invoked⟩ | ⟨differs, atProvider, silent, remaining, isHere, absent⟩
  · left
    constructor
    · exact same.trans before.store_eq
    · intro other
      by_cases isThread : other = thread
      · subst isThread
        simpa [World.advance] using untouched
      · simpa [World.advance, isThread] using before.untouched other
    · rw [World.events_advance]
      rcases invoked with ⟨silent, keeps⟩ | ⟨invokes, holdsLock, notYet, arrives⟩
      · rw [silent, List.append_nil]
        have kept (other : ι) : ((world.advance thread shared here [] false).control
            other).atProvider = (world.control other).atProvider := by
          by_cases isThread : other = thread
          · subst isThread
            simpa [World.advance] using keeps
          · simp [World.advance, isThread]
        rcases before.invoked with ⟨none, nobody⟩ | ⟨one, inside, atProvider⟩
        · exact .inl ⟨none, fun other => (kept other).trans (nobody other)⟩
        · exact .inr ⟨one, inside, (kept inside).trans atProvider⟩
      · rcases before.invoked with ⟨none, -⟩ | ⟨-, inside, atProvider⟩
        · refine .inr ⟨by rw [none, invokes]; rfl, thread, ?_⟩
          simpa [World.advance] using arrives
        · -- Nobody else can be at the provider, because this call holds the lock.
          exfalso
          have isThread := exclusive.eq (holdsLock_of_atProvider atProvider) holdsLock
          rw [isThread, notYet] at atProvider
          contradiction
  · right
    constructor
    · exact differs
    · intro other
      by_cases isThread : other = thread
      · subst isThread
        rw [isHere]
        simpa [World.advance, Control.Renewing] using absent
      · have kept : (world.advance thread shared here events false).control other =
            world.control other := by
          simp [World.advance, isThread]
        have notLocked : (world.control other).holdsLock = false := by
          rw [← Bool.not_eq_true]
          intro holdsLock
          exact isThread (exclusive.eq holdsLock (holdsLock_of_atProvider atProvider))
        rw [kept]
        have untouched := before.untouched other
        cases control : world.control other with
        | called | lock | readAuthParams stage => trivial
        | readHttpParams stage reloadedAuthParams =>
            rw [control] at untouched notLocked
            refine .inr ⟨?_, untouched.2⟩
            cases stage with
            | unlocked => rfl
            | locked | refreshed => contradiction
        | refreshSecret remaining refreshedSecret =>
            rw [control] at notLocked
            contradiction
        | returned result renewed | threw =>
            rw [control] at untouched
            exact untouched.elim
    · rw [World.events_advance, silent, List.append_nil]
      rcases before.invoked with ⟨-, nobody⟩ | ⟨one, -⟩
      · rw [nobody thread] at atProvider
        contradiction
      · exact one

theorem After.step (admitted : ∀ thread, (calls thread).Admitted)
    (after : After decode refreshable calls world)
    (refreshes : Refreshes decode calls refreshable world thread choice)
    (stepped : Monitor.step (refreshStep decode calls) world thread choice = some next) :
    After decode refreshable calls next := by
  rcases advance_of_step admitted stepped with ⟨shared, here, events, rfl, steps⟩
  rcases refreshes with ⟨answers, untorn⟩
  have once : world.events.length ≤ 1 := by simp [after.invoked]
  rcases steps.renewing (after.differs thread) (after.renewing thread) (answers once) untorn with
    ⟨same, renewing, silent⟩
  constructor
  · intro other
    change Differs decode shared.store (calls other)
    rw [same]
    exact after.differs other
  · intro other
    change Control.Renewing refreshable decode shared.store (calls other) _
    rw [same]
    by_cases isThread : other = thread
    · subst isThread
      simpa [World.advance] using renewing
    · simpa [World.advance, isThread] using after.renewing other
  · rw [World.events_advance, silent, List.append_nil]
    exact after.invoked

/-- A run is in one of the two phases. -/
theorem phases_of_run (admitted : ∀ thread, (calls thread).Admitted)
    (holds : ∀ thread, Holds decode store (calls thread))
    (run : RunChoosing (refreshStep decode calls) (Refreshes decode calls refreshable)
      (World.initial ⟨store, none⟩ .called) world) :
    Exclusive world ∧
      (Before store refreshable calls world ∨ After decode refreshable calls world) := by
  refine RunChoosing.invariant
    (motive := fun world => Exclusive world ∧
      (Before store refreshable calls world ∨ After decode refreshable calls world)) ?_ run ?_
  · rintro world next thread choice ⟨exclusive, before | after⟩ refreshes stepped
    · exact ⟨exclusive.step admitted stepped,
        before.step admitted holds exclusive refreshes.1 stepped⟩
    · exact ⟨exclusive.step admitted stepped, .inr (after.step admitted refreshes stepped)⟩
  · constructor
    · intro thread
      simp [World.initial, Control.holdsLock]
    · left
      constructor
      · rfl
      · exact fun _ => trivial
      · exact .inl ⟨rfl, fun _ => rfl⟩

end Runs

/-! ## Progress -/

/-- The steps that a call has left at most. -/
def Control.rank : Control → Nat
  | .called => 13
  | .readAuthParams .unlocked => 12
  | .readHttpParams .unlocked _ => 11
  | .lock => 10
  | .readAuthParams .locked => 9
  | .readHttpParams .locked _ => 8
  | .refreshSecret remaining _ => remaining.length + 3
  | .readAuthParams .refreshed => 2
  | .readHttpParams .refreshed _ => 1
  | .returned _ _ | .threw => 0

theorem Transition.rank_lt {decode : Text → Text} {call : RefreshCall} {thread : ι}
    {choice : Choice} {state next : RefreshState ι} {pc here : Control} {events : List Event}
    (steps : Transition decode call thread choice state pc next here events) :
    here.rank < pc.rank := by
  induction steps with
  | begin | unchanged | stillUnchanged | nothingNew | lock | notRefreshed | refreshed =>
      simp [Control.rank, secretTypes]
  | @authParamsThrew stage | @readAuthParams stage =>
      cases stage with
      | unlocked | locked | refreshed => simp [Control.rank]
  | @httpParamsThrew stage | @reloaded stage =>
      cases stage with
      | unlocked | locked | refreshed => simp [Control.rank]
  | skipped | failed | stored => simp [Control.rank]

theorem leave_isSome (state : RefreshState ι) (stage : Stage) (control : Control) :
    (leave state stage control).isSome = true := by
  rw [leave_eq]
  rfl

theorem afterReload_isSome (call : RefreshCall) (state : RefreshState ι) (stage : Stage)
    (reloaded : Option S3AuthMaterial) :
    (afterReload call state stage reloaded).isSome = true := by
  cases reloaded with
  | some reloaded => exact leave_isSome _ _ _
  | none =>
      cases stage with
      | unlocked | locked | refreshed => rfl

/-- A call that is not at its end can go on, unless it waits for the lock. -/
theorem refreshStep_isSome (decode : Text → Text) (calls : ι → RefreshCall) (thread : ι)
    (state : RefreshState ι) (pc : Control) (unfinished : 0 < pc.rank)
    (free : pc = .lock → state.credentialRefreshMutex = none) :
    ∃ choice, (refreshStep decode calls thread state pc choice).isSome = true := by
  cases pc with
  | called =>
      refine ⟨.proceed, ?_⟩
      simp only [refreshStep]
      split
      · rfl
      · rfl
  | readAuthParams stage =>
      refine ⟨.proceed, ?_⟩
      simp only [refreshStep]
      split
      · exact afterReload_isSome _ _ _ _
      · split
        · exact leave_isSome _ _ _
        · rfl
  | readHttpParams stage reloadedAuthParams =>
      refine ⟨.proceed, ?_⟩
      simp only [refreshStep]
      split
      · exact leave_isSome _ _ _
      · exact afterReload_isSome _ _ _ _
  | lock =>
      refine ⟨.proceed, ?_⟩
      simp [refreshStep, free rfl, goOn]
  | refreshSecret remaining refreshedSecret =>
      refine ⟨.answer .noMatch, ?_⟩
      cases remaining with
      | nil =>
          cases refreshedSecret with
          | false | true => rfl
      | cons type remaining => rfl
  | returned result renewed | threw => contradiction

end Httpfs.S3.Refresh
