import Httpfs.S3.Refresh.Phases
import Httpfs.Text.Percent

/-!
# One refresh for several calls

Runs without a torn reload ask the provider once, and every call returns the new
material.  A torn one is possible wherever both halves of the material change.
-/

namespace Httpfs.S3.Refresh

open Http Text
open Httpfs.S3.Session
open Httpfs.Transition
open Httpfs.Transition.Monitor

universe u

variable {ι : Type u} [DecidableEq ι]

/-! ## A call that is scheduled alone -/

/-- One call has come to a control point; the others stand where they stood. -/
structure Stands (start world : World ι (RefreshState ι) Control Event) (thread : ι)
    (state : RefreshState ι) (pc : Control) (events : List Event) : Prop where
  shared : world.shared = state
  control : world.control = Function.update start.control thread pc
  events : world.events = events
  awake : ∀ other, world.asleep other = false

section Alone

variable {decode : Text → Text} {calls : ι → RefreshCall} {refreshable : SecretType}
  {start : World ι (RefreshState ι) Control Event} {thread : ι} {store fresh : SecretStore}

variable (decode calls refreshable) in
/-- A run of one call leads there. -/
def Reaches (start : World ι (RefreshState ι) Control Event) (thread : ι)
    (state : RefreshState ι) (pc : Control) (events : List Event) : Prop :=
  ∃ world, RunChoosing (refreshStep decode calls) (Refreshes decode calls refreshable) start
    world ∧ Stands start world thread state pc events

theorem Stands.own {world : World ι (RefreshState ι) Control Event} {state : RefreshState ι}
    {pc : Control} {events : List Event} (stands : Stands start world thread state pc events) :
    world.control thread = pc := by
  rw [stands.control, Function.update_self]

theorem Reaches.step {state next : RefreshState ι} {pc here : Control}
    {events emitted : List Event}
    (reaches : Reaches decode calls refreshable start thread state pc events) {choice : Choice}
    (advances : refreshStep decode calls thread state pc choice =
      some (.advance next here emitted false))
    (answers : events.length ≤ 1 →
      ProviderAnswers refreshable (DiffersForAll decode calls) pc choice)
    (untorn : Untorn decode state.store (calls thread) pc) :
    Reaches decode calls refreshable start thread next here (events ++ emitted) := by
  rcases reaches with ⟨world, run, stands⟩
  have own := stands.own
  refine ⟨world.advance thread next here emitted false, run.tail ⟨thread, choice, ?_, ?_⟩, ?_⟩
  · constructor
    · rw [ProviderRefreshes, own, stands.events]
      exact answers
    · rw [own, stands.shared]
      exact untorn
  · apply step_of_advance (stands.awake thread)
    rw [own, stands.shared]
    exact advances
  · constructor
    · rfl
    · rw [World.advance, stands.control, Function.update_idem]
    · rw [World.events_advance, stands.events]
    · exact stands.awake

theorem providerAnswers_of_elsewhere {wanted : SecretStore → Prop} {pc : Control}
    {choice : Choice} (elsewhere : pc.atProvider = false) :
    ProviderAnswers refreshable wanted pc choice := by
  rintro type remaining refreshedSecret rfl
  contradiction

omit [DecidableEq ι] in
theorem refreshStep_readHttpParams {state : RefreshState ι} {stage : Stage}
    {reloadedAuthParams : S3AuthParams} {reloadedHttpParams : S3RefreshableHTTPParams}
    (reads : state.store.readRefreshableHTTPParams (calls thread).path = .ok reloadedHttpParams) :
    refreshStep decode calls thread state (.readHttpParams stage reloadedAuthParams) .proceed =
      afterReload (calls thread) state stage
        ((calls thread).compareMaterial reloadedAuthParams reloadedHttpParams) := by
  simp only [refreshStep, reads]

/-- The first half of a reload. -/
theorem Reaches.readAuthParams {state : RefreshState ι} {stage : Stage} {events : List Event}
    (admitted : (calls thread).Admitted)
    (reaches : Reaches decode calls refreshable start thread state (.readAuthParams stage) events)
    {reloadedAuthParams : S3AuthParams}
    (reads : (calls thread).reloadAuthParams
      (state.store.readS3AuthParams decode (calls thread).path) = .ok reloadedAuthParams) :
    Reaches decode calls refreshable start thread state
      (.readHttpParams stage reloadedAuthParams) events := by
  have advances : refreshStep decode calls thread state (.readAuthParams stage) .proceed =
      goOn state (.readHttpParams stage reloadedAuthParams) [] := by
    simp only [refreshStep, admitted.opener, reads]
    rfl
  have next := reaches.step advances (fun _ => providerAnswers_of_elsewhere rfl)
    (by rintro _ ⟨⟩)
  rwa [List.append_nil] at next

/-- The start of a call. -/
theorem Reaches.begin {state : RefreshState ι} {events : List Event}
    (admitted : (calls thread).Admitted)
    (reaches : Reaches decode calls refreshable start thread state .called events) :
    Reaches decode calls refreshable start thread state (.readAuthParams .unlocked) events := by
  have advances : refreshStep decode calls thread state .called .proceed =
      goOn state (.readAuthParams .unlocked) [] := by
    simp only [refreshStep, admitted.enabled, admitted.context]
    rfl
  have next := reaches.step advances (fun _ => providerAnswers_of_elsewhere rfl)
    (by rintro _ ⟨⟩)
  rwa [List.append_nil] at next

/-- From the provider's secret on, the new store is there. -/
theorem Reaches.stored (differs : DiffersForAll decode calls fresh) {remaining : List SecretType}
    (member : refreshable ∈ remaining) (distinct : remaining.Nodup)
    (reaches : Reaches decode calls refreshable start thread ⟨store, some thread⟩
      (.refreshSecret remaining false) [.refreshSecretForPath]) :
    ∃ rest, refreshable ∉ rest ∧ Reaches decode calls refreshable start thread
      ⟨fresh, some thread⟩ (.refreshSecret rest true) [.refreshSecretForPath] := by
  induction remaining with
  | nil => exact absurd member List.not_mem_nil
  | cons type rest inductionHypothesis =>
      rcases List.nodup_cons.mp distinct with ⟨absent, distinctRest⟩
      by_cases isType : type = refreshable
      · refine ⟨rest, isType ▸ absent, ?_⟩
        have advances : refreshStep decode calls thread ⟨store, some thread⟩
            (.refreshSecret (type :: rest) false) (.answer (.stored fresh)) =
            goOn ⟨fresh, some thread⟩ (.refreshSecret rest true) [] := rfl
        have next := reaches.step advances ?_ (by rintro _ ⟨⟩)
        · rwa [List.append_nil] at next
        · rintro - _ _ _ ⟨⟩
          rw [if_pos isType]
          exact ⟨fresh, differs, rfl⟩
      · have advances : refreshStep decode calls thread ⟨store, some thread⟩
            (.refreshSecret (type :: rest) false) (.answer .noMatch) =
            goOn ⟨store, some thread⟩ (.refreshSecret rest false) [] := rfl
        have skips := reaches.step advances ?_ (by rintro _ ⟨⟩)
        · rw [List.append_nil] at skips
          exact inductionHypothesis ((List.mem_cons.mp member).resolve_left (Ne.symm isType))
            distinctRest skips
        · rintro - _ _ _ ⟨⟩
          rw [if_neg isType]
          exact .inl rfl

/-- A call that starts while the lock is free comes to the provider and stores. -/
theorem reaches_stored (admitted : (calls thread).Admitted)
    (holds : Holds decode store (calls thread)) (differs : DiffersForAll decode calls fresh)
    (begins : Reaches decode calls refreshable start thread ⟨store, none⟩ .called []) :
    ∃ rest, refreshable ∉ rest ∧ Reaches decode calls refreshable start thread
      ⟨fresh, some thread⟩ (.refreshSecret rest true) [.refreshSecretForPath] := by
  rcases holds.httpParams with ⟨readHttp, readsHttp, sameHttp⟩
  have unchanged := compareMaterial_eq_none.mpr
    ⟨(rfl : (calls thread).material.authParams = _), sameHttp⟩
  have readFirst := (begins.begin admitted).readAuthParams admitted holds.reloadAuthParams
  have advancesToLock : refreshStep decode calls thread ⟨store, none⟩
      (.readHttpParams .unlocked (calls thread).material.authParams) .proceed =
      goOn ⟨store, none⟩ .lock [] := by
    rw [refreshStep_readHttpParams readsHttp, unchanged]
    rfl
  have waits := readFirst.step advancesToLock (fun _ => providerAnswers_of_elsewhere rfl) <| by
    rintro _ ⟨⟩
    exact .inl holds.reloadAuthParams
  have advancesLocked : refreshStep decode calls thread ⟨store, none⟩ .lock .proceed =
      goOn ⟨store, some thread⟩ (.readAuthParams .locked) [] := rfl
  have locked := waits.step advancesLocked (fun _ => providerAnswers_of_elsewhere rfl)
    (by rintro _ ⟨⟩)
  have readSecond := locked.readAuthParams admitted holds.reloadAuthParams
  have advancesToProvider : refreshStep decode calls thread ⟨store, some thread⟩
      (.readHttpParams .locked (calls thread).material.authParams) .proceed =
      goOn ⟨store, some thread⟩ (.refreshSecret secretTypes false) [.refreshSecretForPath] := by
    rw [refreshStep_readHttpParams readsHttp, unchanged]
    rfl
  have asks := readSecond.step advancesToProvider (fun _ => providerAnswers_of_elsewhere rfl)
    (by rintro _ ⟨⟩)
  refine Reaches.stored differs ?_ (by decide) asks
  cases refreshable with
  | s3 | r2 | gcs | aws => decide

/-- The secrets behind the refreshed one are passed over. -/
theorem Reaches.passed {state : RefreshState ι} {events : List Event}
    {remaining : List SecretType} (absent : refreshable ∉ remaining)
    (reaches : Reaches decode calls refreshable start thread state
      (.refreshSecret remaining true) events) :
    Reaches decode calls refreshable start thread state (.readAuthParams .refreshed) events := by
  induction remaining with
  | nil =>
      have advances : refreshStep decode calls thread state (.refreshSecret [] true) .proceed =
          goOn state (.readAuthParams .refreshed) [] := rfl
      have next := reaches.step advances ?_ (by rintro _ ⟨⟩)
      · rwa [List.append_nil] at next
      · rintro - _ _ _ ⟨⟩
  | cons type rest inductionHypothesis =>
      have advances : refreshStep decode calls thread state
          (.refreshSecret (type :: rest) true) (.answer .noMatch) =
          goOn state (.refreshSecret rest true) [] := rfl
      have next := reaches.step advances ?_ (by rintro _ ⟨⟩)
      · rw [List.append_nil] at next
        exact inductionHypothesis (fun member => absent (List.mem_cons_of_mem _ member)) next
      · rintro - _ _ _ ⟨⟩
        rw [if_neg fun isType : type = refreshable => absent (isType ▸ List.mem_cons_self)]
        exact .inl rfl

/-- A call that runs alone returns the new material. -/
theorem reaches_returned (admitted : (calls thread).Admitted)
    (holds : Holds decode store (calls thread)) (differs : DiffersForAll decode calls fresh)
    (begins : Reaches decode calls refreshable start thread ⟨store, none⟩ .called []) :
    ∃ renewed, Reaches decode calls refreshable start thread ⟨fresh, none⟩
      (.returned true renewed) [.refreshSecretForPath] := by
  rcases reaches_stored admitted holds differs begins with ⟨rest, absent, stores⟩
  rcases (differs thread).reload with ⟨newAuthParams, readsAuth, newHttpParams, readsHttp, changed, -⟩
  have readAgain := (stores.passed absent).readAuthParams admitted readsAuth
  rcases Option.ne_none_iff_exists'.mp changed with ⟨renewed, compares⟩
  have advances : refreshStep decode calls thread ⟨fresh, some thread⟩
      (.readHttpParams .refreshed newAuthParams) .proceed =
      goOn ⟨fresh, none⟩ (.returned true renewed) [] := by
    rw [refreshStep_readHttpParams readsHttp, compares]
    rfl
  have returns := readAgain.step advances (fun _ => providerAnswers_of_elsewhere rfl)
    (by rintro _ ⟨⟩)
  exact ⟨renewed, returns⟩

end Alone

theorem reaches_called (decode : Text → Text) (calls : ι → RefreshCall)
    (refreshable : SecretType) {start : World ι (RefreshState ι) Control Event} {thread : ι}
    (called : start.control thread = .called) (awake : ∀ other, start.asleep other = false) :
    Reaches decode calls refreshable start thread start.shared .called start.events := by
  refine ⟨start, Relation.ReflTransGen.refl, rfl, ?_, rfl, awake⟩
  rw [← called, Function.update_eq_self]

/-! ## All calls -/

/-- Calls that hold the material of the store at the start invoke the provider at
most once, if that stores something new for each of them, and every call returns
with what is stored then, in every run without a torn reload. -/
theorem refreshed_once (decode : Text → Text) (calls : ι → RefreshCall)
    (refreshable : SecretType) (store : SecretStore)
    (admitted : ∀ thread, (calls thread).Admitted)
    (holds : ∀ thread, Holds decode store (calls thread))
    {world : World ι (RefreshState ι) Control Event}
    (run : RunChoosing (refreshStep decode calls) (Refreshes decode calls refreshable)
      (World.initial ⟨store, none⟩ .called) world) :
    world.events.length ≤ 1 ∧
      (∀ thread result renewed, world.control thread = .returned result renewed →
        result = true ∧ Renewed decode world.shared.store (calls thread) renewed ∧
          Differs decode world.shared.store (calls thread)) ∧
      (∀ thread, world.control thread ≠ .threw) ∧
      (∀ thread, (∃ result renewed, world.control thread = .returned result renewed) ∨
        ∃ other choice next, step (refreshStep decode calls) world other choice = some next) ∧
      ∀ thread choice next, step (refreshStep decode calls) world thread choice = some next →
        (next.control thread).rank < (world.control thread).rank ∧
          ∀ other, other ≠ thread → next.control other = world.control other := by
  rcases phases_of_run admitted holds run with ⟨exclusive, phase⟩
  have awake : ∀ thread, world.asleep thread = false := by
    refine RunChoosing.invariant
      (motive := fun world => ∀ thread, world.asleep thread = false) ?_ run fun _ => rfl
    rintro world next thread choice awake - stepped
    rcases advance_of_step admitted stepped with ⟨shared, here, events, rfl, -⟩
    exact awake
  have enabled (thread : ι) (unfinished : 0 < (world.control thread).rank)
      (free : world.control thread = .lock → world.shared.credentialRefreshMutex = none) :
      ∃ choice next, step (refreshStep decode calls) world thread choice = some next := by
    rcases refreshStep_isSome decode calls thread world.shared _ unfinished free with
      ⟨choice, some⟩
    rcases Option.isSome_iff_exists.mp some with ⟨outcome, steps⟩
    rcases refreshStep_cases (admitted thread) steps with ⟨shared, here, events, rfl, -⟩
    exact ⟨choice, _, step_of_advance (awake thread) steps⟩
  have notThrew : ∀ thread, world.control thread ≠ .threw := by
    intro thread threw
    rcases phase with before | after
    · have untouched := before.untouched thread
      rw [threw] at untouched
      exact untouched
    · have renewing := after.renewing thread
      rw [threw] at renewing
      exact renewing
  refine ⟨?_, ?_, notThrew, ?_, ?_⟩
  · rcases phase with before | after
    · rcases before.invoked with ⟨none, -⟩ | ⟨one, -⟩
      · simp [none]
      · simp [one]
    · simp [after.invoked]
  · intro thread result renewed returned
    rcases phase with before | after
    · have untouched := before.untouched thread
      rw [returned] at untouched
      exact untouched.elim
    · have renewing := after.renewing thread
      rw [returned] at renewing
      exact ⟨renewing.1, renewing.2, after.differs thread⟩
  · intro thread
    cases rank : (world.control thread).rank with
    | zero =>
        left
        cases control : world.control thread with
        | returned result renewed => exact ⟨result, renewed, rfl⟩
        | threw => exact absurd control (notThrew thread)
        | called | lock | refreshSecret remaining refreshedSecret =>
            rw [control] at rank
            contradiction
        | readAuthParams stage | readHttpParams stage reloadedAuthParams =>
            rw [control] at rank
            cases stage with
            | unlocked | locked | refreshed => contradiction
    | succ left =>
        right
        -- Whoever waits for the lock lets its holder go on.
        cases mutex : world.shared.credentialRefreshMutex with
        | none => exact ⟨thread, enabled thread (rank ▸ Nat.succ_pos left) fun _ => mutex⟩
        | some holder =>
            have holdsLock := (exclusive holder).mpr mutex
            refine ⟨holder, enabled holder ?_ ?_⟩
            · cases control : world.control holder with
              | readAuthParams stage | readHttpParams stage reloadedAuthParams =>
                  cases stage with
                  | unlocked | locked | refreshed => simp [Control.rank]
              | refreshSecret remaining refreshedSecret => simp [Control.rank]
              | called | lock | returned result renewed | threw =>
                  rw [control] at holdsLock
                  contradiction
            · intro lock
              rw [lock] at holdsLock
              contradiction
  · intro thread choice next stepped
    rcases advance_of_step admitted stepped with ⟨shared, here, events, rfl, steps⟩
    constructor
    · simpa [World.advance] using steps.rank_lt
    · intro other different
      simp [World.advance, different]
/-! ## A secret with a bearer token -/

/-- The token of a secret is read twice: among the authentication parameters and
among the HTTP parameters. -/
def gcsStore (token : Text) : SecretStore where
  settings _ := { bearerToken := token }
  httpParams _ := .ok { bearerToken := token }

def gcsCall (token : Text) : RefreshCall where
  path := "gs://bucket/key".toList
  material :=
    { authParams :=
        { providerType := .gcs
          endpoint := "storage.googleapis.com".toList
          urlStyle := "path".toList
          oauth2BearerToken := token }
      httpParams := { bearerToken := token, preMergedHeaders := true } }

/-- Two requests that hold the same expired token. -/
def gcsCalls : Bool → RefreshCall :=
  fun _ => gcsCall "old".toList

theorem gcsCalls_admitted (thread : Bool) : (gcsCalls thread).Admitted :=
  ⟨rfl, rfl, rfl⟩

theorem gcsStore_readS3AuthParams :
    (gcsStore "old".toList).readS3AuthParams Percent.decode "gs://bucket/key".toList =
        .ok (gcsCall "old".toList).material.authParams ∧
      (gcsStore "new".toList).readS3AuthParams Percent.decode "gs://bucket/key".toList =
        .ok (gcsCall "new".toList).material.authParams := by
  decide

theorem gcsCalls_holds (thread : Bool) :
    Holds Percent.decode (gcsStore "old".toList) (gcsCalls thread) where
  authParams := ⟨_, gcsStore_readS3AuthParams.1, .inl rfl⟩
  httpParams := by
    refine ⟨_, rfl, ?_⟩
    change S3RefreshableHTTPParams.same _ (.ofParams (gcsCall "old".toList).material.httpParams) = _
    decide

theorem gcsCalls_differs : DiffersForAll Percent.decode gcsCalls (gcsStore "new".toList) := by
  intro thread
  refine ⟨(gcsCall "new".toList).material, ⟨⟨_, gcsStore_readS3AuthParams.2, rfl⟩, rfl⟩, ?_⟩
  rintro ⟨same, -⟩
  have token : "new".toList = "old".toList := congrArg S3AuthParams.oauth2BearerToken same
  contradiction

/-- Of the two the first one refreshes. -/
theorem refreshed_once_token :
    ∃ world renewed, RunChoosing (refreshStep Percent.decode gcsCalls)
        (Refreshes Percent.decode gcsCalls .gcs)
        (World.initial ⟨gcsStore "old".toList, none⟩ .called) world ∧
      world.events.length ≤ 1 ∧ world.control true = .returned true renewed ∧
      Renewed Percent.decode world.shared.store (gcsCalls true) renewed := by
  have begins : Reaches Percent.decode gcsCalls .gcs
      (World.initial ⟨gcsStore "old".toList, none⟩ .called) true ⟨gcsStore "old".toList, none⟩
      .called [] :=
    reaches_called _ _ _ rfl fun _ => rfl
  rcases reaches_returned (gcsCalls_admitted true) (gcsCalls_holds true) gcsCalls_differs begins with
    ⟨renewed, world, run, stands⟩
  have results := refreshed_once Percent.decode gcsCalls .gcs (gcsStore "old".toList)
    gcsCalls_admitted gcsCalls_holds run
  exact ⟨world, renewed, run, results.1, stands.own,
    (results.2.1 true true renewed stands.own).2.1⟩

/-! ## A torn reload -/

/-- Where the new material differs in both halves, another call can read the first
half before it is stored and the second one after that. -/
theorem exists_torn_reload {decode : Text → Text} {calls : ι → RefreshCall}
    (refreshable : SecretType) {store fresh : SecretStore} {first second : ι}
    (different : second ≠ first) (admitted : ∀ thread, (calls thread).Admitted)
    (holds : ∀ thread, Holds decode store (calls thread))
    (differs : DiffersForAll decode calls fresh)
    (authChanged : (calls second).reloadAuthParams
      (fresh.readS3AuthParams decode (calls second).path) ≠
        .ok (calls second).material.authParams)
    (httpChanged : ∀ read, fresh.readRefreshableHTTPParams (calls second).path = .ok read →
      read.same (.ofParams (calls second).material.httpParams) = false) :
    ∃ world renewed, RunChoosing (refreshStep decode calls)
        (ProviderRefreshes decode calls refreshable) (World.initial ⟨store, none⟩ .called) world ∧
      world.control second = .returned true renewed ∧
      ¬ Renewed decode world.shared.store (calls second) renewed := by
  have begins : Reaches decode calls refreshable (World.initial ⟨store, none⟩ .called) second
      ⟨store, none⟩ .called [] :=
    reaches_called _ _ _ rfl fun _ => rfl
  rcases (begins.begin (admitted second)).readAuthParams (admitted second)
    (holds second).reloadAuthParams with ⟨halfway, firstRun, standsSecond⟩
  have called : halfway.control first = .called := by
    rw [standsSecond.control, Function.update_of_ne different.symm]
    rfl
  have resumes := reaches_called decode calls refreshable called standsSecond.awake
  rw [standsSecond.shared, standsSecond.events] at resumes
  rcases reaches_stored (admitted first) (holds first) differs resumes with
    ⟨rest, -, later, secondRun, standsFirst⟩
  have pending : later.control second =
      .readHttpParams .unlocked (calls second).material.authParams := by
    rw [standsFirst.control, Function.update_of_ne different]
    exact standsSecond.own
  rcases (differs second).reload with ⟨newAuthParams, readsAuth, newHttpParams, readsHttp, -, -⟩
  have changed : (calls second).compareMaterial (calls second).material.authParams newHttpParams =
      some ⟨(calls second).material.authParams,
        newHttpParams.apply (calls second).material.httpParams⟩ := by
    rw [RefreshCall.compareMaterial, httpChanged _ readsHttp, Bool.and_false]
    rfl
  have advances : refreshStep decode calls second later.shared (later.control second) .proceed =
      goOn later.shared (.returned true ⟨(calls second).material.authParams,
        newHttpParams.apply (calls second).material.httpParams⟩) [] := by
    have reads : later.shared.store.readRefreshableHTTPParams (calls second).path =
        .ok newHttpParams := by
      rw [standsFirst.shared]
      exact readsHttp
    rw [pending, refreshStep_readHttpParams reads, changed]
    rfl
  have providerOnly : ∀ {start world : World ι (RefreshState ι) Control Event},
      RunChoosing (refreshStep decode calls) (Refreshes decode calls refreshable) start world →
        RunChoosing (refreshStep decode calls) (ProviderRefreshes decode calls refreshable) start
          world := by
    intro start world run
    apply Relation.ReflTransGen.mono _ _ _ run
    rintro _ _ ⟨thread, choice, refreshes, stepped⟩
    exact ⟨thread, choice, refreshes.1, stepped⟩
  refine ⟨_, _, ((providerOnly firstRun).trans (providerOnly secondRun)).tail
    ⟨second, .proceed, ?_, step_of_advance (standsFirst.awake second) advances⟩,
    Function.update_self _ _ _, ?_⟩
  · intro _
    rw [pending]
    exact providerAnswers_of_elsewhere rfl
  · rintro ⟨⟨read, reads, places⟩, -⟩
    apply authChanged
    change later.shared.store.readS3AuthParams decode (calls second).path = .ok read at reads
    rw [standsFirst.shared] at reads
    rw [reads, (calls second).reloadAuthParams_eq (SecretStore.readS3AuthParams_finalized reads)]
    exact places

/-- While the first one of the two refreshes, the second one comes back with the new
token among its HTTP parameters and the old one among its authentication
parameters. -/
theorem refreshed_once_torn :
    (∀ thread, (gcsCalls thread).Admitted) ∧
      (∀ thread, Holds Percent.decode (gcsStore "old".toList) (gcsCalls thread)) ∧
      ∃ world renewed, RunChoosing (refreshStep Percent.decode gcsCalls)
          (ProviderRefreshes Percent.decode gcsCalls .gcs)
          (World.initial ⟨gcsStore "old".toList, none⟩ .called) world ∧
        world.control true = .returned true renewed ∧
        ¬ Renewed Percent.decode world.shared.store (gcsCalls true) renewed := by
  have different : true ≠ false := Bool.noConfusion
  refine ⟨gcsCalls_admitted, gcsCalls_holds, exists_torn_reload .gcs different gcsCalls_admitted
    gcsCalls_holds gcsCalls_differs ?_ ?_⟩
  · change (gcsCall "old".toList).reloadAuthParams ((gcsStore "new".toList).readS3AuthParams
      Percent.decode "gs://bucket/key".toList) ≠ _
    rw [gcsStore_readS3AuthParams.2]
    decide
  · rintro read ⟨⟩
    decide

end Httpfs.S3.Refresh
