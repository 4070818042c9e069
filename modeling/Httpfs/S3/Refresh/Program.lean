import Httpfs.S3.Session.Program

/-!
# Refreshing the credentials of several sessions

Requests that fail for their credentials read them again, and ask the secret's
provider for new ones only if nothing has changed.  The readings before the lock
is taken run next to the provider of another request: the authentication
parameters and the HTTP parameters are read one after the other.
-/

namespace Httpfs.S3.Refresh

open Http Text
open Httpfs.S3.Session
open Httpfs.Transition
open Httpfs.Transition.Monitor

universe u

/-- What the secrets and settings hold for every path. -/
structure SecretStore where
  settings : Text → S3Settings
  httpParams : Text → Except ErrorData HTTPFSParams

namespace SecretStore

def readS3AuthParams (store : SecretStore) (decode : Text → Text) (path : Text) :
    Except ErrorData S3AuthParams := do
  let (_, authParams) ← resolve decode path (readFrom (some store.settings) path)
  pure authParams

def readRefreshableHTTPParams (store : SecretStore) (path : Text) :
    Except ErrorData S3RefreshableHTTPParams := do
  let params ← store.httpParams path
  pure (.ofParams params)

end SecretStore

/-! ## One call -/

/-- The arguments of a call of `TryRefreshS3AuthMaterial`. -/
structure RefreshCall where
  path : Text
  material : S3AuthMaterial
  hasContext : Bool := true
  hasOpener : Bool := true
  credentialRefreshEnabled : Bool := true
  preserveRegion : Bool := false

namespace RefreshCall

/-- The first half of a reload: the authentication parameters, with the region
of the call. -/
def reloadAuthParams (call : RefreshCall) (read : Except ErrorData S3AuthParams) :
    Except ErrorData S3AuthParams := do
  let previousRegion := call.material.authParams.region
  let reloadedAuthParams ← read
  if call.preserveRegion && !previousRegion.isEmpty &&
      reloadedAuthParams.region ≠ previousRegion then
    reloadedAuthParams.setRegion previousRegion
  else pure reloadedAuthParams

/-- The second half of a reload: the replaced parameters, or none where nothing
changed. -/
def compareMaterial (call : RefreshCall) (reloadedAuthParams : S3AuthParams)
    (reloadedHttpParams : S3RefreshableHTTPParams) : Option S3AuthMaterial :=
  if reloadedAuthParams = call.material.authParams &&
      reloadedHttpParams.same (.ofParams call.material.httpParams) then
    none
  else some ⟨reloadedAuthParams, reloadedHttpParams.apply call.material.httpParams⟩

/-- The two halves of a reload with nothing in between. -/
theorem reloadS3AuthMaterial_eq (call : RefreshCall) (reading : Reading) :
    reloadS3AuthMaterial reading call.material call.preserveRegion =
      (call.reloadAuthParams reading.authParams).map fun reloadedAuthParams =>
        call.compareMaterial reloadedAuthParams (.ofParams reading.httpParams) := by
  cases reads : reading.authParams with
  | error error =>
      simp only [reloadS3AuthMaterial, reloadAuthParams, reads]
      rfl
  | ok read =>
      simp only [reloadS3AuthMaterial, reloadAuthParams, reads, bind, Except.bind]
      generalize (if (call.preserveRegion && !call.material.authParams.region.isEmpty &&
          decide (read.region ≠ call.material.authParams.region)) = true then
        read.setRegion call.material.authParams.region else pure read) = placed
      cases placed with
      | error error => rfl
      | ok reloadedAuthParams =>
          simp only [Except.map, compareMaterial]
          split
          · rfl
          · rfl

end RefreshCall

/-! ## The program of a call -/

inductive SecretType
  | s3
  | r2
  | gcs
  | aws
  deriving DecidableEq, Repr

def secretTypes : List SecretType :=
  [.s3, .r2, .gcs, .aws]

/-- What a secret of one type answers to a refresh: no secret of that type covers
the path, the one that does has no `refresh_info`, its provider failed, or the
provider's secret is stored. -/
inductive SecretAnswer
  | noMatch
  | notRefreshable
  | failed
  | stored (store : SecretStore)

/-- The three reloads of a call. -/
inductive Stage
  | unlocked
  | locked
  | refreshed
  deriving DecidableEq, Repr

inductive Control
  | called
  | readAuthParams (stage : Stage)
  | readHttpParams (stage : Stage) (reloadedAuthParams : S3AuthParams)
  | lock
  | refreshSecret (remaining : List SecretType) (refreshedSecret : Bool)
  | returned (result : Bool) (material : S3AuthMaterial)
  | threw

inductive Choice
  | proceed
  | answer (answer : SecretAnswer)

/-- The call `TryRefreshS3SecretForPath`. -/
inductive Event
  | refreshSecretForPath
  deriving DecidableEq, Repr

structure RefreshState (ι : Type u) where
  store : SecretStore
  credentialRefreshMutex : Option ι := none

variable {ι : Type u}

abbrev Step (ι : Type u) :=
  Option (Outcome (RefreshState ι) Control Event)

def goOn (state : RefreshState ι) (control : Control) (events : List Event) : Step ι :=
  some (.advance state control events false)

/-- The end of a call, which releases the lock if the call holds it. -/
def leave (state : RefreshState ι) (stage : Stage) (control : Control) : Step ι :=
  match stage with
  | .unlocked => goOn state control []
  | .locked | .refreshed => goOn { state with credentialRefreshMutex := none } control []

/-- What follows a reload. -/
def afterReload (call : RefreshCall) (state : RefreshState ι) (stage : Stage) :
    Option S3AuthMaterial → Step ι
  | some reloaded => leave state stage (.returned true reloaded)
  | none =>
      match stage with
      | .unlocked => goOn state .lock []
      | .locked => goOn state (.refreshSecret secretTypes false) [.refreshSecretForPath]
      | .refreshed => leave state stage (.returned false call.material)

def refreshStep (decode : Text → Text) (calls : ι → RefreshCall) :
    Program ι (RefreshState ι) Control Choice Event :=
  fun thread state control choice =>
    let call := calls thread
    match control with
    | .called =>
        if !call.credentialRefreshEnabled || !call.hasContext then
          goOn state (.returned false call.material) []
        else goOn state (.readAuthParams .unlocked) []
    | .readAuthParams stage =>
        if !call.hasOpener then afterReload call state stage none
        else
          match call.reloadAuthParams (state.store.readS3AuthParams decode call.path) with
          | .error _ => leave state stage .threw
          | .ok reloadedAuthParams => goOn state (.readHttpParams stage reloadedAuthParams) []
    | .readHttpParams stage reloadedAuthParams =>
        match state.store.readRefreshableHTTPParams call.path with
        | .error _ => leave state stage .threw
        | .ok reloadedHttpParams =>
            afterReload call state stage
              (call.compareMaterial reloadedAuthParams reloadedHttpParams)
    | .lock =>
        if state.credentialRefreshMutex.isSome then none
        else
          goOn { state with credentialRefreshMutex := some thread } (.readAuthParams .locked) []
    | .refreshSecret [] refreshedSecret =>
        if !refreshedSecret then leave state .locked (.returned false call.material)
        else goOn state (.readAuthParams .refreshed) []
    | .refreshSecret (_ :: remaining) refreshedSecret =>
        match choice with
        | .proceed => none
        | .answer .noMatch | .answer .notRefreshable =>
            goOn state (.refreshSecret remaining refreshedSecret) []
        | .answer .failed => leave state .locked .threw
        | .answer (.stored store) =>
            goOn { state with store } (.refreshSecret remaining true) []
    | .returned _ _ | .threw => none

/-! ## What one step can do -/

/-- The lock behind a stage. -/
def RefreshState.release (state : RefreshState ι) : Stage → RefreshState ι
  | .unlocked => state
  | .locked | .refreshed => { state with credentialRefreshMutex := none }

theorem leave_eq (state : RefreshState ι) (stage : Stage) (control : Control) :
    leave state stage control = goOn (state.release stage) control [] := by
  cases stage with
  | unlocked => rfl
  | locked => rfl
  | refreshed => rfl

/-- The advances of a call that has an opener, a context and refreshing enabled. -/
inductive Transition (decode : Text → Text) (call : RefreshCall) (thread : ι) (choice : Choice) :
    RefreshState ι → Control → RefreshState ι → Control → List Event → Prop
  | begin {state} :
      Transition decode call thread choice state .called state (.readAuthParams .unlocked) []
  | authParamsThrew {state stage error}
      (fails : call.reloadAuthParams (state.store.readS3AuthParams decode call.path) =
        .error error) :
      Transition decode call thread choice state (.readAuthParams stage) (state.release stage)
        .threw []
  | readAuthParams {state stage reloadedAuthParams}
      (reads : call.reloadAuthParams (state.store.readS3AuthParams decode call.path) =
        .ok reloadedAuthParams) :
      Transition decode call thread choice state (.readAuthParams stage) state
        (.readHttpParams stage reloadedAuthParams) []
  | httpParamsThrew {state stage reloadedAuthParams error}
      (fails : state.store.readRefreshableHTTPParams call.path = .error error) :
      Transition decode call thread choice state (.readHttpParams stage reloadedAuthParams)
        (state.release stage) .threw []
  | reloaded {state stage reloadedAuthParams reloadedHttpParams reloaded}
      (reads : state.store.readRefreshableHTTPParams call.path = .ok reloadedHttpParams)
      (changed : call.compareMaterial reloadedAuthParams reloadedHttpParams = some reloaded) :
      Transition decode call thread choice state (.readHttpParams stage reloadedAuthParams)
        (state.release stage) (.returned true reloaded) []
  | unchanged {state reloadedAuthParams reloadedHttpParams}
      (reads : state.store.readRefreshableHTTPParams call.path = .ok reloadedHttpParams)
      (same : call.compareMaterial reloadedAuthParams reloadedHttpParams = none) :
      Transition decode call thread choice state (.readHttpParams .unlocked reloadedAuthParams)
        state .lock []
  | stillUnchanged {state reloadedAuthParams reloadedHttpParams}
      (reads : state.store.readRefreshableHTTPParams call.path = .ok reloadedHttpParams)
      (same : call.compareMaterial reloadedAuthParams reloadedHttpParams = none) :
      Transition decode call thread choice state (.readHttpParams .locked reloadedAuthParams)
        state (.refreshSecret secretTypes false) [.refreshSecretForPath]
  | nothingNew {state reloadedAuthParams reloadedHttpParams}
      (reads : state.store.readRefreshableHTTPParams call.path = .ok reloadedHttpParams)
      (same : call.compareMaterial reloadedAuthParams reloadedHttpParams = none) :
      Transition decode call thread choice state (.readHttpParams .refreshed reloadedAuthParams)
        (state.release .refreshed) (.returned false call.material) []
  | lock {state} (free : state.credentialRefreshMutex = none) :
      Transition decode call thread choice state .lock
        { state with credentialRefreshMutex := some thread } (.readAuthParams .locked) []
  | notRefreshed {state} :
      Transition decode call thread choice state (.refreshSecret [] false)
        (state.release .locked) (.returned false call.material) []
  | refreshed {state} :
      Transition decode call thread choice state (.refreshSecret [] true) state
        (.readAuthParams .refreshed) []
  | skipped {state type remaining refreshedSecret}
      (answers : choice = .answer .noMatch ∨ choice = .answer .notRefreshable) :
      Transition decode call thread choice state
        (.refreshSecret (type :: remaining) refreshedSecret) state
        (.refreshSecret remaining refreshedSecret) []
  | failed {state type remaining refreshedSecret} (answers : choice = .answer .failed) :
      Transition decode call thread choice state
        (.refreshSecret (type :: remaining) refreshedSecret) (state.release .locked) .threw []
  | stored {state type remaining refreshedSecret store}
      (answers : choice = .answer (.stored store)) :
      Transition decode call thread choice state
        (.refreshSecret (type :: remaining) refreshedSecret) { state with store }
        (.refreshSecret remaining true) []

/-- The callers check these before they call. -/
structure RefreshCall.Admitted (call : RefreshCall) : Prop where
  context : call.hasContext = true
  opener : call.hasOpener = true
  enabled : call.credentialRefreshEnabled = true

theorem goOn_eq_some {state : RefreshState ι} {control : Control} {events : List Event}
    {outcome : Outcome (RefreshState ι) Control Event}
    (goes : goOn state control events = some outcome) :
    outcome = .advance state control events false :=
  (Option.some.inj goes).symm

/-- Every step of an admitted call is one of its advances. -/
theorem refreshStep_cases {decode : Text → Text} {calls : ι → RefreshCall} {thread : ι}
    (admitted : (calls thread).Admitted) {state : RefreshState ι} {pc : Control} {choice : Choice}
    {outcome : Outcome (RefreshState ι) Control Event}
    (steps : refreshStep decode calls thread state pc choice = some outcome) :
    ∃ next here events, outcome = .advance next here events false ∧
      Transition decode (calls thread) thread choice state pc next here events := by
  cases pc with
  | called =>
      simp only [refreshStep, admitted.context, admitted.enabled] at steps
      exact ⟨_, _, _, goOn_eq_some steps, .begin⟩
  | readAuthParams stage =>
      simp only [refreshStep, admitted.opener, Bool.not_true, Bool.false_eq_true, if_false,
        leave_eq] at steps
      split at steps
      · rename_i error fails
        exact ⟨_, _, _, goOn_eq_some steps, .authParamsThrew fails⟩
      · rename_i reloadedAuthParams reads
        exact ⟨_, _, _, goOn_eq_some steps, .readAuthParams reads⟩
  | readHttpParams stage reloadedAuthParams =>
      simp only [refreshStep, leave_eq] at steps
      split at steps
      · rename_i error fails
        exact ⟨_, _, _, goOn_eq_some steps, .httpParamsThrew fails⟩
      · rename_i reloadedHttpParams reads
        cases compares : (calls thread).compareMaterial reloadedAuthParams reloadedHttpParams with
        | some reloaded =>
            rw [compares, afterReload, leave_eq] at steps
            exact ⟨_, _, _, goOn_eq_some steps, .reloaded reads compares⟩
        | none =>
            rw [compares] at steps
            cases stage with
            | unlocked => exact ⟨_, _, _, goOn_eq_some steps, .unchanged reads compares⟩
            | locked => exact ⟨_, _, _, goOn_eq_some steps, .stillUnchanged reads compares⟩
            | refreshed => exact ⟨_, _, _, goOn_eq_some steps, .nothingNew reads compares⟩
  | lock =>
      simp only [refreshStep] at steps
      split at steps
      · contradiction
      · rename_i free
        exact ⟨_, _, _, goOn_eq_some steps, .lock (by simpa using free)⟩
  | refreshSecret remaining refreshedSecret =>
      cases remaining with
      | nil =>
          cases refreshedSecret with
          | false => exact ⟨_, _, _, goOn_eq_some steps, .notRefreshed⟩
          | true => exact ⟨_, _, _, goOn_eq_some steps, .refreshed⟩
      | cons type remaining =>
          cases choice with
          | proceed => contradiction
          | answer answer =>
              cases answer with
              | noMatch => exact ⟨_, _, _, goOn_eq_some steps, .skipped (.inl rfl)⟩
              | notRefreshable => exact ⟨_, _, _, goOn_eq_some steps, .skipped (.inr rfl)⟩
              | failed => exact ⟨_, _, _, goOn_eq_some steps, .failed rfl⟩
              | stored store => exact ⟨_, _, _, goOn_eq_some steps, .stored rfl⟩
  | returned result material => contradiction
  | threw => contradiction

end Httpfs.S3.Refresh
