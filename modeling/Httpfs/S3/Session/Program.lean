import Httpfs.S3.Auth
import Httpfs.S3.Request.Data
import Httpfs.Transition.Monitor

/-!
# Requests on one session

Any number of requests share a session.  A request reads the snapshot, makes
its attempts from it, and replaces it when an attempt fails for its credentials
or its region.  The session's lock makes a capture and a publication one step
each; between them every other request may run.
-/

namespace Httpfs.S3.Session

open Http Text
open Httpfs.Transition
open Httpfs.Transition.Monitor

/-! ## The session -/

/-- A captured snapshot keeps its object alive, so two are the same object
exactly if the same publication made them. -/
structure CapturedHTTPRequestSnapshot where
  snapshot : S3RequestSnapshot
  publication : Nat
  deriving DecidableEq

structure HTTPRequestSession where
  currentSnapshot : S3RequestSnapshot
  publication : Nat := 0
  deriving DecidableEq

namespace HTTPRequestSession

def capture (session : HTTPRequestSession) : CapturedHTTPRequestSnapshot :=
  ⟨session.currentSnapshot, session.publication⟩

def tryPublish (session : HTTPRequestSession) (expected : CapturedHTTPRequestSnapshot)
    (replacement : S3RequestSnapshot) : HTTPRequestSession × Bool :=
  if session.publication ≠ expected.publication then (session, false)
  else (⟨replacement, session.publication + 1⟩, true)

end HTTPRequestSession

/-! ## Reading the credentials again -/

/-- What the secrets and settings hold for the path of a session. -/
structure Reading where
  authParams : Except ErrorData S3AuthParams
  httpParams : HTTPFSParams

/-- The parameters that `ReloadS3AuthMaterial` replaces in place. -/
structure S3AuthMaterial where
  authParams : S3AuthParams
  httpParams : HTTPFSParams
  deriving DecidableEq

/-- The replaced parameters, or none where nothing changed. -/
def reloadS3AuthMaterial (reading : Reading) (material : S3AuthMaterial) (preserveRegion : Bool) :
    Except ErrorData (Option S3AuthMaterial) := do
  let previousRegion := material.authParams.region
  let read ← reading.authParams
  let reloadedAuthParams ←
    (if preserveRegion && !previousRegion.isEmpty && read.region ≠ previousRegion then
      read.setRegion previousRegion
    else pure read)
  let reloadedHttpParams := S3RefreshableHTTPParams.ofParams reading.httpParams
  if reloadedAuthParams = material.authParams &&
      reloadedHttpParams.same (.ofParams material.httpParams) then
    pure none
  else pure (some ⟨reloadedAuthParams, reloadedHttpParams.apply material.httpParams⟩)

/-- What a refresh finds: whether the client context is still there, what its
readings give, and whether a secret was refreshed between the last two. -/
structure RefreshAnswers where
  hasContext : Bool
  first : Reading
  second : Reading
  refreshedSecret : Except ErrorData Bool
  third : Reading

def tryRefreshS3AuthMaterial (answers : RefreshAnswers) (material : S3AuthMaterial)
    (credentialRefreshEnabled preserveRegion : Bool) :
    Except ErrorData (Option S3AuthMaterial) :=
  if !credentialRefreshEnabled then pure none
  else do
    match ← reloadS3AuthMaterial answers.first material preserveRegion with
    | some reloaded => pure (some reloaded)
    | none =>
        -- Another request may have refreshed the secret before the lock was taken.
        match ← reloadS3AuthMaterial answers.second material preserveRegion with
        | some reloaded => pure (some reloaded)
        | none =>
            if !(← answers.refreshedSecret) then pure none
            else reloadS3AuthMaterial answers.third material preserveRegion

/-! ## Replacements -/

/-- The snapshot that a refresh publishes in place of the latest one. -/
def mergeMaterial (latest : S3RequestSnapshot) (refreshed : S3AuthMaterial) :
    Except ErrorData S3RequestSnapshot := do
  let mergedAuthParams ←
    (if latest.regionRedirected then refreshed.authParams.setRegion latest.authParams.region
    else pure refreshed.authParams)
  let refreshedHttpMaterial := S3RefreshableHTTPParams.ofParams refreshed.httpParams
  pure { latest with
    params := refreshedHttpMaterial.apply latest.createRequestParams
    authParams := mergedAuthParams
    credentialGeneration := latest.credentialGeneration + 1 }

/-- The snapshot that a region redirect publishes in place of the current one. -/
def redirectRegion (snapshot : S3RequestSnapshot) (correctRegion : Text) :
    Except ErrorData S3RequestSnapshot := do
  let authParams ← snapshot.authParams.setRegion correctRegion
  pure { snapshot with
    params := snapshot.createRequestParams
    authParams
    regionRedirected := true }

/-! ## The program of a request -/

inductive Event
  /-- The parameters a refresh came back with. -/
  | reloaded (material : S3AuthMaterial)
  | refreshPublished (refreshed : S3AuthMaterial) (snapshot : S3RequestSnapshot)
  | regionPublished (region : Text) (snapshot : S3RequestSnapshot)
  /-- `TryRefreshSession` returned for an attempt. -/
  | refreshReturned (failed : S3RequestSnapshot) (result : Bool)
  | threw

/-- Control points; an attempt is given by the snapshot it was made from. -/
inductive Control
  | between (attempt : S3RequestSnapshot)
  | reload (attempt : S3RequestSnapshot) (current : S3RequestSnapshot)
  | checkGeneration (attempt : S3RequestSnapshot)
  | mergeLatest (attempt : S3RequestSnapshot) (refreshed : S3AuthMaterial)
  | publishRefresh (attempt : S3RequestSnapshot) (refreshed : S3AuthMaterial)
      (current : CapturedHTTPRequestSnapshot) (replacement : S3RequestSnapshot)
  | redirect (attempt : S3RequestSnapshot) (correctRegion : Text)
  | publishRegion (attempt : S3RequestSnapshot) (correctRegion : Text)
      (current : CapturedHTTPRequestSnapshot) (replacement : S3RequestSnapshot)

/-- What a request does next, and what it is answered.  Every caller of
`SetSessionRegion` has a region that is not empty. -/
inductive Choice
  | attempt
  | refresh
  | setRegion (region : Text) (named : region ≠ [])
  | answer (answers : RefreshAnswers)
  | proceed

abbrev Step :=
  Option (Outcome HTTPRequestSession Control Event)

def goOn (session : HTTPRequestSession) (control : Control) (events : List Event) : Step :=
  some (.advance session control events false)

/-- The return of `TryRefreshSession`. -/
def returnRefresh (session : HTTPRequestSession) (attempt : S3RequestSnapshot) (result : Bool) :
    Step :=
  goOn session (.between attempt) [.refreshReturned attempt result]

def requestStep (session : HTTPRequestSession) : Control → Choice → Step
  | .between _, .attempt => goOn session (.between session.capture.snapshot) []
  | .between attempt, .refresh =>
      let current := session.capture.snapshot
      if current.credentialGeneration ≠ attempt.credentialGeneration then
        returnRefresh session attempt true
      else if !current.credentialRefreshEnabled then returnRefresh session attempt false
      else goOn session (.reload attempt current) []
  | .between attempt, .setRegion region _ => goOn session (.redirect attempt region) []
  | .between _, _ => none
  | .reload attempt current, .answer answers =>
      if !answers.hasContext then returnRefresh session attempt false
      else
        match tryRefreshS3AuthMaterial answers ⟨current.authParams, current.createRequestParams⟩
            current.credentialRefreshEnabled current.regionRedirected with
        | .error _ => goOn session (.between attempt) [.threw]
        | .ok none => goOn session (.checkGeneration attempt) []
        | .ok (some refreshed) =>
            goOn session (.mergeLatest attempt refreshed) [.reloaded refreshed]
  | .reload _ _, _ => none
  | .checkGeneration attempt, _ =>
      returnRefresh session attempt
        (session.capture.snapshot.credentialGeneration ≠ attempt.credentialGeneration)
  | .mergeLatest attempt refreshed, _ =>
      let current := session.capture
      if current.snapshot.credentialGeneration ≠ attempt.credentialGeneration then
        returnRefresh session attempt true
      else
        match mergeMaterial current.snapshot refreshed with
        | .error _ => goOn session (.between attempt) [.threw]
        | .ok replacement =>
            goOn session (.publishRefresh attempt refreshed current replacement) []
  | .publishRefresh attempt refreshed current replacement, _ =>
      match session.tryPublish current replacement with
      | (session, true) =>
          goOn session (.between attempt)
            [.refreshPublished refreshed replacement, .refreshReturned attempt true]
      | (session, false) => goOn session (.mergeLatest attempt refreshed) []
  | .redirect attempt region, _ =>
      let current := session.capture
      if current.snapshot.authParams.region = region then goOn session (.between attempt) []
      else
        match redirectRegion current.snapshot region with
        | .error _ => goOn session (.between attempt) [.threw]
        | .ok replacement => goOn session (.publishRegion attempt region current replacement) []
  | .publishRegion attempt region current replacement, _ =>
      match session.tryPublish current replacement with
      | (session, true) =>
          goOn session (.between attempt) [.regionPublished region replacement]
      | (session, false) => goOn session (.redirect attempt region) []

/-! ## Material -/

/-- Refreshed parameters are those of a reading, but for the region. -/
theorem reloadS3AuthMaterial_reads {reading : Reading} {material refreshed : S3AuthMaterial}
    {preserveRegion : Bool}
    (reloads : reloadS3AuthMaterial reading material preserveRegion = .ok (some refreshed)) :
    ∃ read, reading.authParams = .ok read ∧
      refreshed.authParams.credentials = read.credentials ∧
      S3RefreshableHTTPParams.ofParams refreshed.httpParams = .ofParams reading.httpParams := by
  rcases bind_eq_ok_iff.mp reloads with ⟨read, reads, continues⟩
  rcases bind_eq_ok_iff.mp continues with ⟨placed, places, ends⟩
  have credentials : placed.credentials = read.credentials := by
    split at places
    · exact (S3AuthParams.setRegion_spec places).1
    · cases places
      rfl
  dsimp only at ends
  split at ends
  · cases ends
  · cases ends
    exact ⟨read, reads, credentials, S3RefreshableHTTPParams.ofParams_apply _ _⟩

theorem mergeMaterial_eq_ok {latest replacement : S3RequestSnapshot} {refreshed : S3AuthMaterial}
    (merges : mergeMaterial latest refreshed = .ok replacement) :
    replacement.credentialGeneration = latest.credentialGeneration + 1 ∧
      replacement.regionRedirected = latest.regionRedirected ∧
      S3RefreshableHTTPParams.ofParams replacement.params = .ofParams refreshed.httpParams ∧
      (latest.regionRedirected = false → replacement.authParams = refreshed.authParams) ∧
      (latest.regionRedirected = true →
        refreshed.authParams.setRegion latest.authParams.region = .ok replacement.authParams) := by
  rcases bind_eq_ok_iff.mp merges with ⟨merged, places, ends⟩
  cases ends
  refine ⟨rfl, rfl, S3RefreshableHTTPParams.ofParams_apply _ _, ?_, ?_⟩
  · intro kept
    rw [kept] at places
    cases places
    rfl
  · intro redirected
    rw [redirected] at places
    exact places

theorem redirectRegion_eq_ok {snapshot replacement : S3RequestSnapshot} {region : Text}
    (redirects : redirectRegion snapshot region = .ok replacement) :
    replacement.credentialGeneration = snapshot.credentialGeneration ∧
      replacement.regionRedirected = true ∧
      S3RefreshableHTTPParams.ofParams replacement.params = .ofParams snapshot.params ∧
      snapshot.authParams.setRegion region = .ok replacement.authParams := by
  rcases bind_eq_ok_iff.mp redirects with ⟨authParams, sets, ends⟩
  cases ends
  exact ⟨rfl, rfl, rfl, sets⟩

/-! ## What one step can do -/

/-- The attempt a request is at. -/
def Control.attempt : Control → S3RequestSnapshot
  | .between attempt | .reload attempt _ | .checkGeneration attempt | .mergeLatest attempt _
  | .publishRefresh attempt _ _ _ | .redirect attempt _ | .publishRegion attempt _ _ _ => attempt

/-- The advances of a request. -/
inductive Transition :
    HTTPRequestSession → Control → HTTPRequestSession → Control → List Event → Prop
  | attempt {session attempt} :
      Transition session (.between attempt) session (.between session.currentSnapshot) []
  | alreadyRefreshed {session pc}
      (newer : session.currentSnapshot.credentialGeneration ≠ pc.attempt.credentialGeneration) :
      Transition session pc session (.between pc.attempt) [.refreshReturned pc.attempt true]
  | refuse {session pc} :
      Transition session pc session (.between pc.attempt) [.refreshReturned pc.attempt false]
  | threw {session pc} : Transition session pc session (.between pc.attempt) [.threw]
  | sameRegion {session pc} : Transition session pc session (.between pc.attempt) []
  | beginReload {session attempt}
      (same : session.currentSnapshot.credentialGeneration = attempt.credentialGeneration) :
      Transition session (.between attempt) session (.reload attempt session.currentSnapshot) []
  | unchanged {session attempt current} :
      Transition session (.reload attempt current) session (.checkGeneration attempt) []
  | reloaded {session attempt current answers refreshed}
      (refreshes : tryRefreshS3AuthMaterial answers
        ⟨current.authParams, current.createRequestParams⟩ current.credentialRefreshEnabled
        current.regionRedirected = .ok (some refreshed)) :
      Transition session (.reload attempt current) session (.mergeLatest attempt refreshed)
        [.reloaded refreshed]
  | merge {session attempt refreshed replacement}
      (same : session.currentSnapshot.credentialGeneration = attempt.credentialGeneration)
      (merges : mergeMaterial session.currentSnapshot refreshed = .ok replacement) :
      Transition session (.mergeLatest attempt refreshed) session
        (.publishRefresh attempt refreshed session.capture replacement) []
  | publishRefresh {session attempt refreshed current replacement}
      (latest : session.publication = current.publication) :
      Transition session (.publishRefresh attempt refreshed current replacement)
        ⟨replacement, session.publication + 1⟩ (.between attempt)
        [.refreshPublished refreshed replacement, .refreshReturned attempt true]
  | retryRefresh {session attempt refreshed current replacement} :
      Transition session (.publishRefresh attempt refreshed current replacement) session
        (.mergeLatest attempt refreshed) []
  | beginRedirect {session attempt region} (named : region ≠ []) :
      Transition session (.between attempt) session (.redirect attempt region) []
  | chooseRegion {session attempt region replacement}
      (redirects : redirectRegion session.currentSnapshot region = .ok replacement) :
      Transition session (.redirect attempt region) session
        (.publishRegion attempt region session.capture replacement) []
  | publishRegion {session attempt region current replacement}
      (latest : session.publication = current.publication) :
      Transition session (.publishRegion attempt region current replacement)
        ⟨replacement, session.publication + 1⟩ (.between attempt)
        [.regionPublished region replacement]
  | retryRegion {session attempt region current replacement} :
      Transition session (.publishRegion attempt region current replacement) session
        (.redirect attempt region) []

theorem goOn_eq_some {session : HTTPRequestSession} {control : Control} {events : List Event}
    {outcome : Outcome HTTPRequestSession Control Event}
    (goes : goOn session control events = some outcome) :
    outcome = .advance session control events false :=
  (Option.some.inj goes).symm

/-- Every step of a request is one of its advances. -/
theorem requestStep_cases {session : HTTPRequestSession} {pc : Control} {choice : Choice}
    {outcome : Outcome HTTPRequestSession Control Event}
    (steps : requestStep session pc choice = some outcome) :
    ∃ next here events, outcome = .advance next here events false ∧
      Transition session pc next here events := by
  cases pc with
  | between attempt =>
      cases choice with
      | attempt => exact ⟨_, _, _, goOn_eq_some steps, .attempt⟩
      | refresh =>
          rw [requestStep] at steps
          split at steps
          · rename_i newer
            exact ⟨_, _, _, goOn_eq_some steps, .alreadyRefreshed newer⟩
          · rename_i same
            split at steps
            · exact ⟨_, _, _, goOn_eq_some steps, .refuse⟩
            · exact ⟨_, _, _, goOn_eq_some steps, .beginReload (not_not.mp same)⟩
      | setRegion region named => exact ⟨_, _, _, goOn_eq_some steps, .beginRedirect named⟩
      | answer answers => contradiction
      | proceed => contradiction
  | reload attempt current =>
      cases choice with
      | answer answers =>
          rw [requestStep] at steps
          split at steps
          · exact ⟨_, _, _, goOn_eq_some steps, .refuse⟩
          · split at steps
            · exact ⟨_, _, _, goOn_eq_some steps, .threw⟩
            · exact ⟨_, _, _, goOn_eq_some steps, .unchanged⟩
            · rename_i refreshed refreshes
              exact ⟨_, _, _, goOn_eq_some steps, .reloaded refreshes⟩
      | attempt | refresh | setRegion | proceed => contradiction
  | checkGeneration attempt =>
      rw [requestStep, returnRefresh] at steps
      by_cases newer : session.currentSnapshot.credentialGeneration ≠ attempt.credentialGeneration
      · have result : decide (session.capture.snapshot.credentialGeneration ≠
            attempt.credentialGeneration) = true := decide_eq_true newer
        rw [result] at steps
        exact ⟨_, _, _, goOn_eq_some steps, .alreadyRefreshed newer⟩
      · have result : decide (session.capture.snapshot.credentialGeneration ≠
            attempt.credentialGeneration) = false := decide_eq_false newer
        rw [result] at steps
        exact ⟨_, _, _, goOn_eq_some steps, .refuse⟩
  | mergeLatest attempt refreshed =>
      rw [requestStep] at steps
      split at steps
      · rename_i newer
        exact ⟨_, _, _, goOn_eq_some steps, .alreadyRefreshed newer⟩
      · rename_i same
        split at steps
        · exact ⟨_, _, _, goOn_eq_some steps, .threw⟩
        · rename_i replacement merges
          exact ⟨_, _, _, goOn_eq_some steps, .merge (not_not.mp same) merges⟩
  | publishRefresh attempt refreshed current replacement =>
      rw [requestStep, HTTPRequestSession.tryPublish] at steps
      by_cases latest : session.publication = current.publication
      · rw [if_neg (not_not.mpr latest)] at steps
        exact ⟨_, _, _, goOn_eq_some steps, .publishRefresh latest⟩
      · rw [if_pos latest] at steps
        exact ⟨_, _, _, goOn_eq_some steps, .retryRefresh⟩
  | redirect attempt region =>
      rw [requestStep] at steps
      split at steps
      · exact ⟨_, _, _, goOn_eq_some steps, .sameRegion⟩
      · split at steps
        · exact ⟨_, _, _, goOn_eq_some steps, .threw⟩
        · rename_i replacement redirects
          exact ⟨_, _, _, goOn_eq_some steps, .chooseRegion redirects⟩
  | publishRegion attempt region current replacement =>
      rw [requestStep, HTTPRequestSession.tryPublish] at steps
      by_cases latest : session.publication = current.publication
      · rw [if_neg (not_not.mpr latest)] at steps
        exact ⟨_, _, _, goOn_eq_some steps, .publishRegion latest⟩
      · rw [if_pos latest] at steps
        exact ⟨_, _, _, goOn_eq_some steps, .retryRegion⟩

end Httpfs.S3.Session
