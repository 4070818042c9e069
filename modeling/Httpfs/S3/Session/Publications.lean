import Httpfs.S3.Session.Program
import Httpfs.Transition.Guarded

/-!
# Publications of a session

The snapshot of a session is made by two kinds of writers: a refresh writes the
credentials and a redirect writes the region.  Whatever the order in which they
run, the snapshot is what the last writer of each kind wrote.
-/

namespace Httpfs.S3.Session

open Http Text
open Httpfs.Transition
open Httpfs.Transition.Monitor

universe u

variable {ι : Type u}

/-! ## Reading a trace -/

/-- The snapshot an event publishes. -/
def Event.published : Event → Option S3RequestSnapshot
  | .refreshPublished _ snapshot | .regionPublished _ snapshot => some snapshot
  | _ => none

def Event.region : Event → Option Text
  | .regionPublished region _ => some region
  | _ => none

def Event.refreshed : Event → Option S3AuthMaterial
  | .refreshPublished refreshed _ => some refreshed
  | _ => none

/-- A refresh that publishes a generation. -/
def Event.refreshesTo (generation : Nat) : Event → Bool
  | .refreshPublished _ snapshot => snapshot.credentialGeneration == generation
  | _ => false

/-- The last value that an event of a trace has. -/
def last {α : Type} (value : ι × Event → Option α) (past : List (ι × Event)) : Option α :=
  (past.filterMap value).getLast?

/-- All snapshots of a session that began with one. -/
def published (start : S3RequestSnapshot) (past : List (ι × Event)) : List S3RequestSnapshot :=
  start :: past.filterMap fun entry => entry.2.published

/-- The snapshot published last. -/
def latest (start : S3RequestSnapshot) (past : List (ι × Event)) : S3RequestSnapshot :=
  (last (fun entry => entry.2.published) past).getD start

/-- The region of the latest redirect. -/
def latestRegion (past : List (ι × Event)) : Option Text :=
  last (fun entry => entry.2.region) past

/-- The material of the latest refresh. -/
def latestRefreshed (past : List (ι × Event)) : Option S3AuthMaterial :=
  last (fun entry => entry.2.refreshed) past

variable [DecidableEq ι]

/-- What a request was given when it last read the credentials again. -/
def lastReloaded (thread : ι) (past : List (ι × Event)) : Option S3AuthMaterial :=
  last (fun
    | (other, .reloaded material) => if other = thread then some material else none
    | _ => none) past

/-! ## What a publication has to be -/

/-- The snapshot has the parameters of a refresh, and the region that was
redirected to, if any, with what is derived from it. -/
structure Carries (refreshed : S3AuthMaterial) (region : Option Text)
    (snapshot : S3RequestSnapshot) : Prop where
  httpParams : S3RefreshableHTTPParams.ofParams snapshot.params = .ofParams refreshed.httpParams
  credentials : snapshot.authParams.credentials = refreshed.authParams.credentials
  kept : region = none → snapshot.authParams = refreshed.authParams
  redirected : ∀ correctRegion, region = some correctRegion →
    refreshed.authParams.setRegion correctRegion = .ok snapshot.authParams ∧
      snapshot.authParams.region = correctRegion ∧
      (endpointIsAWS snapshot.authParams.endpoint = true →
        snapshot.authParams.endpoint = regionEndpoint correctRegion)

/-- What holds of an event after its past. -/
def Allowed (start : S3RequestSnapshot) (past : List (ι × Event)) : ι × Event → Prop
  | (thread, .refreshPublished refreshed snapshot) =>
      lastReloaded thread past = some refreshed ∧
        snapshot.credentialGeneration = (latest start past).credentialGeneration + 1 ∧
        Carries refreshed (latestRegion past) snapshot
  | (_, .regionPublished region snapshot) =>
      snapshot.credentialGeneration = (latest start past).credentialGeneration ∧
        (latest start past).authParams.setRegion region = .ok snapshot.authParams ∧
        snapshot.authParams.region = region ∧
        S3RefreshableHTTPParams.ofParams snapshot.params =
          .ofParams (latest start past).params ∧
        ∀ refreshed, latestRefreshed past = some refreshed →
          Carries refreshed (some region) snapshot
  | (_, .refreshReturned failed true) =>
      ∃ snapshot ∈ published start past, failed.credentialGeneration < snapshot.credentialGeneration
  | _ => True

/-! ## Longer traces -/

section Longer

variable {α : Type} {past : List (ι × Event)} {thread : ι} {events : List Event}

omit [DecidableEq ι] in
theorem last_append (value : ι × Event → Option α) (past new : List (ι × Event)) :
    last value (past ++ new) = (last value new).or (last value past) := by
  unfold last
  rw [List.filterMap_append, List.getLast?_append]

omit [DecidableEq ι] in
theorem last_eq_none {value : ι × Event → Option α} {new : List (ι × Event)}
    (silent : ∀ entry ∈ new, value entry = none) : last value new = none := by
  unfold last
  rw [List.filterMap_eq_nil_iff.mpr silent, List.getLast?_nil]

omit [DecidableEq ι] in
theorem mem_published_append {start snapshot : S3RequestSnapshot} {new : List (ι × Event)}
    (member : snapshot ∈ published start past) : snapshot ∈ published start (past ++ new) := by
  rw [published, List.filterMap_append, ← List.cons_append]
  exact List.mem_append_left _ member

omit [DecidableEq ι] in
/-- The snapshots of a trace are those before its last event and what that publishes. -/
theorem mem_published_concat {start snapshot : S3RequestSnapshot} {entry : ι × Event} :
    snapshot ∈ published start (past ++ [entry]) ↔
      snapshot ∈ published start past ∨ entry.2.published = some snapshot := by
  rw [published, List.filterMap_append, ← List.cons_append, List.mem_append]
  apply or_congr_right
  rw [List.mem_filterMap]
  simp

omit [DecidableEq ι] in
theorem latest_mem_published (start : S3RequestSnapshot) (past : List (ι × Event)) :
    latest start past ∈ published start past := by
  rw [latest, last, published]
  cases found : (past.filterMap fun entry => entry.2.published).getLast? with
  | none => exact List.mem_cons_self
  | some snapshot => exact List.mem_cons_of_mem _ (List.mem_of_getLast? found)

/-- Events of another request do not change what a request was given. -/
theorem lastReloaded_other {other : ι} (different : other ≠ thread) :
    lastReloaded other (past ++ events.map (Prod.mk thread)) = lastReloaded other past := by
  rw [lastReloaded, last_append, last_eq_none, Option.none_or]
  · rfl
  · intro entry member
    rcases List.mem_map.mp member with ⟨event, -, rfl⟩
    cases event with
    | reloaded material => exact if_neg different.symm
    | _ => rfl

theorem lastReloaded_reloaded (material : S3AuthMaterial) :
    lastReloaded thread (past ++ [(thread, .reloaded material)]) = some material := by
  rw [lastReloaded, last_append]
  simp [last]

end Longer

/-! ## The world -/

abbrev RequestWorld (ι : Type u) :=
  World ι HTTPRequestSession Control Event

/-- The requests on one session. -/
def program : Program ι HTTPRequestSession Control Choice Event :=
  fun _ session control choice => requestStep session control choice

/-- A session with its first snapshot, which every request was made from. -/
def initialWorld (start : S3RequestSnapshot) : RequestWorld ι :=
  World.initial ⟨start, 0⟩ (.between start)

/-- What a control point knows: a replacement is up to date as long as the
snapshot it was made from is the current one. -/
def Holds (session : HTTPRequestSession) (reloaded : Option S3AuthMaterial) : Control → Prop
  | .mergeLatest _ refreshed => reloaded = some refreshed
  | .publishRefresh attempt refreshed current replacement =>
      reloaded = some refreshed ∧ current.publication ≤ session.publication ∧
        (session.publication = current.publication →
          session.currentSnapshot.credentialGeneration = attempt.credentialGeneration ∧
            mergeMaterial session.currentSnapshot refreshed = .ok replacement)
  | .redirect _ region => region ≠ []
  | .publishRegion _ region current replacement =>
      region ≠ [] ∧ current.publication ≤ session.publication ∧
        (session.publication = current.publication →
          redirectRegion session.currentSnapshot region = .ok replacement)
  | _ => True

/-- A publication of another request makes every replacement stale. -/
theorem Holds.published {session : HTTPRequestSession} {reloaded : Option S3AuthMaterial}
    {control : Control} (holds : Holds session reloaded control)
    (replacement : S3RequestSnapshot) :
    Holds ⟨replacement, session.publication + 1⟩ reloaded control := by
  cases control with
  | publishRefresh attempt refreshed current other =>
      rcases holds with ⟨isReloaded, bound, -⟩
      refine ⟨isReloaded, Nat.le_succ_of_le bound, ?_⟩
      intro same
      dsimp only at same
      omega
  | publishRegion attempt region current other =>
      rcases holds with ⟨named, bound, -⟩
      refine ⟨named, Nat.le_succ_of_le bound, ?_⟩
      intro same
      dsimp only at same
      omega
  | between | reload | checkGeneration | mergeLatest | redirect => exact holds

/-- The invariant of a session and its requests. -/
structure Consistent (start : S3RequestSnapshot) (world : RequestWorld ι) : Prop where
  guarded : Guarded (Allowed start) world.trace
  current : latest start world.trace = world.shared.currentSnapshot
  generations : ∀ snapshot ∈ published start world.trace,
    snapshot.credentialGeneration ≤ world.shared.currentSnapshot.credentialGeneration
  redirected : (latestRegion world.trace).isSome = world.shared.currentSnapshot.regionRedirected
  region : ∀ region, latestRegion world.trace = some region →
    region ≠ [] ∧ world.shared.currentSnapshot.authParams.region = region
  refreshed : ∀ material, latestRefreshed world.trace = some material →
    Carries material (latestRegion world.trace) world.shared.currentSnapshot
  attempts : ∀ thread, (world.control thread).attempt ∈ published start world.trace
  controls : ∀ thread, Holds world.shared (lastReloaded thread world.trace) (world.control thread)

theorem Consistent.initial {start : S3RequestSnapshot} (fresh : start.regionRedirected = false) :
    Consistent start (initialWorld start : RequestWorld ι) where
  guarded := guarded_nil _
  current := rfl
  generations := by
    intro snapshot member
    rw [List.mem_singleton.mp member]
    exact le_rfl
  redirected := fresh.symm
  region := by
    intro region impossible
    contradiction
  refreshed := by
    intro material impossible
    contradiction
  attempts := fun _ => List.mem_singleton_self start
  controls := fun _ => trivial

/-! ## Steps -/

section Steps

variable {start : S3RequestSnapshot} {world : RequestWorld ι} {thread : ι}

/-- Events that publish nothing. -/
def Silent (events : List Event) : Prop :=
  ∀ event ∈ events, event.published = none ∧ event.region = none ∧ event.refreshed = none

omit [DecidableEq ι] in
theorem last_silent {α : Type} {value : Event → Option α} {past : List (ι × Event)}
    {events : List Event} (silent : ∀ event ∈ events, value event = none) :
    last (fun entry : ι × Event => value entry.2) (past ++ events.map (Prod.mk thread)) =
      last (fun entry => value entry.2) past := by
  rw [last_append, last_eq_none, Option.none_or]
  intro entry member
  rcases List.mem_map.mp member with ⟨event, isEvent, rfl⟩
  exact silent event isEvent

omit [DecidableEq ι] in
theorem published_silent {past : List (ι × Event)} {events : List Event} (silent : Silent events) :
    published start (past ++ events.map (Prod.mk thread)) = published start past := by
  have nothing : (events.map (Prod.mk thread)).filterMap
      (fun entry : ι × Event => entry.2.published) = [] := by
    rw [List.filterMap_eq_nil_iff]
    intro entry member
    rcases List.mem_map.mp member with ⟨event, isEvent, rfl⟩
    exact (silent event isEvent).1
  rw [published, List.filterMap_append, nothing, List.append_nil, published]

/-- A step that publishes nothing keeps the invariant if its own request does. -/
theorem Consistent.silent (consistent : Consistent start world) {here : Control}
    {events : List Event} (silent : Silent events)
    (guarded : Guarded (Allowed start) (world.trace ++ events.map (Prod.mk thread)))
    (attempt : here.attempt ∈ published start world.trace)
    (holds : Holds world.shared
      (lastReloaded thread (world.trace ++ events.map (Prod.mk thread))) here) :
    Consistent start (world.advance thread world.shared here events false) where
  guarded := guarded
  current := by
    have same := @last_silent ι thread _ Event.published world.trace events
      fun event member => (silent event member).1
    change (last _ (world.trace ++ events.map (Prod.mk thread))).getD start = _
    rw [same]
    exact consistent.current
  generations := by
    intro snapshot member
    apply consistent.generations
    rwa [World.advance, published_silent silent] at member
  redirected := by
    have same := @last_silent ι thread _ Event.region world.trace events
      fun event member => (silent event member).2.1
    change (last _ (world.trace ++ events.map (Prod.mk thread))).isSome = _
    rw [same]
    exact consistent.redirected
  region := by
    have same := @last_silent ι thread _ Event.region world.trace events
      fun event member => (silent event member).2.1
    intro region isRegion
    change last _ (world.trace ++ events.map (Prod.mk thread)) = _ at isRegion
    rw [same] at isRegion
    exact consistent.region region isRegion
  refreshed := by
    have sameRegion := @last_silent ι thread _ Event.region world.trace events
      fun event member => (silent event member).2.1
    have same := @last_silent ι thread _ Event.refreshed world.trace events
      fun event member => (silent event member).2.2
    intro material isMaterial
    change last _ (world.trace ++ events.map (Prod.mk thread)) = _ at isMaterial
    change Carries material (last _ (world.trace ++ events.map (Prod.mk thread))) _
    rw [same] at isMaterial
    rw [sameRegion]
    exact consistent.refreshed material isMaterial
  attempts := by
    intro other
    change (Function.update world.control thread here other).attempt ∈
      published start (world.trace ++ events.map (Prod.mk thread))
    rw [published_silent silent]
    by_cases same : other = thread
    · subst same
      rwa [Function.update_self]
    · rw [Function.update_of_ne same]
      exact consistent.attempts other
  controls := by
    intro other
    change Holds world.shared
      (lastReloaded other (world.trace ++ events.map (Prod.mk thread)))
      (Function.update world.control thread here other)
    by_cases same : other = thread
    · subst same
      rwa [Function.update_self]
    · rw [Function.update_of_ne same, lastReloaded_other same]
      exact consistent.controls other

omit [DecidableEq ι] in
theorem last_publication {α : Type} {value : Event → Option α} {past : List (ι × Event)}
    {first : Event} {rest : List Event} (silent : ∀ event ∈ rest, value event = none) :
    last (fun entry : ι × Event => value entry.2)
        (past ++ (first :: rest).map (Prod.mk thread)) =
      (value first).or (last (fun entry => value entry.2) past) := by
  have cut : past ++ (first :: rest).map (Prod.mk thread) =
      (past ++ [(thread, first)]) ++ rest.map (Prod.mk thread) := by
    simp
  rw [cut, last_silent silent, last_append]
  congr 1
  cases here : value first with
  | none => simp [last, here]
  | some found => simp [last, here]

/-- A publication keeps the invariant if its snapshot is what the latest
writers wrote. -/
theorem Consistent.publish (consistent : Consistent start world)
    {attempt replacement : S3RequestSnapshot} {first : Event} {rest : List Event}
    (publishes : first.published = some replacement) (silent : Silent rest)
    (guarded : Guarded (Allowed start) (world.trace ++ (first :: rest).map (Prod.mk thread)))
    (generation : world.shared.currentSnapshot.credentialGeneration ≤
      replacement.credentialGeneration)
    (redirected : (first.region.or (latestRegion world.trace)).isSome =
      replacement.regionRedirected)
    (region : ∀ region, first.region.or (latestRegion world.trace) = some region →
      region ≠ [] ∧ replacement.authParams.region = region)
    (refreshed : ∀ material, first.refreshed.or (latestRefreshed world.trace) = some material →
      Carries material (first.region.or (latestRegion world.trace)) replacement)
    (isAttempt : attempt ∈ published start world.trace) :
    Consistent start (world.advance thread ⟨replacement, world.shared.publication + 1⟩
      (.between attempt) (first :: rest) false) where
  guarded := guarded
  current := by
    have same := @last_publication ι thread _ Event.published world.trace first rest
      fun event member => (silent event member).1
    change (last _ (world.trace ++ (first :: rest).map (Prod.mk thread))).getD start = _
    rw [same, publishes]
    rfl
  generations := by
    intro snapshot member
    have cut : world.trace ++ (first :: rest).map (Prod.mk thread) =
        (world.trace ++ [(thread, first)]) ++ rest.map (Prod.mk thread) := by
      simp
    change snapshot ∈ published start (world.trace ++ (first :: rest).map (Prod.mk thread))
      at member
    rw [cut, published_silent silent, mem_published_concat] at member
    rcases member with old | new
    · exact (consistent.generations snapshot old).trans generation
    · rw [publishes] at new
      cases new
      exact le_rfl
  redirected := by
    have same := @last_publication ι thread _ Event.region world.trace first rest
      fun event member => (silent event member).2.1
    change (last _ (world.trace ++ (first :: rest).map (Prod.mk thread))).isSome = _
    rw [same]
    exact redirected
  region := by
    have same := @last_publication ι thread _ Event.region world.trace first rest
      fun event member => (silent event member).2.1
    intro found isRegion
    change last _ (world.trace ++ (first :: rest).map (Prod.mk thread)) = _ at isRegion
    rw [same] at isRegion
    exact region found isRegion
  refreshed := by
    have sameRegion := @last_publication ι thread _ Event.region world.trace first rest
      fun event member => (silent event member).2.1
    have same := @last_publication ι thread _ Event.refreshed world.trace first rest
      fun event member => (silent event member).2.2
    intro material isMaterial
    change last _ (world.trace ++ (first :: rest).map (Prod.mk thread)) = _ at isMaterial
    change Carries material (last _ (world.trace ++ (first :: rest).map (Prod.mk thread))) _
    rw [same] at isMaterial
    rw [sameRegion]
    exact refreshed material isMaterial
  attempts := by
    intro other
    apply mem_published_append
    change (Function.update world.control thread (.between attempt) other).attempt ∈ _
    by_cases same : other = thread
    · subst same
      rwa [Function.update_self]
    · rw [Function.update_of_ne same]
      exact consistent.attempts other
  controls := by
    intro other
    change Holds _ (lastReloaded other (world.trace ++ (first :: rest).map (Prod.mk thread)))
      (Function.update world.control thread (.between attempt) other)
    by_cases same : other = thread
    · subst same
      rw [Function.update_self]
      trivial
    · rw [Function.update_of_ne same, lastReloaded_other same]
      exact (consistent.controls other).published replacement

/-! ## One step of a request -/

omit [DecidableEq ι] in
/-- Snapshots that have the material of a refresh keep it when their region is replaced. -/
theorem Carries.redirect {refreshed : S3AuthMaterial} {region? : Option Text}
    {current replacement : S3RequestSnapshot} {region : Text}
    (carries : Carries refreshed region? current)
    (httpParams : S3RefreshableHTTPParams.ofParams replacement.params = .ofParams current.params)
    (sets : current.authParams.setRegion region = .ok replacement.authParams)
    (named : region ≠ []) : Carries refreshed (some region) replacement where
  httpParams := httpParams.trans carries.httpParams
  credentials := (S3AuthParams.setRegion_spec sets).1.trans carries.credentials
  kept := fun impossible => absurd impossible (Option.some_ne_none region)
  redirected := by
    rintro correctRegion ⟨⟩
    refine ⟨?_, (S3AuthParams.setRegion_spec sets).2 named⟩
    cases region? with
    | none => rw [← carries.kept rfl, sets]
    | some earlier => rw [← S3AuthParams.setRegion_setRegion (carries.redirected earlier rfl).1, sets]

/-- The advances of a request keep the invariant. -/
theorem Consistent.advance (consistent : Consistent start world) {next : HTTPRequestSession}
    {here : Control} {events : List Event}
    (transition : Transition world.shared (world.control thread) next here events) :
    Consistent start (world.advance thread next here events false) := by
  have attempts := consistent.attempts thread
  have holds := consistent.controls thread
  have single {event : Event} (allowed : Allowed start world.trace (thread, event)) :
      Guarded (Allowed start) (world.trace ++ [event].map (Prod.mk thread)) := by
    apply consistent.guarded.append
    intro before entry after split
    rcases List.append_eq_singleton_iff.mp split.symm with ⟨rfl, eq⟩ | ⟨-, impossible⟩
    · cases eq
      rw [List.append_nil]
      exact allowed
    · contradiction
  have nothing : Guarded (Allowed start) (world.trace ++ ([] : List Event).map (Prod.mk thread)) := by
    rw [List.map_nil, List.append_nil]
    exact consistent.guarded
  have current : world.shared.currentSnapshot ∈ published start world.trace :=
    consistent.current ▸ latest_mem_published start world.trace
  have noEvents : Silent [] := fun event impossible => absurd impossible List.not_mem_nil
  have returned {failed : S3RequestSnapshot} {result : Bool} :
      Silent [.refreshReturned failed result] := by
    intro event member
    rw [List.mem_singleton.mp member]
    exact ⟨rfl, rfl, rfl⟩
  have noLonger {trace : List (ι × Event)} {reloaded : Option S3AuthMaterial}
      (same : lastReloaded thread trace = reloaded) :
      lastReloaded thread (trace ++ ([] : List Event).map (Prod.mk thread)) = reloaded := by
    rw [List.map_nil, List.append_nil, same]
  have back {attempt : S3RequestSnapshot} {events : List Event} (silent : Silent events)
      (guarded : Guarded (Allowed start) (world.trace ++ events.map (Prod.mk thread)))
      (isAttempt : attempt ∈ published start world.trace) :
      Consistent start (world.advance thread world.shared (.between attempt) events false) :=
    consistent.silent silent guarded isAttempt trivial
  generalize world.control thread = pc at transition attempts holds
  induction transition with
  | attempt => exact back noEvents nothing current
  | alreadyRefreshed newer =>
      refine back returned (single ?_) attempts
      have older := consistent.generations _ attempts
      exact ⟨_, current, by omega⟩
  | refuse => exact back returned (single trivial) attempts
  | threw =>
      refine back ?_ (single trivial) attempts
      intro event member
      rw [List.mem_singleton.mp member]
      exact ⟨rfl, rfl, rfl⟩
  | sameRegion => exact back noEvents nothing attempts
  | beginReload same => exact consistent.silent noEvents nothing attempts trivial
  | unchanged => exact consistent.silent noEvents nothing attempts trivial
  | reloaded refreshes =>
      refine consistent.silent ?_ (single trivial) attempts ?_
      · intro event member
        rw [List.mem_singleton.mp member]
        exact ⟨rfl, rfl, rfl⟩
      · exact lastReloaded_reloaded _
  | merge same merges =>
      exact consistent.silent noEvents nothing attempts
        ⟨noLonger holds, le_rfl, fun _ => ⟨same, merges⟩⟩
  | retryRefresh => exact consistent.silent noEvents nothing attempts (noLonger holds.1)
  | beginRedirect named => exact consistent.silent noEvents nothing attempts named
  | chooseRegion redirects =>
      exact consistent.silent noEvents nothing attempts ⟨holds, le_rfl, fun _ => redirects⟩
  | retryRegion => exact consistent.silent noEvents nothing attempts holds.1
  | @publishRefresh attempt refreshed captured replacement upToDate =>
      rcases holds with ⟨isReloaded, -, merged⟩
      rcases merged upToDate with ⟨sameGeneration, merges⟩
      rcases mergeMaterial_eq_ok merges with ⟨generation, redirected, httpParams, kept, replaced⟩
      have carries : Carries refreshed (latestRegion world.trace) replacement := by
        cases isRegion : latestRegion world.trace with
        | none =>
            have same : replacement.authParams = refreshed.authParams := by
              apply kept
              rw [← consistent.redirected, isRegion]
              rfl
            refine ⟨httpParams, congrArg _ same, fun _ => same, ?_⟩
            rintro region ⟨⟩
        | some region =>
            rcases consistent.region region isRegion with ⟨named, placed⟩
            have isRedirected : world.shared.currentSnapshot.regionRedirected = true := by
              rw [← consistent.redirected, isRegion]
              rfl
            have sets := replaced isRedirected
            rw [placed] at sets
            refine ⟨httpParams, (S3AuthParams.setRegion_spec sets).1, ?_, ?_⟩
            · intro impossible
              contradiction
            · rintro correctRegion ⟨⟩
              exact ⟨sets, (S3AuthParams.setRegion_spec sets).2 named⟩
      apply consistent.publish rfl returned
      · apply consistent.guarded.append
        intro before entry after split
        cases before with
        | nil =>
            cases split
            rw [List.append_nil, Allowed, consistent.current]
            exact ⟨isReloaded, generation, carries⟩
        | cons first before =>
            rcases List.cons.inj split with ⟨rfl, rest⟩
            rcases List.append_eq_singleton_iff.mp rest.symm with ⟨rfl, eq⟩ | ⟨-, impossible⟩
            · cases eq
              refine ⟨replacement, mem_published_concat.mpr (.inr rfl), ?_⟩
              omega
            · contradiction
      · omega
      · rw [redirected]
        exact consistent.redirected
      · intro region isRegion
        exact ⟨(consistent.region region isRegion).1, (carries.redirected region isRegion).2.1⟩
      · rintro material ⟨⟩
        exact carries
      · exact attempts
  | @publishRegion attempt region captured replacement upToDate =>
      rcases holds with ⟨named, -, redirects⟩
      rcases redirectRegion_eq_ok (redirects upToDate) with
        ⟨generation, redirected, httpParams, sets⟩
      have placed := ((S3AuthParams.setRegion_spec sets).2 named).1
      have carries : ∀ refreshed, latestRefreshed world.trace = some refreshed →
          Carries refreshed (some region) replacement := fun refreshed isRefreshed =>
        (consistent.refreshed refreshed isRefreshed).redirect httpParams sets named
      apply consistent.publish rfl noEvents
      · apply single
        rw [Allowed, consistent.current]
        exact ⟨generation, sets, placed, httpParams, carries⟩
      · omega
      · rw [redirected]
        rfl
      · rintro other ⟨⟩
        exact ⟨named, placed⟩
      · exact carries
      · exact attempts

end Steps

end Httpfs.S3.Session
