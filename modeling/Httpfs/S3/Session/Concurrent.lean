import Httpfs.S3.Session.Publications

/-!
# All runs of the requests on one session

No interleaving of refreshes and redirects loses what one of them published.
-/

namespace Httpfs.S3.Session

open Http Text
open Httpfs.Transition
open Httpfs.Transition.Monitor

universe u

variable {ι : Type u} [DecidableEq ι] {start : S3RequestSnapshot} {world later : RequestWorld ι}

/-- A step of any request keeps the invariant and the past. -/
theorem Consistent.step {next : RequestWorld ι} {thread : ι} {choice : Choice}
    (consistent : Consistent start world)
    (stepped : Monitor.step program world thread choice = some next) :
    Consistent start next ∧ world.trace <+: next.trace := by
  rcases step_cases stepped with
    ⟨-, ⟨waits, rfl⟩ | ⟨session, control, events, notify, advances, rfl⟩⟩
  · rcases requestStep_cases waits with ⟨_, _, _, impossible, -⟩
    contradiction
  · rcases requestStep_cases advances with ⟨next, here, emitted, same, transition⟩
    cases same
    exact ⟨consistent.advance transition, List.prefix_append _ _⟩

theorem Consistent.run (consistent : Consistent start world) (run : Run program world later) :
    Consistent start later ∧ world.trace <+: later.trace := by
  apply run.invariant (motive := fun reached =>
    Consistent start reached ∧ world.trace <+: reached.trace)
  · rintro reached next thread choice ⟨holds, extends'⟩ - stepped
    rcases holds.step stepped with ⟨holdsNext, further⟩
    exact ⟨holdsNext, extends'.trans further⟩
  · exact ⟨consistent, List.prefix_rfl⟩

/-- The generation of a session never decreases. -/
theorem Consistent.generation_le (consistent : Consistent start world)
    (run : Run program world later) :
    world.shared.currentSnapshot.credentialGeneration ≤
      later.shared.currentSnapshot.credentialGeneration := by
  rcases consistent.run run with ⟨holds, new, isLater⟩
  apply holds.generations
  rw [← isLater, ← consistent.current]
  exact mem_published_append (latest_mem_published start world.trace)

omit [DecidableEq ι] in
theorem latest_concat (past : List (ι × Event)) (entry : ι × Event) :
    latest start (past ++ [entry]) = entry.2.published.getD (latest start past) := by
  rw [latest, last_append, latest]
  cases publishes : entry.2.published with
  | none => simp [last, publishes]
  | some snapshot => simp [last, publishes]

/-- The latest snapshot has the greatest generation of all. -/
theorem generation_le_latest {past : List (ι × Event)} (guarded : Guarded (Allowed start) past) :
    ∀ snapshot ∈ published start past,
      snapshot.credentialGeneration ≤ (latest start past).credentialGeneration := by
  induction past using List.reverseRecOn with
  | nil =>
      intro snapshot member
      rw [List.mem_singleton.mp member]
      exact le_rfl
  | append_singleton past entry inductionHypothesis =>
      have earlier := inductionHypothesis fun before event after split =>
        guarded before event (after ++ [entry]) (by simp [split])
      have allowed := guarded past entry [] rfl
      have grows : (latest start past).credentialGeneration ≤
          (latest start (past ++ [entry])).credentialGeneration := by
        rw [latest_concat]
        rcases entry with ⟨thread, event⟩
        cases event with
        | refreshPublished refreshed snapshot =>
            have next := allowed.2.1
            change _ ≤ snapshot.credentialGeneration
            omega
        | regionPublished region snapshot =>
            exact allowed.1.ge
        | reloaded | refreshReturned | threw => exact le_rfl
      intro snapshot member
      rcases mem_published_concat.mp member with old | new
      · exact (earlier snapshot old).trans grows
      · rw [latest_concat, new]
        exact le_rfl

/-- Of two requests that failed with one generation only one publishes a refresh. -/
theorem refreshesTo_le_one {past : List (ι × Event)} (guarded : Guarded (Allowed start) past)
    (generation : Nat) :
    past.countP (fun entry => entry.2.refreshesTo generation) ≤ 1 := by
  have bounded : Guarded (fun before entry => Allowed start before entry ∧
      ∀ snapshot ∈ published start before,
        snapshot.credentialGeneration ≤ (latest start before).credentialGeneration) past := by
    intro before entry after split
    refine ⟨guarded before entry after split, generation_le_latest ?_⟩
    intro front event back cut
    exact guarded front event (back ++ entry :: after) (by simp [split, cut])
  apply bounded.countP_le_one
  rintro before ⟨thread, event⟩ ⟨allowed, earlier⟩ refreshes ⟨other, past⟩ member
  cases event with
  | refreshPublished refreshed snapshot =>
      have isNext : snapshot.credentialGeneration = generation := beq_iff_eq.mp refreshes
      have next := allowed.2.1
      cases past with
      | refreshPublished otherRefreshed otherSnapshot =>
          have published : otherSnapshot ∈ published start before :=
            List.mem_cons_of_mem _ (List.mem_filterMap.mpr ⟨_, member, rfl⟩)
          have bound := earlier otherSnapshot published
          exact beq_eq_false_iff_ne.mpr (by omega)
      | reloaded | regionPublished | refreshReturned | threw => rfl
  | reloaded | regionPublished | refreshReturned | threw => contradiction

/-- Whatever the interleaving of refreshes and redirects on a session: the
generation never decreases and every value is published by one refresh at most;
a refresh publishes the credentials it came back with, in the region of the
latest redirect; a redirect keeps the credentials and HTTP parameters; and a
refresh that succeeds has seen a newer generation than its attempt had. -/
theorem session_keepsUpdates (fresh : start.regionRedirected = false)
    (run : Run program (initialWorld start) world) :
    (∀ later, Run program world later →
        world.shared.currentSnapshot.credentialGeneration ≤
          later.shared.currentSnapshot.credentialGeneration) ∧
      (∀ generation,
        world.trace.countP (fun entry => entry.2.refreshesTo (generation + 1)) ≤ 1) ∧
      (∀ past thread refreshed snapshot rest,
        world.trace = past ++ (thread, .refreshPublished refreshed snapshot) :: rest →
          lastReloaded thread past = some refreshed ∧
            snapshot.credentialGeneration = (latest start past).credentialGeneration + 1 ∧
            Carries refreshed (latestRegion past) snapshot) ∧
      (∀ past thread region snapshot rest,
        world.trace = past ++ (thread, .regionPublished region snapshot) :: rest →
          snapshot.credentialGeneration = (latest start past).credentialGeneration ∧
            snapshot.authParams.credentials = (latest start past).authParams.credentials ∧
            snapshot.authParams.region = region ∧
            S3RefreshableHTTPParams.ofParams snapshot.params =
              .ofParams (latest start past).params ∧
            ∀ refreshed, latestRefreshed past = some refreshed →
              Carries refreshed (some region) snapshot) ∧
      ∀ past thread failed rest,
        world.trace = past ++ (thread, .refreshReturned failed true) :: rest →
          ∃ snapshot ∈ published start past,
            failed.credentialGeneration < snapshot.credentialGeneration := by
  have consistent := ((Consistent.initial fresh).run run).1
  refine ⟨fun later => consistent.generation_le,
    fun generation => refreshesTo_le_one consistent.guarded (generation + 1), ?_, ?_, ?_⟩
  · intro past thread refreshed snapshot rest split
    exact consistent.guarded past _ rest split
  · intro past thread region snapshot rest split
    rcases consistent.guarded past _ rest split with
      ⟨generation, sets, placed, httpParams, carries⟩
    exact ⟨generation, (S3AuthParams.setRegion_spec sets).1, placed, httpParams, carries⟩
  · intro past thread failed rest split
    exact consistent.guarded past _ rest split

/-- A refresh whose reading takes so long that the session is redirected first. -/
private def slowRefresh : List (Bool × Choice) :=
  let stale : Reading := ⟨.ok {}, {}⟩
  let fresh : Reading := ⟨.ok { accessKeyId := "fresh".toList }, {}⟩
  [(true, .refresh), (true, .answer ⟨true, fresh, stale, .ok false, stale⟩),
    (false, .setRegion "eu-west-1".toList (by decide)), (false, .proceed), (true, .proceed),
    (false, .proceed), (true, .proceed), (true, .proceed), (true, .proceed)]

theorem session_keepsUpdates_slowRefresh :
    (play program (initialWorld ⟨{}, {}, [], true, false, 0⟩) slowRefresh).trace.countP
        (fun entry => entry.2.refreshesTo 1) ≤ 1 ∧
      (play program (initialWorld ⟨{}, {}, [], true, false, 0⟩)
          slowRefresh).shared.currentSnapshot.authParams =
        { accessKeyId := "fresh".toList
          region := "eu-west-1".toList
          endpoint := "s3.eu-west-1.amazonaws.com".toList } :=
  ⟨(session_keepsUpdates rfl (run_play _ _ slowRefresh)).2.1 0, rfl⟩

end Httpfs.S3.Session
