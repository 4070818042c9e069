import Httpfs.S3.Handle.Finalized
import Httpfs.S3.Upload.Trace

/-!
# Aborting the upload of a handle

The session of a handle outlives every call that uses it, no claim is granted
while an abort holds the state at `ABORTING`, and an abort that finds the
session finalized gives the handle back.

An `AbortUpload` that waits for another one has not set the state yet, so a
claim may be granted although it has been called.  A finalize that meets an
abort at `ABORTING` is refused even if that abort ends by giving the handle
back.
-/

namespace Httpfs.S3.Handle

open Httpfs.S3.Upload (Choice Env answered smallEnv)
open Httpfs.Transition.Monitor

universe u

section Handles

variable {ι : Type u} [DecidableEq ι] {env : Env} {openForWriting : Bool}
  {operations : ι → Operation} {world : HandleWorld ι}

/-- Only an abort that gives the handle back leaves `ABORTING` for good. -/
theorem Transition.active_of_abortLeft {operation : Operation} {handle next : S3FileHandle}
    {control here : Control} {events : List Event} {notify : Bool}
    (transition : Transition env operation handle control next here events notify)
    (member : .abortLeft false ∈ events) : next.uploadState = .active := by
  induction transition with
  | keepSession => rfl
  | call | abortCall => simp at member
  | _ => simp at member

/-- A step that reports a new event of its thread is an advance that emits
it. -/
theorem emits_of_step {thread : ι} {choice : Choice} {next : HandleWorld ι} {event : Event}
    (stepped : step (program env openForWriting operations) world thread choice = some next)
    (fresh : (thread, event) ∉ world.trace) (reported : (thread, event) ∈ next.trace) :
    ∃ here events notify, Transition env (operations thread) world.shared
      (world.control thread) next.shared here events notify ∧ event ∈ events := by
  rcases step_cases stepped with
    ⟨awake, ⟨waits, rfl⟩ | ⟨shared, here, events, notify, steps, rfl⟩⟩
  · exact absurd reported fresh
  · rcases List.mem_append.mp reported with old | new
    · exact absurd old fresh
    · rcases List.mem_map.mp new with ⟨found, member, same⟩
      cases same
      exact ⟨here, events, notify, transition_of_handleStep steps, member⟩

/-- A finalize that is refused by a handle whose session is finalized has met
an abort at `ABORTING`. -/
theorem Reachable.refused_finalized (reachable : Reachable env openForWriting operations world)
    (finalized : world.shared.Finalized) {thread : ι}
    (refused : (thread, .refused) ∈ world.trace) :
    ∃ before after, world.trace = before ++ (thread, .refused) :: after ∧ AbortOpen before := by
  rcases List.append_of_mem refused with ⟨before, after, split⟩
  refine ⟨before, after, split, ?_⟩
  have trace := reachable.abortTrace
  rcases trace.guarded before _ after split with «open» | ⟨other, ended⟩
  · exact «open»
  · have aborted := trace.terminal.mp ⟨other, by rw [split]; exact List.mem_append_left _ ended⟩
    exact absurd aborted (reachable.attached finalized).1

/-- In every interleaving of the calls on a handle its session exists as long
as a claim on it is alive or one of its calls runs; a claim is granted only
when every abort that has set `ABORTING` has ended without terminating the
upload; one abort at a time is inside the session; and the pointer is null
exactly when the upload is aborted or the handle never had one.  An abort
whose session is finalized returns and leaves the handle active, and a finalize
that begins later returns unless its claim meets another abort at
`ABORTING`. -/
theorem abortUpload_excludes (env : Env) (openForWriting : Bool) (operations : ι → Operation)
    (reachable : Reachable env openForWriting operations world) :
    (world.shared.session = none → ∀ thread, (world.control thread).usesSession = false) ∧
    (∀ before thread after, world.trace = before ++ (thread, .granted) :: after →
      ∀ other, (other, .aborting) ∈ before → (other, .abortLeft false) ∈ before) ∧
    (∀ first second pc other, world.control first = .aborting pc →
      world.control second = .aborting other → first = second) ∧
    (world.shared.uploadSession = false ↔
      world.shared.uploadState = .aborted ∨ openForWriting = false) ∧
    (∀ thread choice next,
      step (program env openForWriting operations) world thread choice = some next →
      (thread, .abortLeft false) ∉ world.trace → (thread, .abortLeft false) ∈ next.trace →
        next.shared.uploadState = .active) ∧
    (world.shared.Finalized → ∀ later, Run (program env openForWriting operations) world later →
      (∀ thread result, operations thread = .abortUpload →
        world.control thread = .idle ∨ world.control thread = .beginAbort ∨
          world.control thread = .aborting .start →
        later.control thread = .done result →
          result = .returned ∧ (thread, .abortLeft false) ∈ later.trace) ∧
      (∀ thread result, operations thread = .finalizeUpload → world.control thread = .idle →
        later.control thread = .done result →
          result = .returned ∨
            (result = .threw (.io "Cannot finalize an aborted S3 upload") ∧
              ∃ before after, later.trace = before ++ (thread, .refused) :: after ∧
                AbortOpen before)) ∧
      (later.shared.uploadState = .active → ∀ thread choice,
        operations thread = .finalizeUpload → later.control thread = .idle →
          (play (program env openForWriting operations) later
            (List.replicate 4 (thread, choice))).control thread = .done .returned)) := by
  have owned := reachable.owned
  refine ⟨?_, ?_, ?_, ?_, ?_, ?_⟩
  · intro destroyed thread
    by_contra uses
    have alive := owned.session_isSome (by simpa using uses)
    rw [destroyed] at alive
    contradiction
  · intro before thread after split
    exact reachable.abortTrace.guarded before _ after split
  · intro first second pc other firstAborts secondAborts
    exact owned.inAbort_unique (by rw [firstAborts]; rfl) (by rw [secondAborts]; rfl)
  · rw [← Bool.not_eq_true, owned.coherent.attached]
    cases openForWriting with
    | true => simp
    | false => simp
  · intro thread choice next stepped fresh reported
    rcases emits_of_step stepped fresh reported with
      ⟨here, events, notify, transition, member⟩
    exact transition.active_of_abortLeft member
  · intro finalized later run
    rcases reachable.finalized_run finalized run with ⟨reached, stays, keeps, returns⟩
    refine ⟨?_, ?_, ?_⟩
    · intro thread result aborts start ended
      have kept : AbortKeeps later.trace thread (later.control thread) := by
        apply keeps thread aborts
        rcases start with idle | begins | enters
        · rw [idle]
          trivial
        · rw [begins]
          trivial
        · rw [enters]
          rfl
      rw [ended] at kept
      exact kept
    · intro thread result finalizes idle ended
      have returned : FinalizeReturns later.trace thread (later.control thread) := by
        apply returns thread finalizes
        rw [idle]
        trivial
      rw [ended] at returned
      rcases returned with returned | ⟨threw, refused⟩
      · exact Or.inl returned
      · exact Or.inr ⟨threw, reached.refused_finalized stays refused⟩
    · intro active thread choice finalizes idle
      exact reached.finalizeUpload_returns stays active finalizes idle choice

end Handles

/-! ## Two aborts and three finalizes -/

/-- The first call finalizes an empty upload; the second and the third abort
it, the others finalize again. -/
def finalizedCalls : Fin 5 → Operation
  | 0 | 3 | 4 => .finalizeUpload
  | 1 | 2 => .abortUpload

/-- The server stored the object. -/
def stored : Choice :=
  answered (.ok ⟨200, "", [("ETag", "etag")], ""⟩)

/-- The third call waits for the second.  When that one has given the handle
back, the fourth is granted a claim before the third goes on, and the fifth is
refused after. -/
def waitingAbort : HandleWorld (Fin 5) :=
  play (program smallEnv true finalizedCalls) (initialWorld true)
    ([0, 0, 0, 0, 0, 0, 0, 0, 1, 1, 2, 2, 1, 1, 3, 3, 4, 2, 4].map fun call => (call, stored))

theorem waitingAbort_trace : waitingAbort.trace =
    [(0, .begun), (0, .granted), (0, .session (.singlePut [])), (0, .session .published),
      (0, .released), (1, .begun), (1, .aborting), (2, .begun), (1, .abortLeft false),
      (3, .begun), (3, .granted), (4, .begun), (2, .aborting), (4, .refused)] := by
  decide +kernel

theorem waitingAbort_finalized : waitingAbort.shared.Finalized := by
  have state : waitingAbort.shared.session.map Upload.Session.lifecycleState =
      some .finalized := by
    decide +kernel
  rcases Option.map_eq_some_iff.mp state with ⟨session, alive, finalized⟩
  exact ⟨session, alive, finalized⟩

/-- When the fourth call is granted its claim, the second has given the handle
back and the third is not yet at `ABORTING`. -/
theorem abortUpload_excludes_waitingAbort :
    waitingAbort.shared.Finalized ∧
      ∀ other, (other, .aborting) ∈ waitingAbort.trace.take 10 →
        (other, .abortLeft false) ∈ waitingAbort.trace.take 10 := by
  have reachable : Reachable smallEnv true finalizedCalls waitingAbort := run_play _ _ _
  have split : waitingAbort.trace =
      waitingAbort.trace.take 10 ++ (3, .granted) :: waitingAbort.trace.drop 11 := by
    rw [waitingAbort_trace]
    rfl
  exact ⟨waitingAbort_finalized,
    (abortUpload_excludes smallEnv true finalizedCalls reachable).2.1 _ 3 _ split⟩

/-- A claim is granted while an `AbortUpload` that has begun is not over, and
a finalize that begins after an abort of the finalized session has given the
handle back throws. -/
theorem waitingAbort_interferes :
    Reachable smallEnv true finalizedCalls waitingAbort ∧
    (∃ before after, waitingAbort.trace = before ++ (3, .granted) :: after ∧
      (2, .begun) ∈ before ∧ waitingAbort.control 2 = .aborting .start) ∧
    ∃ before after, waitingAbort.trace = before ++ (4, .begun) :: after ∧
      (0, .session .published) ∈ before ∧ (1, .abortLeft false) ∈ before ∧
        waitingAbort.control 4 = .done (.threw (.io "Cannot finalize an aborted S3 upload")) := by
  refine ⟨run_play _ _ _, ⟨waitingAbort.trace.take 10, waitingAbort.trace.drop 11, ?_⟩,
    ⟨waitingAbort.trace.take 11, waitingAbort.trace.drop 12, ?_⟩⟩
  · rw [waitingAbort_trace]
    exact ⟨rfl, by decide, by decide +kernel⟩
  · rw [waitingAbort_trace]
    exact ⟨rfl, by decide, by decide, by decide +kernel⟩

end Httpfs.S3.Handle
