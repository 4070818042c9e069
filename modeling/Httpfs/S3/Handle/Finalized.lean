import Httpfs.S3.Handle.Claims
import Httpfs.S3.Upload.Lifecycle

/-!
# The session calls of a handle

What the calls on a handle do inside the session is a run of the session's own
program, so what holds of every session holds of the session of a handle.
Once that session is finalized it is there for good: an abort gives the handle
back, and a finalize returns unless it meets an abort in between.
-/

namespace Httpfs.S3.Handle

open Httpfs.S3.Upload (CallResult Choice Env LifecycleState Pc Session UploadWorld callStep)
open Httpfs.Transition
open Httpfs.Transition.Monitor

universe u

variable {ι : Type u} [DecidableEq ι] {env : Env} {openForWriting : Bool}
  {operations : ι → Operation} {world : HandleWorld ι}

/-! ## The session run -/

/-- Where the session call of an operation is while the operation is at a
control point of the handle. -/
def AtSession (operation : Operation) (pc : Pc) : Control → Prop
  | .idle => pc = .start
  | .claimUpload => pc = .start
  | .claimed here => pc = here
  | .releaseUpload result => pc = .done result
  | .beginAbort => pc = .start ∧ operation = .abortUpload
  | .aborting here => pc = here ∧ operation = .abortUpload
  | .endAbort result => pc = .done result ∧ operation = .abortUpload
  | .resetSession result =>
      pc = .done result ∧ operation = .abortUpload ∧ result ≠ .aborted false
  | .done _ => True

/-- A run of the session that does what the calls on the handle did. -/
structure Follows (env : Env) (operations : ι → Operation) (world : HandleWorld ι)
    (session : UploadWorld ι) : Prop where
  reachable : Upload.Reachable env (fun thread => (operations thread).call) session
  awake : ∀ thread, session.asleep thread = false
  shared : ∀ state, world.shared.session = some state → session.shared = state
  control : ∀ thread,
    AtSession (operations thread) (session.control thread) (world.control thread)

theorem atSession_underClaim {operation : Operation} {pc here : Pc} (same : pc = here) :
    AtSession operation pc (underClaim here) := by
  cases here <;> exact same

theorem atSession_underAbort {operation : Operation} {pc here : Pc} (same : pc = here)
    (aborts : operation = .abortUpload) : AtSession operation pc (underAbort here) := by
  cases here <;> exact ⟨same, aborts⟩

/-- A step of the handle that is not one of the session. -/
theorem Follows.outside {session : UploadWorld ι} (follows : Follows env operations world session)
    {thread : ι} {next : S3FileHandle} {here : Control} {events : List Event} {notify : Bool}
    (keeps : ∀ state, next.session = some state → world.shared.session = some state)
    (present : AtSession (operations thread) (session.control thread) here) :
    Follows env operations (world.advance thread next here events notify) session where
  reachable := follows.reachable
  awake := follows.awake
  shared := fun state alive => follows.shared state (keeps state alive)
  control := fun other => by
    by_cases same : other = thread
    · subst same
      simpa [World.advance] using present
    · simpa [World.advance, same] using follows.control other

/-- A step inside the session. -/
theorem Follows.inside {session : UploadWorld ι} (follows : Follows env operations world session)
    {thread : ι} {choice : Choice} {state changed : Session} {target : Pc}
    {emitted : List Upload.Event} {next : S3FileHandle} {here : Control} {events : List Event}
    {notify : Bool} (alive : world.shared.session = some state)
    (steps : callStep env (operations thread).call state (session.control thread) choice =
      some (.advance changed target emitted notify))
    (holds : next.session = some changed)
    (present : ∀ pc, pc = target → AtSession (operations thread) pc here) :
    ∃ session, Follows env operations (world.advance thread next here events notify) session := by
  have here := follows.shared state alive
  have stepped : step (Upload.program env fun thread => (operations thread).call) session thread
      choice = some (session.advance thread changed target emitted notify) := by
    apply step_of_advance (follows.awake thread)
    rw [here]
    exact steps
  refine ⟨session.advance thread changed target emitted notify, ?_⟩
  constructor
  · exact follows.reachable.tail ⟨thread, choice, trivial, stepped⟩
  · intro other
    cases notify with
    | true => rfl
    | false => exact follows.awake other
  · intro state alive
    exact Option.some.inj (holds.symm.trans alive)
  · intro other
    by_cases same : other = thread
    · subst same
      simpa [World.advance] using present target rfl
    · simpa [World.advance, same] using follows.control other

theorem Follows.advance {session : UploadWorld ι} (follows : Follows env operations world session)
    {thread : ι} {next : S3FileHandle} {here : Control} {events : List Event} {notify : Bool}
    (transition : Transition env (operations thread) world.shared (world.control thread)
      next here events notify) :
    ∃ session, Follows env operations (world.advance thread next here events notify) session := by
  have known := follows.control thread
  generalize operation : operations thread = op at transition known
  generalize located : world.control thread = control at transition known
  generalize handle : world.shared = shared at transition
  subst operation
  induction transition with
  | call alive steps =>
      subst handle
      exact follows.inside alive (known ▸ steps) rfl fun pc same => atSession_underClaim same
  | abortCall alive steps =>
      subst handle
      exact follows.inside alive (known.1 ▸ steps) rfl
        fun pc same => atSession_underAbort same known.2
  | begin claims => exact ⟨session, follows.outside (fun _ alive => handle ▸ alive) known⟩
  | beginAbortUpload aborts =>
      exact ⟨session, follows.outside (fun _ alive => handle ▸ alive) ⟨known, aborts⟩⟩
  | claim active present =>
      exact ⟨session, follows.outside (fun _ alive => handle ▸ alive) known⟩
  | startAbort active present =>
      exact ⟨session, follows.outside (fun _ alive => handle ▸ alive) known⟩
  | detach terminal unused =>
      exact ⟨session, follows.outside (fun _ alive => handle ▸ alive) ⟨known.1, known.2, terminal⟩⟩
  | reset => exact ⟨session, follows.outside (fun _ alive => by contradiction) trivial⟩
  | _ => exact ⟨session, follows.outside (fun _ alive => handle ▸ alive) trivial⟩

/-- The calls on a handle run its session as the session's program does. -/
theorem Reachable.follows (reachable : Reachable env openForWriting operations world) :
    ∃ session, Follows env operations world session := by
  refine (reachable.invariant (motive := fun world => ∃ session,
    Follows env operations world session) ⟨Upload.initialWorld, ?_⟩ ?_ ?_).2
  · refine ⟨Relation.ReflTransGen.refl, fun _ => rfl, fun state alive => ?_, fun _ => rfl⟩
    cases openForWriting with
    | true => exact Option.some.inj alive
    | false => contradiction
  · rintro world thread next here events notify _ ⟨session, follows⟩ transition
    exact follows.advance transition
  · rintro world thread ⟨session, follows⟩ _
    exact ⟨session, { follows with }⟩

/-! ## A finalized session -/

namespace S3FileHandle

/-- The session is there and has been finalized. -/
def Finalized (handle : S3FileHandle) : Prop :=
  ∃ session, handle.session = some session ∧ session.lifecycleState = .finalized

end S3FileHandle

/-- The handle of a finalized session keeps it. -/
theorem Reachable.attached (reachable : Reachable env openForWriting operations world)
    (finalized : world.shared.Finalized) :
    world.shared.uploadState ≠ .aborted ∧ world.shared.uploadSession = true := by
  rcases finalized with ⟨state, alive, finalized⟩
  have exists? : world.shared.session.isSome = true := by rw [alive]; rfl
  have unaborted : world.shared.uploadState ≠ .aborted := by
    intro aborted
    have single := reachable.owned.resetter
    rw [S3FileHandle.resetters, aborted, exists?] at single
    rcases single.exists_role Nat.one_pos with ⟨thread, resets⟩
    rcases reachable.follows with ⟨session, follows⟩
    have known := follows.control thread
    cases here : world.control thread <;> rw [here] at resets known
    case resetSession result =>
      rcases known with ⟨ended, aborts, terminal⟩
      rcases follows.reachable.abortEnds (congrArg Operation.call aborts) ended with
        ⟨kept, _⟩ | ⟨_, gone⟩
      · exact terminal kept
      · rw [follows.shared state alive, finalized] at gone
        contradiction
    all_goals contradiction
  have coherent := reachable.owned.coherent
  exact ⟨unaborted, coherent.attached.mpr ⟨coherent.opened exists?, unaborted⟩⟩

/-- A step inside a finalized session leaves it finalized. -/
theorem Follows.finalized {session : UploadWorld ι}
    (follows : Follows env operations world session) {thread : ι} {choice : Choice}
    {state changed : Session} {target : Pc} {emitted : List Upload.Event} {notify : Bool}
    (alive : world.shared.session = some state) (finalized : state.lifecycleState = .finalized)
    (steps : callStep env (operations thread).call state (session.control thread) choice =
      some (.advance changed target emitted notify)) :
    changed.lifecycleState = .finalized := by
  rw [← follows.shared state alive] at steps finalized
  exact follows.reachable.control.finalized_step finalized steps

theorem Reachable.finalized_advance (reachable : Reachable env openForWriting operations world)
    (finalized : world.shared.Finalized) {thread : ι} {next : S3FileHandle} {here : Control}
    {events : List Event} {notify : Bool}
    (transition : Transition env (operations thread) world.shared (world.control thread)
      next here events notify) : next.Finalized := by
  have attached := reachable.attached finalized
  rcases finalized with ⟨state, alive, finalized⟩
  rcases reachable.follows with ⟨session, follows⟩
  have known := follows.control thread
  have counted := reachable.owned.counted thread
  generalize located : world.control thread = control at transition known counted
  generalize handle : world.shared = shared at transition
  induction transition with
  | call exists? steps =>
      have same := Option.some.inj ((handle ▸ alive).symm.trans exists?)
      subst same
      exact ⟨_, rfl, follows.finalized alive finalized (known ▸ steps)⟩
  | abortCall exists? steps =>
      have same := Option.some.inj ((handle ▸ alive).symm.trans exists?)
      subst same
      exact ⟨_, rfl, follows.finalized alive finalized (known.1 ▸ steps)⟩
  | reset => exact absurd (counted.resetting rfl) attached.1
  | _ => exact ⟨state, handle ▸ alive, finalized⟩

/-! ## Calls that meet a finalized session -/

/-- An `AbortUpload` that has not looked at the session yet, or has found it
finalized and given the handle back. -/
def AbortKeeps (trace : List (ι × Event)) (thread : ι) : Control → Prop
  | .idle | .beginAbort => True
  | .aborting pc => pc = .start
  | .endAbort result => result = .aborted false
  | .done result => result = .returned ∧ (thread, .abortLeft false) ∈ trace
  | _ => False

/-- A `FinalizeUpload` that has not looked at the session yet, has found it
finalized, or has been refused. -/
def FinalizeReturns (trace : List (ι × Event)) (thread : ι) : Control → Prop
  | .idle | .claimUpload => True
  | .claimed pc => pc = .start
  | .releaseUpload result => result = .returned
  | .done result => result = .returned ∨
      (result = .threw (refusal .finalizeUpload) ∧ (thread, .refused) ∈ trace)
  | _ => False

omit [DecidableEq ι] in
theorem AbortKeeps.append {trace : List (ι × Event)} {thread : ι} {control : Control}
    (keeps : AbortKeeps trace thread control) (new : List (ι × Event)) :
    AbortKeeps (trace ++ new) thread control := by
  cases control with
  | done result => exact ⟨keeps.1, List.mem_append_left _ keeps.2⟩
  | _ => exact keeps

omit [DecidableEq ι] in
theorem FinalizeReturns.append {trace : List (ι × Event)} {thread : ι} {control : Control}
    (returns : FinalizeReturns trace thread control) (new : List (ι × Event)) :
    FinalizeReturns (trace ++ new) thread control := by
  cases control with
  | done result =>
      rcases returns with returned | ⟨threw, refused⟩
      · exact Or.inl returned
      · exact Or.inr ⟨threw, List.mem_append_left _ refused⟩
  | _ => exact returns

/-- `S3UploadSession::Abort` of a finalized session. -/
theorem callStep_abort_finalized {session : Session} {choice : Choice}
    (finalized : session.lifecycleState = .finalized) :
    callStep env .abort session .start choice =
      some (.advance session (.done (.aborted false)) [] false) := by
  simp [callStep, Upload.beginCall, Upload.beginAbort, finalized, Upload.quietly]

/-- `S3UploadSession::Finalize` of a finalized session. -/
theorem callStep_finalize_finalized {session : Session} {choice : Choice}
    (coherent : Upload.Coherent session) (finalized : session.lifecycleState = .finalized) :
    callStep env .finalize session .start choice =
      some (.advance session (.done .returned) [] false) := by
  rcases coherent.finalized finalized with ⟨idle, healthy⟩
  simp [callStep, Upload.beginCall, Upload.beginFinalize, Upload.cleanupPending, finalized, idle,
    healthy, Upload.quietly]

omit [DecidableEq ι] in
theorem AbortKeeps.step {trace : List (ι × Event)} {thread : ι} {handle next : S3FileHandle}
    {control here : Control} {events : List Event} {notify : Bool}
    (keeps : AbortKeeps trace thread control) (finalized : handle.Finalized)
    (attached : handle.uploadState ≠ .aborted ∧ handle.uploadSession = true)
    (transition : Transition env .abortUpload handle control next here events notify) :
    AbortKeeps (trace ++ events.map fun event => (thread, event)) thread here := by
  induction transition with
  | reject writes claims => exact absurd rfl claims
  | begin claims => exact absurd rfl claims
  | beginAbortUpload aborts => trivial
  | nothingToAbort nothing =>
      rcases nothing with aborted | absent
      · exact absurd aborted attached.1
      · rw [attached.2] at absent
        contradiction
  | startAbort active present => rfl
  | abortCall alive steps =>
      rcases finalized with ⟨session, exists?, finalized⟩
      cases exists?.symm.trans alive
      cases keeps
      cases (callStep_abort_finalized finalized).symm.trans steps
      rfl
  | keepSession => exact ⟨rfl, by simp⟩
  | detach terminal unused => exact absurd keeps terminal
  | refuse | noSession | claim | call | release | reset => exact keeps.elim

omit [DecidableEq ι] in
theorem FinalizeReturns.step {trace : List (ι × Event)} {thread : ι}
    {handle next : S3FileHandle} {control here : Control} {events : List Event} {notify : Bool}
    (returns : FinalizeReturns trace thread control) (finalized : handle.Finalized)
    (coherent : ∀ session, handle.session = some session → Upload.Coherent session)
    (transition : Transition env .finalizeUpload handle control next here events notify) :
    FinalizeReturns (trace ++ events.map fun event => (thread, event)) thread here := by
  induction transition with
  | reject writes claims => exact absurd rfl writes
  | begin claims => trivial
  | beginAbortUpload aborts => contradiction
  | refuse inactive => exact Or.inr ⟨rfl, by simp⟩
  | noSession active absent => exact Or.inl rfl
  | claim active present => rfl
  | call alive steps =>
      rcases finalized with ⟨session, exists?, finalized⟩
      cases exists?.symm.trans alive
      cases returns
      cases (callStep_finalize_finalized (coherent _ alive) finalized).symm.trans steps
      rfl
  | release =>
      cases returns
      exact Or.inl rfl
  | nothingToAbort | startAbort | abortCall | keepSession | detach | reset => exact returns.elim

/-- Once the session is finalized it stays, and every later call keeps to
it. -/
theorem Reachable.finalized_run (reachable : Reachable env openForWriting operations world)
    (finalized : world.shared.Finalized) {later : HandleWorld ι}
    (run : Run (program env openForWriting operations) world later) :
    Reachable env openForWriting operations later ∧ later.shared.Finalized ∧
      (∀ thread, operations thread = .abortUpload →
        AbortKeeps world.trace thread (world.control thread) →
          AbortKeeps later.trace thread (later.control thread)) ∧
      ∀ thread, operations thread = .finalizeUpload →
        FinalizeReturns world.trace thread (world.control thread) →
          FinalizeReturns later.trace thread (later.control thread) := by
  induction run with
  | refl => exact ⟨reachable, finalized, fun _ _ keeps => keeps, fun _ _ returns => returns⟩
  | @tail middle final _ last inductionHypothesis =>
      rcases inductionHypothesis with ⟨reached, finalized, keeps, returns⟩
      rcases last with ⟨actor, choice, admitted, stepped⟩
      have onward : Reachable env openForWriting operations final :=
        reached.tail ⟨actor, choice, admitted, stepped⟩
      refine ⟨onward, ?_⟩
      rcases step_cases stepped with
        ⟨awake, ⟨waits, rfl⟩ | ⟨shared, here, events, notify, steps, rfl⟩⟩
      · exact ⟨finalized, keeps, returns⟩
      · have transition := transition_of_handleStep steps
        have attached := reached.attached finalized
        have coherent (session : Session) (alive : middle.shared.session = some session) :
            Upload.Coherent session := by
          rcases reached.follows with ⟨sessions, follows⟩
          rw [← follows.shared session alive]
          exact follows.reachable.control.coherent
        refine ⟨reached.finalized_advance finalized transition, ?_, ?_⟩
        · intro thread aborts start
          have before := keeps thread aborts start
          by_cases same : thread = actor
          · subst same
            rw [aborts] at transition
            simpa [World.advance] using before.step finalized attached transition
          · simpa [World.advance, same] using before.append _
        · intro thread finalizes start
          have before := returns thread finalizes start
          by_cases same : thread = actor
          · subst same
            rw [finalizes] at transition
            simpa [World.advance] using before.step finalized coherent transition
          · simpa [World.advance, same] using before.append _

/-! ## A later finalize -/

omit [DecidableEq ι] in
theorem Transition.begun {operation : Operation} {handle next : S3FileHandle}
    {control here : Control} {events : List Event} {notify : Bool}
    (transition : Transition env operation handle control next here events notify) :
    here ≠ .idle := by
  induction transition with
  | call alive steps =>
      unfold underClaim
      split <;> exact nofun
  | abortCall alive steps =>
      unfold underAbort
      split <;> exact nofun
  | _ => exact nofun

/-- A call that has not begun does not sleep. -/
theorem Reachable.awake (reachable : Reachable env openForWriting operations world) {thread : ι}
    (idle : world.control thread = .idle) : world.asleep thread = false := by
  have sleepers := (reachable.invariant (motive := fun world => ∀ thread,
    world.control thread = .idle → world.asleep thread = false) (fun _ _ => rfl) ?_ ?_).2
  · exact sleepers thread idle
  · intro world actor next here events notify _ awake transition thread idle
    by_cases same : thread = actor
    · subst same
      rw [show (world.advance thread next here events notify).control thread = here by
        simp [World.advance]] at idle
      exact absurd idle transition.begun
    · have before := awake thread (by simpa [World.advance, same] using idle)
      cases notify with
      | true => rfl
      | false => exact before
  · intro world actor awake busy thread idle
    by_cases same : thread = actor
    · subst same
      exact absurd idle busy
    · simpa [World.sleep, same] using awake thread idle

/-- On an active handle whose session is finalized a finalize succeeds in four
steps of its own, whatever the environment answers. -/
theorem Reachable.finalizeUpload_returns
    (reachable : Reachable env openForWriting operations world)
    (finalized : world.shared.Finalized) (active : world.shared.uploadState = .active)
    {thread : ι} (finalizes : operations thread = .finalizeUpload)
    (idle : world.control thread = .idle) (choice : Choice) :
    (play (program env openForWriting operations) world
      (List.replicate 4 (thread, choice))).control thread = .done .returned := by
  have attached := (reachable.attached finalized).2
  have awake := reachable.awake idle
  rcases finalized with ⟨session, alive, finalized⟩
  have coherent : Upload.Coherent session := by
    rcases reachable.follows with ⟨sessions, follows⟩
    rw [← follows.shared session alive]
    exact follows.reachable.control.coherent
  have steps : callStep env .finalize session .start { choice with finishClaim := true } =
      some (.advance session (.done .returned) [] false) :=
    callStep_finalize_finalized coherent finalized
  simp [play, step, program, handleStep, beginOperation, claimUpload, sessionStep, moveCursor,
    releaseUpload, underClaim, handleResult, quietly, World.advance, List.replicate, awake, idle,
    finalizes, active, attached, alive, Operation.call, steps]

end Httpfs.S3.Handle
