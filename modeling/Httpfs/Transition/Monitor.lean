import Mathlib.Logic.Function.Basic
import Mathlib.Logic.Relation
import Mathlib.Data.Set.Card

/-!
# Threads over one lock and one condition variable

A program gives, for every thread, what it does when it is scheduled: one
critical section over the shared state, or one interaction with the
environment.  A thread whose wait predicate is false falls asleep and runs
again only after some thread has notified the condition variable; there are no
spurious wakeups, so a run that gets stuck here is stuck in earnest.

Threads are indexed by an arbitrary type.  Every interleaving is a run; the
trace records the events of a run together with the threads that emitted them.
-/

namespace Httpfs.Transition.Monitor

universe u v w x y

variable {ι : Type u} {σ : Type v} {τ : Type w} {χ : Type x} {ε : Type y}

/-- What a scheduled thread does: wait on the condition variable, or change
the shared state and its own control point, emit events, and possibly notify
all waiting threads. -/
inductive Outcome (σ : Type v) (τ : Type w) (ε : Type y)
  | wait
  | advance (shared : σ) (control : τ) (events : List ε) (notify : Bool)

/-- The behaviour of every thread: from the shared state, the thread's control
point and the environment's choice to an outcome; `none` when the thread is
finished. -/
abbrev Program (ι : Type u) (σ : Type v) (τ : Type w) (χ : Type x) (ε : Type y) :=
  ι → σ → τ → χ → Option (Outcome σ τ ε)

/-- A global state together with the trace that led to it. -/
structure World (ι : Type u) (σ : Type v) (τ : Type w) (ε : Type y) where
  shared : σ
  control : ι → τ
  asleep : ι → Bool
  trace : List (ι × ε)

namespace World

/-- Every thread awake at the same control point. -/
def initial (shared : σ) (control : τ) : World ι σ τ ε :=
  ⟨shared, fun _ => control, fun _ => false, []⟩

/-- The events of a world in order, without their threads. -/
def events (world : World ι σ τ ε) : List ε :=
  world.trace.map Prod.snd

variable [DecidableEq ι]

/-- The effect of an advance of one thread. -/
def advance (world : World ι σ τ ε) (thread : ι) (shared : σ) (control : τ)
    (events : List ε) (notify : Bool) : World ι σ τ ε where
  shared := shared
  control := Function.update world.control thread control
  asleep := if notify then fun _ => false else world.asleep
  trace := world.trace ++ events.map fun event => (thread, event)

/-- The effect of a thread falling asleep. -/
def sleep (world : World ι σ τ ε) (thread : ι) : World ι σ τ ε :=
  { world with asleep := Function.update world.asleep thread true }

@[simp]
theorem events_advance (world : World ι σ τ ε) (thread : ι) (shared : σ) (control : τ)
    (events : List ε) (notify : Bool) :
    (world.advance thread shared control events notify).events =
      world.events ++ events := by
  simp [World.events, advance, List.map_append, List.map_map, Function.comp_def]

/-- Of two advances of one thread only the second is seen, if the first was
silent. -/
theorem advance_advance (world : World ι σ τ ε) (thread : ι) (middle shared : σ)
    (there control : τ) (events : List ε) (notify : Bool) :
    (world.advance thread middle there [] false).advance thread shared control events notify =
      world.advance thread shared control events notify := by
  simp [advance]

@[simp]
theorem events_sleep (world : World ι σ τ ε) (thread : ι) :
    (world.sleep thread).events = world.events :=
  rfl

end World

section Steps

variable [DecidableEq ι]

/-- One scheduled thread with one choice of the environment. -/
def step (program : Program ι σ τ χ ε) (world : World ι σ τ ε) (thread : ι)
    (choice : χ) : Option (World ι σ τ ε) :=
  if world.asleep thread then
    none
  else
    match program thread world.shared (world.control thread) choice with
    | none => none
    | some .wait => some (world.sleep thread)
    | some (.advance shared control events notify) =>
        some (world.advance thread shared control events notify)

/-- A step is a fall asleep or an advance of an awake thread. -/
theorem step_cases {program : Program ι σ τ χ ε} {world next : World ι σ τ ε}
    {thread : ι} {choice : χ} (stepped : step program world thread choice = some next) :
    world.asleep thread = false ∧
      ((program thread world.shared (world.control thread) choice = some .wait ∧
          next = world.sleep thread) ∨
        ∃ shared control events notify,
          program thread world.shared (world.control thread) choice =
            some (.advance shared control events notify) ∧
          next = world.advance thread shared control events notify) := by
  unfold step at stepped
  split at stepped
  · contradiction
  · rename_i awake
    refine ⟨by simpa using awake, ?_⟩
    split at stepped
    · contradiction
    · rename_i waits
      exact Or.inl ⟨waits, (Option.some.inj stepped).symm⟩
    · rename_i shared control events notify advances
      exact Or.inr ⟨shared, control, events, notify, advances,
        (Option.some.inj stepped).symm⟩

theorem step_of_advance {program : Program ι σ τ χ ε} {world : World ι σ τ ε}
    {thread : ι} {choice : χ} {shared : σ} {control : τ} {events : List ε} {notify : Bool}
    (awake : world.asleep thread = false)
    (advances : program thread world.shared (world.control thread) choice =
      some (.advance shared control events notify)) :
    step program world thread choice =
      some (world.advance thread shared control events notify) := by
  simp [step, awake, advances]

theorem step_of_wait {program : Program ι σ τ χ ε} {world : World ι σ τ ε}
    {thread : ι} {choice : χ} (awake : world.asleep thread = false)
    (waits : program thread world.shared (world.control thread) choice = some .wait) :
    step program world thread choice = some (world.sleep thread) := by
  simp [step, awake, waits]

/-- The transitions a condition on schedules admits. -/
def Next (program : Program ι σ τ χ ε) (admits : World ι σ τ ε → ι → Prop)
    (world next : World ι σ τ ε) : Prop :=
  ∃ thread choice, admits world thread ∧ step program world thread choice = some next

/-- Runs all of whose steps are admitted. -/
def RunWhere (program : Program ι σ τ χ ε) (admits : World ι σ τ ε → ι → Prop) :
    World ι σ τ ε → World ι σ τ ε → Prop :=
  Relation.ReflTransGen (Next program admits)

/-- All runs. -/
abbrev Run (program : Program ι σ τ χ ε) : World ι σ τ ε → World ι σ τ ε → Prop :=
  RunWhere program fun _ _ => True

theorem RunWhere.run {program : Program ι σ τ χ ε} {admits : World ι σ τ ε → ι → Prop}
    {world next : World ι σ τ ε} (run : RunWhere program admits world next) :
    Run program world next := by
  apply Relation.ReflTransGen.mono _ _ _ run
  rintro _ _ ⟨thread, choice, _, stepped⟩
  exact ⟨thread, choice, trivial, stepped⟩

/-- A property kept by every admitted step holds at the end of a run that
starts with it. -/
theorem RunWhere.invariant {program : Program ι σ τ χ ε}
    {admits : World ι σ τ ε → ι → Prop} {motive : World ι σ τ ε → Prop}
    (keeps : ∀ world next thread choice, motive world → admits world thread →
      step program world thread choice = some next → motive next)
    {world next : World ι σ τ ε} (run : RunWhere program admits world next)
    (start : motive world) : motive next := by
  induction run with
  | refl => exact start
  | tail _ last inductionHypothesis =>
      obtain ⟨thread, choice, admitted, stepped⟩ := last
      exact keeps _ _ thread choice inductionHypothesis admitted stepped

/-- The transitions a condition on the threads' choices admits. -/
def NextChoosing (program : Program ι σ τ χ ε) (admits : World ι σ τ ε → ι → χ → Prop)
    (world next : World ι σ τ ε) : Prop :=
  ∃ thread choice, admits world thread choice ∧ step program world thread choice = some next

/-- Runs all of whose choices are admitted. -/
abbrev RunChoosing (program : Program ι σ τ χ ε) (admits : World ι σ τ ε → ι → χ → Prop) :
    World ι σ τ ε → World ι σ τ ε → Prop :=
  Relation.ReflTransGen (NextChoosing program admits)

theorem RunChoosing.run {program : Program ι σ τ χ ε} {admits : World ι σ τ ε → ι → χ → Prop}
    {world next : World ι σ τ ε} (run : RunChoosing program admits world next) :
    Run program world next := by
  apply Relation.ReflTransGen.mono _ _ _ run
  rintro _ _ ⟨thread, choice, _, stepped⟩
  exact ⟨thread, choice, trivial, stepped⟩

/-- A property kept by every admitted choice holds at the end of a run that
starts with it. -/
theorem RunChoosing.invariant {program : Program ι σ τ χ ε}
    {admits : World ι σ τ ε → ι → χ → Prop} {motive : World ι σ τ ε → Prop}
    (keeps : ∀ world next thread choice, motive world → admits world thread choice →
      step program world thread choice = some next → motive next)
    {world next : World ι σ τ ε} (run : RunChoosing program admits world next)
    (start : motive world) : motive next := by
  induction run with
  | refl => exact start
  | tail _ last inductionHypothesis =>
      rcases last with ⟨thread, choice, admitted, stepped⟩
      exact keeps _ _ thread choice inductionHypothesis admitted stepped

/-- Play a schedule, leaving out the steps that are not enabled. -/
def play (program : Program ι σ τ χ ε) (world : World ι σ τ ε) :
    List (ι × χ) → World ι σ τ ε
  | [] => world
  | (thread, choice) :: rest =>
      play program ((step program world thread choice).getD world) rest

theorem run_play (program : Program ι σ τ χ ε) (world : World ι σ τ ε)
    (schedule : List (ι × χ)) : Run program world (play program world schedule) := by
  induction schedule generalizing world with
  | nil => exact Relation.ReflTransGen.refl
  | cons scheduled rest inductionHypothesis =>
      obtain ⟨thread, choice⟩ := scheduled
      cases stepped : step program world thread choice with
      | none => simpa [play, stepped] using inductionHypothesis world
      | some next =>
          have first : Next program (fun _ _ => True) world next :=
            ⟨thread, choice, trivial, stepped⟩
          simp only [play, stepped, Option.getD_some]
          exact Relation.ReflTransGen.head first (inductionHypothesis next)

/-- A schedule whose choices are admitted when their turn comes is a run that makes
admitted choices. -/
theorem runChoosing_play (program : Program ι σ τ χ ε) {admits : World ι σ τ ε → ι → χ → Prop}
    (world : World ι σ τ ε) (schedule : List (ι × χ))
    (admitted : ∀ before scheduled after, schedule = before ++ scheduled :: after →
      admits (play program world before) scheduled.1 scheduled.2) :
    RunChoosing program admits world (play program world schedule) := by
  induction schedule generalizing world with
  | nil => exact Relation.ReflTransGen.refl
  | cons scheduled rest inductionHypothesis =>
      have first := admitted [] scheduled rest rfl
      have later := inductionHypothesis ((step program world scheduled.1 scheduled.2).getD world)
        fun before next after split =>
          admitted (scheduled :: before) next after (congrArg (scheduled :: ·) split)
      cases stepped : step program world scheduled.1 scheduled.2 with
      | none =>
          rw [stepped] at later
          simpa only [play, stepped, Option.getD_none] using later
      | some next =>
          rw [stepped] at later
          simp only [play, stepped, Option.getD_some]
          exact Relation.ReflTransGen.head ⟨scheduled.1, scheduled.2, first, stepped⟩ later

/-- Some thread is asleep and no thread can take a step. -/
def Stuck (program : Program ι σ τ χ ε) (world : World ι σ τ ε) : Prop :=
  (∃ thread, world.asleep thread = true) ∧
    ∀ thread choice, step program world thread choice = none

end Steps

/-! ## Sleeping threads -/

/-- The thread's wait predicate is false: it would wait whatever the
environment chooses. -/
def Blocked (program : Program ι σ τ χ ε) (world : World ι σ τ ε) (thread : ι) : Prop :=
  ∀ choice, program thread world.shared (world.control thread) choice = some .wait

/-- No wakeup is lost: every sleeping thread still has to wait. -/
def SleepersBlocked (program : Program ι σ τ χ ε) (world : World ι σ τ ε) : Prop :=
  ∀ thread, world.asleep thread = true → Blocked program world thread

/-- Waiting does not depend on the environment, and an advance that does not
notify leaves every waiting control point waiting. -/
structure NotifiesWaiters (program : Program ι σ τ χ ε) : Prop where
  waits : ∀ thread shared control choice,
    program thread shared control choice = some .wait →
      ∀ other, program thread shared control other = some .wait
  silent : ∀ thread shared control choice shared' control' events,
    program thread shared control choice = some (.advance shared' control' events false) →
      ∀ sleeper waiting,
        (∀ other, program sleeper shared waiting other = some .wait) →
          ∀ other, program sleeper shared' waiting other = some .wait

section Steps

variable [DecidableEq ι]

theorem SleepersBlocked.step {program : Program ι σ τ χ ε}
    (notifies : NotifiesWaiters program) {world next : World ι σ τ ε} {thread : ι}
    {choice : χ} (sleepers : SleepersBlocked program world)
    (stepped : Monitor.step program world thread choice = some next) :
    SleepersBlocked program next := by
  obtain ⟨awake, ⟨waits, rfl⟩ | ⟨shared, control, events, notify, advances, rfl⟩⟩ :=
    step_cases stepped
  · intro sleeper asleep other
    by_cases same : sleeper = thread
    · subst same
      exact notifies.waits _ _ _ _ waits other
    · apply sleepers sleeper
      simpa [World.sleep, same] using asleep
  · intro sleeper asleep other
    cases notify with
    | true => simp [World.advance] at asleep
    | false =>
        have before : world.asleep sleeper = true := by
          simpa [World.advance] using asleep
        have different : sleeper ≠ thread := by
          rintro rfl
          rw [awake] at before
          contradiction
        have kept : (world.advance thread shared control events false).control sleeper =
            world.control sleeper := by
          simp [World.advance, different]
        rw [kept]
        exact notifies.silent _ _ _ _ _ _ _ advances _ _ (sleepers sleeper before) other

/-- No wakeup is lost along any run. -/
theorem RunWhere.sleepersBlocked {program : Program ι σ τ χ ε}
    (notifies : NotifiesWaiters program) {admits : World ι σ τ ε → ι → Prop}
    {world next : World ι σ τ ε} (run : RunWhere program admits world next)
    (start : SleepersBlocked program world) : SleepersBlocked program next :=
  run.invariant (fun _ _ _ _ sleepers _ stepped => sleepers.step notifies stepped) start

end Steps

theorem sleepersBlocked_initial (program : Program ι σ τ χ ε) (shared : σ) (control : τ) :
    SleepersBlocked program (World.initial shared control) := by
  intro thread asleep
  simp [World.initial] at asleep

/-! ## Counting the threads in a role -/

/-- Exactly `count` threads are at a control point with the given role. -/
def Population (role : τ → Bool) (control : ι → τ) (count : Nat) : Prop :=
  {thread | role (control thread) = true}.encard = count

namespace Population

variable {role : τ → Bool} {control : ι → τ} {count : Nat}

theorem initial (start : τ) (idle : role start = false) :
    Population role (fun _ : ι => start) 0 := by
  simp [Population, idle]

theorem pos_of_role (population : Population role control count) {thread : ι}
    (member : role (control thread) = true) : 0 < count := by
  rcases Nat.eq_zero_or_pos count with zero | positive
  · subst zero
    have empty : {thread | role (control thread) = true} = ∅ := by
      simpa [Population] using population
    have impossible : thread ∈ (∅ : Set ι) := empty ▸ member
    exact absurd impossible (Set.notMem_empty thread)
  · exact positive

theorem exists_role (population : Population role control count) (positive : 0 < count) :
    ∃ thread, role (control thread) = true := by
  have nonempty : {thread | role (control thread) = true}.Nonempty := by
    rw [← Set.encard_ne_zero, population]
    exact_mod_cast positive.ne'
  exact nonempty

/-- Two threads in a role count for two. -/
theorem two_le (population : Population role control count) {first second : ι}
    (different : first ≠ second) (firstRole : role (control first) = true)
    (secondRole : role (control second) = true) : 2 ≤ count := by
  by_contra few
  have bounded : {thread | role (control thread) = true}.encard ≤ 1 := by
    rw [population]
    exact_mod_cast Nat.le_of_lt_succ (Nat.lt_of_not_le few)
  exact different (Set.encard_le_one_iff.mp bounded first second firstRole secondRole)

variable [DecidableEq ι]

/-- The population follows the role of the one thread that moves. -/
theorem update (population : Population role control count) {thread : ι} {here : τ}
    {next : Nat}
    (conserved : next + (role (control thread)).toNat = count + (role here).toNat) :
    Population role (Function.update control thread here) next := by
  have others : {other | role (Function.update control thread here other) = true} \ {thread} =
      {other | role (control other) = true} \ {thread} := by
    ext other
    by_cases same : other = thread
    · simp [same]
    · simp [same]
  have split (roles : ι → Bool) : {other | roles other = true}.encard =
      ({other | roles other = true} \ {thread}).encard + (roles thread).toNat := by
    cases here : roles thread with
    | true =>
        have member : thread ∈ {other | roles other = true} := here
        rw [← Set.encard_sdiff_singleton_add_one member]
        rfl
    | false =>
        have absent : thread ∉ {other | roles other = true} := by simp [here]
        simp [Set.sdiff_singleton_eq_self absent]
  have before := split fun other => role (control other)
  have after := split fun other => role (Function.update control thread here other)
  rw [others] at after
  rw [population] at before
  simp only [Function.update_self] at after
  rw [Population, after]
  generalize ({other | role (control other) = true} \ {thread}).encard = rest at before ⊢
  cases rest with
  | top => simp at before
  | coe rest =>
      norm_cast at before ⊢
      omega

end Population

end Httpfs.Transition.Monitor
