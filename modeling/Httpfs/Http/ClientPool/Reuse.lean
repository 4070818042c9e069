import Httpfs.Http.ClientPool.Steps

/-!
# Which clients are used again

An idle client is only handed out under the generation it was returned under,
so what has been invalidated does not come back.  A client is handed out where
it is taken out of the idle ones, in the critical section of `AcquireClient`.
-/

namespace Httpfs.Http.ClientPool

open Text
open Httpfs.Transition
open Httpfs.Transition.Monitor

universe u

variable {κ υ π : Type} [DecidableEq κ] [DecidableEq υ] {ι : Type u} [DecidableEq ι]
  {deref : κ → HTTPRequestSnapshot υ}

section Steps

variable {shared : Shared κ υ π} {control : ι → Control κ π} {thread : ι}

omit [DecidableEq κ] [DecidableEq υ] in
theorem acquisitions_update {here : Control κ π} {bound : Nat}
    (before : ∀ other acquisition, control other = .acquiring acquisition →
      acquisition.captured.clientGeneration ≤ bound)
    (new : ∀ acquisition, here = .acquiring acquisition →
      acquisition.captured.clientGeneration ≤ bound) :
    ∀ other acquisition, Function.update control thread here other = .acquiring acquisition →
      acquisition.captured.clientGeneration ≤ bound := by
  intro other acquisition isControl
  by_cases same : other = thread
  · subst same
    rw [Function.update_self] at isControl
    exact new acquisition isControl
  · rw [Function.update_of_ne same] at isControl
    exact before other acquisition isControl

omit [DecidableEq κ] [DecidableEq υ] in
/-- A step that gives up idle clients, maybe for a new generation, and reports
the session. -/
theorem Sound.dropIdle (sound : Sound shared control) {session : HTTPRequestSession κ υ π}
    {captures : List (Captured κ)}
    (subset : session.idleClients ⊆ shared.session.idleClients) (idle : IdleSound session)
    (later : shared.session.clientGeneration ≤ session.clientGeneration)
    (reported : ∀ captured ∈ captures, captured ∈ shared.captures ∨
      captured = session.captured) :
    Step shared control { shared with session, captures }
        (Function.update control thread .running) ∧
      Sound { shared with session, captures } (Function.update control thread .running) := by
  have flow : Flow shared control { shared with session, captures }
      (Function.update control thread .running) :=
    flow_drop (Nat.le_refl _) subset fun _ _ _ live _ => live
  have step := flow.step sound.exclusive later
  refine ⟨step, step.exclusive, idle, ?_, ?_, ?_⟩
  · intro captured member
    rcases reported captured member with old | rfl
    · exact (sound.captures captured old).trans later
    · exact Nat.le_refl _
  · exact acquisitions_update
      (fun other acquisition isControl => (sound.acquisitions other acquisition isControl).trans later)
      nofun
  · intro handle lease live
    exact (sound.leases handle lease live).trans later

theorem Sound.change (sound : Sound shared control) {choice : Choice κ π}
    {after : Shared κ υ π} {here : Control κ π}
    (change : Change deref shared (control thread) choice after here) :
    Step shared control after (Function.update control thread here) ∧
      Sound after (Function.update control thread here) := by
  generalize isControl : control thread = before at change
  induction change with
  | capture =>
      apply sound.dropIdle (fun _ member => member) sound.idle (Nat.le_refl _)
      intro captured member
      rcases List.mem_cons.mp member with new | old
      · exact .inr new
      · exact .inl old
  | tryPublish expected replacement =>
      rcases tryPublish_cases deref shared.session expected replacement with
        ⟨idle, generation⟩ | ⟨idle, generation⟩
      · apply sound.dropIdle
        · rw [idle]
          exact fun _ member => member
        · exact sound.idle.sublist (by rw [idle]) generation
        · exact generation.ge
        · intro captured member
          rcases List.mem_cons.mp member with new | old
          · exact .inr new
          · exact .inl old
      · apply sound.dropIdle
        · rw [idle]
          exact List.nil_subset _
        · exact IdleSound.of_nil idle
        · omega
        · intro captured member
          rcases List.mem_cons.mp member with new | old
          · exact .inr new
          · exact .inl old
  | invalidateClients =>
      exact sound.dropIdle (List.nil_subset _) (IdleSound.of_nil rfl) (Nat.le_succ _)
        fun _ old => .inl old
  | acquireClient captured requestParams protoHostPort _ _ issued =>
      have flow : Flow shared control
          { shared with session := (shared.session.takeClient deref captured protoHostPort).1 }
          (Function.update control thread (.acquiring ⟨captured, requestParams, protoHostPort,
            (shared.session.takeClient deref captured protoHostPort).2⟩)) :=
        flow_takeClient sound captured requestParams protoHostPort
      have generation := takeClient_generation deref shared.session captured protoHostPort
      have step := flow.step sound.exclusive generation.ge
      refine ⟨step, step.exclusive, ?_, ?_, ?_, ?_⟩
      · rcases takeClient_cases deref shared.session captured protoHostPort with
          none | ⟨before, found, after, split, takes, -⟩
        · rw [none]
          exact sound.idle
        · rw [takes]
          apply sound.idle.sublist
          · rw [split]
            exact (List.sublist_cons_self found after).append_left before
          · rfl
      · change ∀ captured ∈ shared.captures, captured.clientGeneration ≤ _
        rw [generation]
        exact sound.captures
      · apply acquisitions_update
        · rw [generation]
          exact sound.acquisitions
        · rintro _ ⟨⟩
          rw [generation]
          exact sound.captures captured issued
      · rw [generation]
        exact sound.leases
  | failed =>
      exact sound.dropIdle (fun _ member => member) sound.idle (Nat.le_refl _)
        fun _ old => .inl old
  | leaseClient acquisition acquiring =>
      subst acquiring
      have begun := sound.acquisitions thread acquisition isControl
      have flow : Flow shared control (shared.leaseClient deref acquisition)
          (Function.update control thread .running) :=
        flow_leaseClient sound isControl
      have same : (shared.leaseClient deref acquisition).session = shared.session ∧
          (shared.leaseClient deref acquisition).captures = shared.captures := by
        unfold Shared.leaseClient
        split
        · exact ⟨rfl, rfl⟩
        · dsimp only
          split <;> exact ⟨rfl, rfl⟩
      have step := flow.step sound.exclusive (by rw [same.1])
      refine ⟨step, step.exclusive, ?_, ?_, ?_, ?_⟩
      · rw [same.1]
        exact sound.idle
      · rw [same.1, same.2]
        exact sound.captures
      · rw [same.1]
        exact acquisitions_update sound.acquisitions nofun
      · rw [same.1]
        unfold Shared.leaseClient
        split
        · exact sound.leases.insert begun
        · dsimp only
          split
          · exact sound.leases.insert begun
          · exact sound.leases.insert begun
  | perform handle lease _ running subject live performs =>
      subst running
      rw [← isControl, Function.update_eq_self]
      exact sound.perform subject live performs

end Steps

/-! ## Runs -/

/-- A session that has just been made, with no thread in the middle of anything. -/
def start (ι : Type u) (snapshot : κ) : World ι (Shared κ υ π) (Control κ π) Empty :=
  World.initial (initialShared snapshot) .running

variable {world next : World ι (Shared κ υ π) (Control κ π) Empty} {thread : ι}
  {choice : Choice κ π}

theorem step_change (stepped : step (program ι deref) world thread choice = some next) :
    ∃ here, Change deref world.shared (world.control thread) choice next.shared here ∧
      next.control = Function.update world.control thread here := by
  rcases (step_cases stepped).2 with
    ⟨waits, -⟩ | ⟨shared, control, events, notify, advances, rfl⟩
  · exact absurd waits program_ne_wait
  · exact ⟨control, program_advance advances, rfl⟩

theorem Sound.step (sound : Sound world.shared world.control)
    (stepped : Monitor.step (program ι deref) world thread choice = some next) :
    Step world.shared world.control next.shared next.control ∧
      Sound next.shared next.control := by
  rcases step_change stepped with ⟨here, change, isControl⟩
  rw [isControl]
  exact sound.change change

theorem sound_of_run {snapshot : κ} (run : Run (program ι deref) (start ι snapshot) world) :
    Sound world.shared world.control :=
  run.invariant (motive := fun world => Sound world.shared world.control)
    (fun _ _ _ _ sound _ stepped => (sound.step stepped).2) (sound_initial snapshot)

/-! ## Clients that do not come back -/

/-- Clients made before the number are only held under generations before the
one given. -/
structure Retired (number generation : Nat) (shared : Shared κ υ π)
    (control : ι → Control κ π) : Prop where
  begun : generation ≤ shared.session.clientGeneration
  made : number ≤ shared.nextClient
  held : ∀ holder old under, Held shared control holder old under → old < number →
    under < generation

omit [DecidableEq κ] [DecidableEq υ] [DecidableEq ι] in
theorem Retired.step {number generation : Nat} {before after : Shared κ υ π}
    {control control' : ι → Control κ π} (retired : Retired number generation before control)
    (step : Step before control after control') : Retired number generation after control' where
  begun := retired.begun.trans step.generations
  made := retired.made.trans step.numbers
  held := by
    intro holder old under holds isOld
    rcases step.traced _ _ _ holds with ⟨giver, held⟩ | new
    · exact retired.held giver old under held isOld
    · have := retired.made
      omega

theorem retired_of_run {number generation : Nat} {later : World ι (Shared κ υ π) (Control κ π) Empty}
    (run : Run (program ι deref) world later) (sound : Sound world.shared world.control)
    (retired : Retired number generation world.shared world.control) :
    Retired number generation later.shared later.control := by
  have both := run.invariant
    (motive := fun world => Sound world.shared world.control ∧
      Retired number generation world.shared world.control)
    (fun _ _ _ _ both _ stepped =>
      ⟨(both.1.step stepped).2, both.2.step (both.1.step stepped).1⟩) ⟨sound, retired⟩
  exact both.2

/-- The clients are invalidated, or a snapshot is published that cannot use them. -/
def Invalidates (deref : κ → HTTPRequestSnapshot υ) (session : HTTPRequestSession κ υ π) :
    Operation κ π → Prop
  | .invalidateClients => True
  | .tryPublish expected replacement =>
      session.currentSnapshot = expected ∧
        (deref session.currentSnapshot).canReuseClientsWith (deref replacement) = false
  | _ => False

omit [DecidableEq ι] in
theorem Change.invalidates {shared after : Shared κ υ π} {control here : Control κ π}
    (change : Change deref shared control choice after here) (running : control = .running)
    (invalidates : Invalidates deref shared.session choice.operation) :
    after.session.clientGeneration = shared.session.clientGeneration + 1 := by
  induction change with
  | invalidateClients => rfl
  | tryPublish expected replacement _ isOperation =>
      rw [isOperation] at invalidates
      rcases invalidates with ⟨rfl, incompatible⟩
      simp [HTTPRequestSession.tryPublish, incompatible, HTTPRequestSession.invalidateClients]
  | capture _ isOperation =>
      rw [isOperation] at invalidates
      exact absurd invalidates id
  | acquireClient _ _ _ _ isOperation =>
      rw [isOperation] at invalidates
      exact absurd invalidates id
  | failed _ acquiring =>
      rw [running] at acquiring
      cases acquiring
  | leaseClient _ acquiring =>
      rw [running] at acquiring
      cases acquiring
  | perform _ _ _ _ subject =>
      rcases choice with ⟨operation, throws⟩
      cases operation with
      | invalidateClients => cases subject
      | tryPublish => cases subject
      | _ => exact absurd invalidates id

/-- All clients there are when the clients are invalidated are retired. -/
theorem retired_of_invalidates (sound : Sound world.shared world.control)
    (running : world.control thread = .running)
    (invalidates : Invalidates deref world.shared.session choice.operation)
    (stepped : step (program ι deref) world thread choice = some next) :
    Retired world.shared.nextClient (world.shared.session.clientGeneration + 1)
      next.shared next.control := by
  rcases sound.step stepped with ⟨taken, -⟩
  rcases step_change stepped with ⟨here, change, isControl⟩
  refine ⟨(change.invalidates running invalidates).ge, taken.numbers, ?_⟩
  intro holder old under holds isOld
  rcases taken.traced _ _ _ holds with ⟨giver, held⟩ | new
  · exact Nat.lt_succ_of_le (sound.exclusive.begun giver old under held)
  · omega

/-! ## What a step does -/

/-- A client is taken out of the idle ones. -/
def HandsOut (deref : κ → HTTPRequestSnapshot υ)
    (world : World ι (Shared κ υ π) (Control κ π) Empty) (client : HTTPClient π) : Prop :=
  ∃ thread choice next acquisition, step (program ι deref) world thread choice = some next ∧
    world.control thread = .running ∧ next.control thread = .acquiring acquisition ∧
    acquisition.client = some client

/-- What `TryPublish`, `AcquireClient` and the lease that it makes do. -/
structure StepSound (deref : κ → HTTPRequestSnapshot υ)
    (world next : World ι (Shared κ υ π) (Control κ π) Empty) (thread : ι)
    (choice : Choice κ π) : Prop where
  publishes : world.control thread = .running → ∀ expected replacement,
    choice.operation = .tryPublish expected replacement →
    if world.shared.session.currentSnapshot = expected then
      next.shared.session.currentSnapshot = replacement ∧
        if (deref expected).canReuseClientsWith (deref replacement) then
          next.shared.session.clientGeneration = world.shared.session.clientGeneration ∧
            next.shared.session.idleClients = world.shared.session.idleClients
        else
          next.shared.session.clientGeneration = world.shared.session.clientGeneration + 1 ∧
            next.shared.session.idleClients = []
    else next.shared.session = world.shared.session
  takes : world.control thread = .running → ∀ captured requestParams protoHostPort,
    choice.operation = .acquireClient captured requestParams protoHostPort →
    ∃ client, next.control thread = .acquiring ⟨captured, requestParams, protoHostPort, client⟩ ∧
      ((client = none ∧ next.shared.session = world.shared.session) ∨
        ∃ before found after, world.shared.session.idleClients = before ++ found :: after ∧
          client = some found.client ∧
          next.shared.session =
            { world.shared.session with idleClients := before ++ after } ∧
          captured.clientGeneration = world.shared.session.clientGeneration ∧
          found.httpUtil = (deref captured.snapshot).httpUtil ∧
          found.client.baseUrl = protoHostPort)
  /-- Only `AcquireClient` takes a client. -/
  onlyTakes : ∀ other acquisition, next.control other = .acquiring acquisition →
    world.control other = .acquiring acquisition ∨
      (other = thread ∧ world.control thread = .running ∧ choice.operation =
        .acquireClient acquisition.captured acquisition.requestParams acquisition.protoHostPort)
  leases : ∀ acquisition, world.control thread = .acquiring acquisition → choice.throws = false →
    ∃ lease, next.shared.leases.get world.shared.leases.next = some lease ∧
      lease.generation = acquisition.captured.clientGeneration ∧
      lease.httpUtil = (deref acquisition.captured.snapshot).httpUtil ∧
      (∀ client, lease.client = some client → client.params = acquisition.requestParams) ∧
      ∀ taken, acquisition.client = some taken →
        lease.client = some { taken with params := acquisition.requestParams }

theorem stepSound (stepped : step (program ι deref) world thread choice = some next) :
    StepSound deref world next thread choice := by
  rcases step_change stepped with ⟨here, change, isControl⟩
  have isHere : next.control thread = here := by
    rw [isControl, Function.update_self]
  constructor
  · intro running expected replacement isOperation
    have only := change.of_subject_none running (by rw [isOperation]; rfl)
    rw [isOperation] at only
    rw [only.1]
    unfold HTTPRequestSession.tryPublish
    by_cases isExpected : world.shared.session.currentSnapshot = expected
    · rw [if_pos isExpected, if_neg (not_not.mpr isExpected), isExpected]
      refine ⟨rfl, ?_⟩
      split <;> exact ⟨rfl, rfl⟩
    · rw [if_neg isExpected, if_pos isExpected]
  · intro running captured requestParams protoHostPort isOperation
    have only := change.of_subject_none running (by rw [isOperation]; rfl)
    rw [isOperation] at only
    refine ⟨_, isHere.trans only.2, ?_⟩
    rw [only.1]
    rcases takeClient_cases deref world.shared.session captured protoHostPort with
      none | ⟨before, found, after, split, takes, -, current, util, url⟩
    · rw [none]
      exact .inl ⟨rfl, rfl⟩
    · rw [takes]
      exact .inr ⟨before, found, after, split, rfl, rfl, current, util, url⟩
  · intro other acquisition acquiring
    rw [isControl] at acquiring
    by_cases same : other = thread
    · subst same
      rw [Function.update_self] at acquiring
      exact .inr ⟨rfl, change.acquires acquiring⟩
    · rw [Function.update_of_ne same] at acquiring
      exact .inl acquiring
  · intro acquisition acquiring returns
    rw [change.of_acquiring acquiring returns]
    unfold Shared.leaseClient
    cases isClient : acquisition.client with
    | some client =>
        refine ⟨_, Arena.get_insert_next _ _, rfl, rfl, ?_, ?_⟩
        · rintro _ ⟨⟩
          rfl
        · rintro _ ⟨⟩
          rfl
    | none =>
        dsimp only
        split
        · refine ⟨_, Arena.get_insert_next _ _, rfl, rfl, ?_, ?_⟩
          · rintro _ ⟨⟩
          · rintro _ ⟨⟩
        · refine ⟨_, Arena.get_insert_next _ _, rfl, rfl, ?_, ?_⟩
          · rintro _ ⟨⟩
            rfl
          · rintro _ ⟨⟩

/-- No client that is retired is handed out. -/
theorem Retired.not_handsOut {number generation : Nat} (sound : Sound world.shared world.control)
    (retired : Retired number generation world.shared world.control) {client : HTTPClient π}
    (handed : HandsOut deref world client) : number ≤ client.number := by
  rcases handed with ⟨thread, choice, next, acquisition, stepped, running, acquiring, isClient⟩
  rcases (stepSound stepped).onlyTakes thread acquisition acquiring with before | ⟨-, -, isOperation⟩
  · rw [running] at before
    cases before
  · rcases (stepSound stepped).takes running _ _ _ isOperation with ⟨taken, isAcquiring, takes⟩
    have same := Control.acquiring.inj (acquiring.symm.trans isAcquiring)
    have isTaken : some client = taken := isClient.symm.trans (congrArg Acquisition.client same)
    rcases takes with ⟨none, -⟩ | ⟨before, found, after, split, isFound, -⟩
    · rw [none] at isTaken
      cases isTaken
    · rw [isFound, Option.some.injEq] at isTaken
      subst isTaken
      have member : found ∈ world.shared.session.idleClients := by
        rw [split]
        simp
      by_contra isOld
      have under := retired.held .idle found.client.number found.returnedUnder
        ⟨found, member, rfl, rfl⟩ (by omega)
      rw [sound.idle.current found member] at under
      have := retired.begun
      omega

/-- The clients of a session are each in one place, are handed out again to
those who ask for them, and never after they have been invalidated. -/
theorem session_clients {snapshot : κ}
    {world : World ι (Shared κ υ π) (Control κ π) Empty}
    (run : Run (program ι deref) (start ι snapshot) world) :
    (∀ entry ∈ world.shared.session.idleClients,
      entry.returnedUnder = world.shared.session.clientGeneration) ∧
    (world.shared.session.idleClients.map fun entry => entry.client.number).Nodup ∧
    (∀ number first second generation other,
      Held world.shared world.control first number generation →
        Held world.shared world.control second number other → first = second) ∧
    (∀ holder number generation, Held world.shared world.control holder number generation →
      number < world.shared.nextClient) ∧
    ∀ next thread choice, step (program ι deref) world thread choice = some next →
      StepSound deref world next thread choice ∧
      (world.control thread = .running →
        Invalidates deref world.shared.session choice.operation →
        ∀ later client, Run (program ι deref) next later → HandsOut deref later client →
          world.shared.nextClient ≤ client.number) := by
  have sound := sound_of_run run
  refine ⟨sound.idle.current, sound.idle.nodup, sound.exclusive.unique, sound.exclusive.numbered, ?_⟩
  intro next thread choice stepped
  refine ⟨stepSound stepped, ?_⟩
  intro running invalidates later client after handed
  have soundNext := (sound.step stepped).2
  have retired := retired_of_run after soundNext
    (retired_of_invalidates sound running invalidates stepped)
  have soundLater := after.invariant (motive := fun world => Sound world.shared world.control)
    (fun _ _ _ _ sound _ stepped => (sound.step stepped).2) soundNext
  exact retired.not_handsOut soundLater handed

/-- A client is returned and handed out again. -/
theorem session_clients_reused :
    let deref : Unit → HTTPRequestSnapshot Unit := fun _ => ⟨.http, (), .sessionLocal⟩
    let captured : Captured Unit := ⟨(), 0⟩
    let acquire : Unit × Choice Unit Unit := ((), ⟨.acquireClient captured () [], false⟩)
    let world := play (program Unit deref) (start Unit ())
      [((), ⟨.capture, false⟩), acquire, acquire, ((), ⟨.release 0, false⟩)]
    world.shared.session.idleClients = [⟨⟨0, [], ()⟩, (), 0⟩] ∧
      (world.shared.session.idleClients.map fun entry => entry.client.number).Nodup := by
  intro deref captured acquire world
  exact ⟨rfl, (session_clients (run_play (program Unit deref) (start Unit ()) _)).2.1⟩

end Httpfs.Http.ClientPool
