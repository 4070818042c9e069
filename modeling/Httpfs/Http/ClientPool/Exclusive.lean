import Httpfs.Http.ClientPool.Program

/-!
# Where the clients are

A client object is idle, in a lease, or on its way from the one to the other in
a thread.  A step lets clients go, hands one on, or makes one; so every client
is held once, and under the generation it was taken with.
-/

namespace Httpfs.Http.ClientPool

open Text
open Httpfs.Transition
open Httpfs.Transition.Monitor

universe u

inductive Holder (ι : Type u)
  | idle
  | lease (handle : Nat)
  | thread (thread : ι)

variable {κ υ π : Type} {ι : Type u} {deref : κ → HTTPRequestSnapshot υ}

/-- A client object is held, under a generation. -/
def Held (shared : Shared κ υ π) (control : ι → Control κ π) :
    Holder ι → Nat → Nat → Prop
  | .idle, number, generation =>
      ∃ entry ∈ shared.session.idleClients,
        entry.client.number = number ∧ entry.returnedUnder = generation
  | .lease handle, number, generation =>
      ∃ lease client, shared.leases.get handle = some lease ∧ lease.client = some client ∧
        client.number = number ∧ lease.generation = generation
  | .thread thread, number, generation =>
      ∃ acquisition client, control thread = .acquiring acquisition ∧
        acquisition.client = some client ∧ client.number = number ∧
        acquisition.captured.clientGeneration = generation

/-- What can happen to the clients in a step. -/
inductive Flow (before : Shared κ υ π) (control : ι → Control κ π) (after : Shared κ υ π)
    (control' : ι → Control κ π) : Prop
  | kept : before.nextClient ≤ after.nextClient →
      (∀ holder number generation, Held after control' holder number generation →
        Held before control holder number generation) → Flow before control after control'
  | moved (number : Nat) (receiver : Holder ι) : before.nextClient ≤ after.nextClient →
      (∀ holder other generation, Held after control' holder other generation →
        (other ≠ number ∧ Held before control holder other generation) ∨
          (other = number ∧ holder = receiver ∧
            ∃ giver, Held before control giver other generation)) →
      Flow before control after control'
  | made (receiver : Holder ι) : before.nextClient < after.nextClient →
      (∀ holder number generation, Held after control' holder number generation →
        Held before control holder number generation ∨
          (number = before.nextClient ∧ holder = receiver ∧
            generation ≤ before.session.clientGeneration)) →
      Flow before control after control'

/-- Every client is held once, has been made, and is held under a generation
that has begun. -/
structure Exclusive (shared : Shared κ υ π) (control : ι → Control κ π) : Prop where
  unique : ∀ number first second generation other,
    Held shared control first number generation → Held shared control second number other →
      first = second
  numbered : ∀ holder number generation, Held shared control holder number generation →
    number < shared.nextClient
  begun : ∀ holder number generation, Held shared control holder number generation →
    generation ≤ shared.session.clientGeneration

theorem Exclusive.flow {before after : Shared κ υ π} {control control' : ι → Control κ π}
    (exclusive : Exclusive before control) (flow : Flow before control after control')
    (later : before.session.clientGeneration ≤ after.session.clientGeneration) :
    Exclusive after control' := by
  cases flow with
  | kept more keeps =>
      constructor
      · intro number first second generation other firstHolds secondHolds
        exact exclusive.unique number first second generation other
          (keeps _ _ _ firstHolds) (keeps _ _ _ secondHolds)
      · intro holder number generation holds
        exact lt_of_lt_of_le (exclusive.numbered _ _ _ (keeps _ _ _ holds)) more
      · intro holder number generation holds
        exact (exclusive.begun _ _ _ (keeps _ _ _ holds)).trans later
  | moved number receiver more moves =>
      have before : ∀ holder other generation, Held after control' holder other generation →
          ∃ giver, Held before control giver other generation := by
        intro holder other generation holds
        rcases moves _ _ _ holds with ⟨-, held⟩ | ⟨-, -, giver, held⟩
        · exact ⟨holder, held⟩
        · exact ⟨giver, held⟩
      constructor
      · intro other first second generation also firstHolds secondHolds
        rcases moves _ _ _ firstHolds with ⟨different, firstHeld⟩ | ⟨same, firstIs, -⟩
        · rcases moves _ _ _ secondHolds with ⟨-, secondHeld⟩ | ⟨same, -⟩
          · exact exclusive.unique other first second generation also firstHeld secondHeld
          · exact absurd same different
        · rcases moves _ _ _ secondHolds with ⟨different, -⟩ | ⟨-, secondIs, -⟩
          · exact absurd same different
          · exact firstIs.trans secondIs.symm
      · intro holder other generation holds
        rcases before _ _ _ holds with ⟨giver, held⟩
        exact lt_of_lt_of_le (exclusive.numbered _ _ _ held) more
      · intro holder other generation holds
        rcases before _ _ _ holds with ⟨giver, held⟩
        exact (exclusive.begun _ _ _ held).trans later
  | made receiver more makes =>
      constructor
      · intro number first second generation other firstHolds secondHolds
        rcases makes _ _ _ firstHolds with firstHeld | ⟨new, firstIs, -⟩
        · rcases makes _ _ _ secondHolds with secondHeld | ⟨new, -⟩
          · exact exclusive.unique number first second generation other firstHeld secondHeld
          · exact absurd new (exclusive.numbered _ _ _ firstHeld).ne
        · rcases makes _ _ _ secondHolds with secondHeld | ⟨-, secondIs, -⟩
          · exact absurd new (exclusive.numbered _ _ _ secondHeld).ne
          · exact firstIs.trans secondIs.symm
      · intro holder number generation holds
        rcases makes _ _ _ holds with held | ⟨new, -⟩
        · exact (exclusive.numbered _ _ _ held).trans more
        · rwa [new]
      · intro holder number generation holds
        rcases makes _ _ _ holds with held | ⟨-, -, begun⟩
        · exact (exclusive.begun _ _ _ held).trans later
        · exact begun.trans later

/-! ## Flows -/

section Flows

variable {shared : Shared κ υ π} {control : ι → Control κ π}

/-- Fewer idle clients and fewer clients in leases. -/
theorem flow_of_subset {after : Shared κ υ π} (same : shared.nextClient ≤ after.nextClient)
    (idle : after.session.idleClients ⊆ shared.session.idleClients)
    (leases : ∀ handle lease client, after.leases.get handle = some lease →
      lease.client = some client → ∃ before, shared.leases.get handle = some before ∧
        before.client = some client ∧ before.generation = lease.generation) :
    Flow shared control after control := by
  refine .kept same ?_
  intro holder number generation holds
  cases holder with
  | idle =>
      rcases holds with ⟨entry, member, isNumber, isGeneration⟩
      exact ⟨entry, idle member, isNumber, isGeneration⟩
  | lease handle =>
      rcases holds with ⟨lease, client, live, isClient, isNumber, isGeneration⟩
      rcases leases handle lease client live isClient with ⟨before, was, holds, same⟩
      exact ⟨before, client, was, holds, isNumber, same.trans isGeneration⟩
  | thread => exact holds

/-- A client that has been given back may become idle. -/
theorem flow_release {handle : Nat} {lease : HTTPClientLease υ π}
    (exclusive : Exclusive shared control) (live : shared.leases.get handle = some lease)
    (throws : Bool) : Flow shared control (shared.release handle lease throws) control := by
  unfold Shared.release
  split
  · unfold HTTPRequestSession.returnClient
    cases isClient : lease.client with
    | none =>
        refine flow_of_subset (Nat.le_refl _) (fun _ member => member) ?_
        intro other found client otherLive foundClient
        rcases Arena.get_modify_cases otherLive with ⟨-, _, -, rfl⟩ | ⟨-, before⟩
        · cases foundClient
        · exact ⟨found, before, foundClient, rfl⟩
    | some client =>
        dsimp only
        split
        · rename_i keeps
          simp only [Bool.and_eq_true, beq_iff_eq] at keeps
          have giver : Held shared control (.lease handle) client.number lease.generation :=
            ⟨lease, client, live, isClient, rfl, rfl⟩
          refine .moved client.number .idle le_rfl ?_
          intro holder number generation holds
          cases holder with
          | idle =>
              rcases holds with ⟨entry, member, isNumber, isGeneration⟩
              rcases List.mem_append.mp member with old | new
              · have held : Held shared control .idle number generation :=
                  ⟨entry, old, isNumber, isGeneration⟩
                by_cases same : number = client.number
                · exact .inr ⟨same, rfl, .idle, held⟩
                · exact .inl ⟨same, held⟩
              · rw [List.mem_singleton] at new
                subst new
                refine .inr ⟨isNumber.symm, rfl, .lease handle, ?_⟩
                rw [← isNumber, ← isGeneration, ← keeps.1.2]
                exact giver
          | lease other =>
              rcases holds with ⟨found, held, otherLive, isHeld, isNumber, isGeneration⟩
              rcases Arena.get_modify_cases otherLive with ⟨-, _, -, rfl⟩ | ⟨different, before⟩
              · cases isHeld
              · have holds : Held shared control (.lease other) number generation :=
                  ⟨found, held, before, isHeld, isNumber, isGeneration⟩
                refine .inl ⟨?_, holds⟩
                rintro rfl
                have same := exclusive.unique _ _ _ _ _ holds giver
                cases same
                exact different rfl
          | thread thread =>
              have held : Held shared control (.thread thread) number generation := holds
              refine .inl ⟨?_, held⟩
              rintro rfl
              have same := exclusive.unique _ _ _ _ _ held giver
              cases same
        · refine flow_of_subset (Nat.le_refl _) (fun _ member => member) ?_
          intro other found held otherLive foundClient
          rcases Arena.get_modify_cases otherLive with ⟨-, _, -, rfl⟩ | ⟨-, before⟩
          · cases foundClient
          · exact ⟨found, before, foundClient, rfl⟩
  · exact .kept le_rfl fun _ _ _ holds => holds

/-- The client of a lease goes to another one. -/
theorem flow_handOver {after : Shared κ υ π} {giver : Nat} (receiver : Nat)
    {source : HTTPClientLease υ π} (exclusive : Exclusive shared control)
    (same : shared.nextClient ≤ after.nextClient)
    (idle : after.session.idleClients ⊆ shared.session.idleClients)
    (live : shared.leases.get giver = some source)
    (leases : ∀ handle lease client, after.leases.get handle = some lease →
      lease.client = some client →
      (handle = receiver ∧ source.client = some client ∧ source.generation = lease.generation) ∨
        (handle ≠ giver ∧ shared.leases.get handle = some lease)) :
    Flow shared control after control := by
  cases isClient : source.client with
  | none =>
      apply flow_of_subset same idle
      intro handle lease client found foundClient
      rcases leases handle lease client found foundClient with ⟨-, impossible, -⟩ | ⟨-, before⟩
      · rw [isClient] at impossible
        contradiction
      · exact ⟨lease, before, foundClient, rfl⟩
  | some client =>
      have gives : Held shared control (.lease giver) client.number source.generation :=
        ⟨source, client, live, isClient, rfl, rfl⟩
      refine .moved client.number (.lease receiver) same ?_
      intro holder number generation holds
      have others : ∀ other, other ≠ Holder.lease giver →
          Held shared control other number generation → number ≠ client.number := by
        rintro other different held rfl
        exact different (exclusive.unique _ _ _ _ _ held gives)
      cases holder with
      | idle =>
          rcases holds with ⟨entry, member, isNumber, isGeneration⟩
          have held : Held shared control .idle number generation :=
            ⟨entry, idle member, isNumber, isGeneration⟩
          exact .inl ⟨others .idle nofun held, held⟩
      | lease handle =>
          rcases holds with ⟨lease, found, foundLive, isFound, isNumber, isGeneration⟩
          rcases leases handle lease found foundLive isFound with
            ⟨rfl, sameClient, sameGeneration⟩ | ⟨different, before⟩
          · rw [isClient, Option.some.injEq] at sameClient
            subst sameClient
            refine .inr ⟨isNumber.symm, rfl, .lease giver, ?_⟩
            rw [← isNumber, ← isGeneration, ← sameGeneration]
            exact gives
          · have held : Held shared control (.lease handle) number generation :=
              ⟨lease, found, before, isFound, isNumber, isGeneration⟩
            refine .inl ⟨others _ ?_ held, held⟩
            rintro ⟨⟩
            exact different rfl
      | thread thread => exact .inl ⟨others (.thread thread) nofun holds, holds⟩

end Flows

/-! ## The invariant -/

/-- Idle clients are different objects, returned under the current generation. -/
structure IdleSound (session : HTTPRequestSession κ υ π) : Prop where
  nodup : (session.idleClients.map fun entry => entry.client.number).Nodup
  current : ∀ entry ∈ session.idleClients, entry.returnedUnder = session.clientGeneration

structure Sound (shared : Shared κ υ π) (control : ι → Control κ π) : Prop where
  exclusive : Exclusive shared control
  idle : IdleSound shared.session
  captures : ∀ captured ∈ shared.captures,
    captured.clientGeneration ≤ shared.session.clientGeneration
  acquisitions : ∀ thread acquisition, control thread = .acquiring acquisition →
    acquisition.captured.clientGeneration ≤ shared.session.clientGeneration
  leases : shared.leases.All fun lease => lease.generation ≤ shared.session.clientGeneration

/-- A session that has just been made. -/
def initialShared (snapshot : κ) : Shared κ υ π where
  session := { currentSnapshot := snapshot }

theorem sound_initial (snapshot : κ) :
    Sound (initialShared snapshot : Shared κ υ π) fun _ : ι => .running := by
  have nothing : ∀ holder number generation,
      ¬ Held (initialShared snapshot : Shared κ υ π) (fun _ : ι => .running) holder number
        generation := by
    rintro (_ | handle | thread) number generation holds
    · rcases holds with ⟨_, ⟨⟩, -⟩
    · rcases holds with ⟨_, _, ⟨⟩, -⟩
    · rcases holds with ⟨_, _, ⟨⟩, -⟩
  constructor
  · constructor
    · exact fun number first _ generation _ holds => absurd holds (nothing first number generation)
    · exact fun holder number generation holds => absurd holds (nothing holder number generation)
    · exact fun holder number generation holds => absurd holds (nothing holder number generation)
  · exact ⟨List.nodup_nil, nofun⟩
  · exact nofun
  · exact nofun
  · exact Arena.all_empty

namespace IdleSound

variable {session after : HTTPRequestSession κ υ π}

theorem sublist (sound : IdleSound session)
    (fewer : after.idleClients.Sublist session.idleClients)
    (same : after.clientGeneration = session.clientGeneration) : IdleSound after where
  nodup := sound.nodup.sublist (fewer.map _)
  current entry member := by
    rw [same]
    exact sound.current entry (fewer.subset member)

theorem of_nil (empty : after.idleClients = []) : IdleSound after := by
  constructor
  · rw [empty]
    exact List.nodup_nil
  · rw [empty]
    exact nofun

end IdleSound

/-! ## The operations of a session -/

section Session

variable [DecidableEq κ] [DecidableEq υ]

/-- `TryPublish` keeps the idle clients of the generation, or starts a new one
without any. -/
theorem tryPublish_cases (deref : κ → HTTPRequestSnapshot υ)
    (session : HTTPRequestSession κ υ π) (expected replacement : κ) :
    ((session.tryPublish deref expected replacement).1.idleClients = session.idleClients ∧
        (session.tryPublish deref expected replacement).1.clientGeneration =
          session.clientGeneration) ∨
      ((session.tryPublish deref expected replacement).1.idleClients = [] ∧
        (session.tryPublish deref expected replacement).1.clientGeneration =
          session.clientGeneration + 1) := by
  unfold HTTPRequestSession.tryPublish
  split
  · exact .inl ⟨rfl, rfl⟩
  · dsimp only
    split
    · exact .inl ⟨rfl, rfl⟩
    · exact .inr ⟨rfl, rfl⟩

omit [DecidableEq κ] in
/-- What is taken from the idle clients is what the request asked for, and only
under the current generation. -/
theorem takeClient_cases (deref : κ → HTTPRequestSnapshot υ)
    (session : HTTPRequestSession κ υ π) (captured : Captured κ) (protoHostPort : Text) :
    session.takeClient deref captured protoHostPort = (session, none) ∨
      ∃ before found after, session.idleClients = before ++ found :: after ∧
        session.takeClient deref captured protoHostPort =
          ({ session with idleClients := before ++ after }, some found.client) ∧
        (deref captured.snapshot).clientReuseMode = .sessionLocal ∧
        captured.clientGeneration = session.clientGeneration ∧
        found.httpUtil = (deref captured.snapshot).httpUtil ∧
        found.client.baseUrl = protoHostPort := by
  unfold HTTPRequestSession.takeClient
  dsimp only
  by_cases sessionLocal : (deref captured.snapshot).clientReuseMode = .sessionLocal
  · rw [if_pos sessionLocal]
    by_cases current : captured.clientGeneration = session.clientGeneration
    · rw [if_pos current]
      split
      · rename_i found others finds
        rcases exists_of_findIdle finds with ⟨fits, before, after, split, rfl⟩
        rw [Bool.and_eq_true, beq_iff_eq, beq_iff_eq] at fits
        exact .inr ⟨before, found, after, split, rfl, sessionLocal, current, fits.1, fits.2⟩
      · exact .inl rfl
    · rw [if_neg current]
      exact .inl rfl
  · rw [if_neg sessionLocal]
    exact .inl rfl

omit [DecidableEq κ] in
theorem takeClient_generation (deref : κ → HTTPRequestSnapshot υ)
    (session : HTTPRequestSession κ υ π) (captured : Captured κ) (protoHostPort : Text) :
    (session.takeClient deref captured protoHostPort).1.clientGeneration =
      session.clientGeneration := by
  rcases takeClient_cases deref session captured protoHostPort with none | ⟨_, _, _, _, takes, _⟩
  · rw [none]
  · rw [takes]

end Session

theorem returnClient_generation (session : HTTPRequestSession κ υ π)
    (lease : HTTPClientLease υ π) (throws : Bool) :
    (session.returnClient lease throws).clientGeneration = session.clientGeneration := by
  unfold HTTPRequestSession.returnClient
  split
  · rfl
  · split <;> rfl

theorem release_generation (shared : Shared κ υ π) (handle : Nat) (lease : HTTPClientLease υ π)
    (throws : Bool) :
    (shared.release handle lease throws).session.clientGeneration =
      shared.session.clientGeneration := by
  unfold Shared.release
  split
  · exact returnClient_generation shared.session lease throws
  · rfl

/-- A client that becomes idle was in a lease, so it is not idle yet. -/
theorem IdleSound.release {shared : Shared κ υ π} {control : ι → Control κ π}
    (sound : IdleSound shared.session) (exclusive : Exclusive shared control) {handle : Nat}
    {lease : HTTPClientLease υ π} (live : shared.leases.get handle = some lease)
    (throws : Bool) : IdleSound (shared.release handle lease throws).session := by
  unfold Shared.release
  split
  · unfold HTTPRequestSession.returnClient
    cases isClient : lease.client with
    | none => exact sound
    | some client =>
        dsimp only
        split
        · have giver : Held shared control (.lease handle) client.number lease.generation :=
            ⟨lease, client, live, isClient, rfl, rfl⟩
          constructor
          · rw [List.map_append, List.nodup_append]
            refine ⟨sound.nodup, List.nodup_singleton _, ?_⟩
            intro number member other isOther same
            rcases List.mem_map.mp member with ⟨entry, entryMember, isNumber⟩
            rw [List.map_singleton, List.mem_singleton] at isOther
            have holds : Held shared control .idle client.number entry.returnedUnder :=
              ⟨entry, entryMember, by rw [isNumber, same, isOther], rfl⟩
            have impossible := exclusive.unique _ _ _ _ _ holds giver
            cases impossible
          · intro entry member
            rcases List.mem_append.mp member with old | new
            · exact sound.current entry old
            · rw [List.mem_singleton] at new
              rw [new]
        · exact sound
  · exact sound

end Httpfs.Http.ClientPool
