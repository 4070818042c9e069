import Httpfs.Http.ClientPool.Exclusive

/-!
# Steps of a session

Every operation of a thread is one of the things that can happen to clients,
and keeps the invariant.
-/

namespace Httpfs.Http.ClientPool

open Text
open Httpfs.Transition
open Httpfs.Transition.Monitor

universe u

variable {κ υ π : Type} {ι : Type u} [DecidableEq ι] {deref : κ → HTTPRequestSnapshot υ}
  {shared : Shared κ υ π} {control : ι → Control κ π} {thread : ι}

/-- Only the thread itself holds other clients when its control changes. -/
theorem held_update {here : Control κ π} {holder : Holder ι} {number generation : Nat}
    (holds : Held shared (Function.update control thread here) holder number generation) :
    (holder ≠ .thread thread ∧ Held shared control holder number generation) ∨
      (holder = .thread thread ∧ ∃ acquisition client, here = .acquiring acquisition ∧
        acquisition.client = some client ∧ client.number = number ∧
        acquisition.captured.clientGeneration = generation) := by
  cases holder with
  | idle => exact .inl ⟨nofun, holds⟩
  | lease => exact .inl ⟨nofun, holds⟩
  | thread other =>
      rcases holds with ⟨acquisition, client, isControl, isClient, isNumber, isGeneration⟩
      by_cases same : other = thread
      · subst same
        rw [Function.update_self] at isControl
        exact .inr ⟨rfl, acquisition, client, isControl, isClient, isNumber, isGeneration⟩
      · rw [Function.update_of_ne same] at isControl
        refine .inl ⟨?_, acquisition, client, isControl, isClient, isNumber, isGeneration⟩
        rintro ⟨⟩
        exact same rfl

/-- A thread that lets go of a client it may have had. -/
theorem flow_drop {after : Shared κ υ π} (same : shared.nextClient ≤ after.nextClient)
    (idle : after.session.idleClients ⊆ shared.session.idleClients)
    (leases : ∀ handle lease client, after.leases.get handle = some lease →
      lease.client = some client → shared.leases.get handle = some lease) :
    Flow shared control after (Function.update control thread .running) := by
  refine .kept same ?_
  intro holder number generation holds
  rcases held_update holds with ⟨-, held⟩ | ⟨-, _, _, running, -⟩
  · cases holder with
    | idle =>
        rcases held with ⟨entry, member, rest⟩
        exact ⟨entry, idle member, rest⟩
    | lease handle =>
        rcases held with ⟨lease, client, live, isClient, rest⟩
        exact ⟨lease, client, leases handle lease client live isClient, isClient, rest⟩
    | thread => exact held
  · cases running

/-- A thread takes a client out of the idle ones, or none. -/
theorem flow_takeClient [DecidableEq υ] (sound : Sound shared control) (captured : Captured κ) (requestParams : π)
    (protoHostPort : Text) :
    Flow shared control
      { shared with session := (shared.session.takeClient deref captured protoHostPort).1 }
      (Function.update control thread (.acquiring ⟨captured, requestParams, protoHostPort,
        (shared.session.takeClient deref captured protoHostPort).2⟩)) := by
  rcases takeClient_cases deref shared.session captured protoHostPort with
    none | ⟨before, found, after, split, takes, -, current, -⟩
  · rw [none]
    refine .kept (Nat.le_refl _) ?_
    intro holder number generation holds
    rcases held_update holds with ⟨-, held⟩ | ⟨-, acquisition, client, isControl, isClient, -⟩
    · exact held
    · cases isControl
      cases isClient
  · rw [takes]
    have member : found ∈ shared.session.idleClients := by
      rw [split]
      simp
    have gives : Held shared control .idle found.client.number found.returnedUnder :=
      ⟨found, member, rfl, rfl⟩
    have others : ∀ entry ∈ before ++ after,
        entry ∈ shared.session.idleClients ∧ entry.client.number ≠ found.client.number := by
      intro entry entryMember
      have nodup := sound.idle.nodup
      rw [split, List.map_append, List.map_cons] at nodup
      have absent := (List.nodup_middle.mp nodup).notMem
      rw [← List.map_append] at absent
      constructor
      · rw [split]
        simp only [List.mem_append, List.mem_cons] at entryMember ⊢
        tauto
      · intro same
        apply absent
        rw [← same]
        exact List.mem_map_of_mem entryMember
    refine .moved found.client.number (.thread thread) (Nat.le_refl _) ?_
    intro holder number generation holds
    rcases held_update holds with
      ⟨different, held⟩ | ⟨isThread, acquisition, client, isControl, isClient, isNumber, isGen⟩
    · cases holder with
      | idle =>
          rcases held with ⟨entry, entryMember, rfl, isGeneration⟩
          rcases others entry entryMember with ⟨old, different⟩
          exact .inl ⟨different, entry, old, rfl, isGeneration⟩
      | lease handle =>
          have held : Held shared control (.lease handle) number generation := held
          refine .inl ⟨?_, held⟩
          rintro rfl
          have same := sound.exclusive.unique _ _ _ _ _ held gives
          cases same
      | thread other =>
          have held : Held shared control (.thread other) number generation := held
          refine .inl ⟨?_, held⟩
          rintro rfl
          have same := sound.exclusive.unique _ _ _ _ _ held gives
          cases same
    · cases isControl
      cases isClient
      refine .inr ⟨isNumber.symm, isThread, .idle, ?_⟩
      rw [← isNumber, ← isGen]
      change Held shared control .idle found.client.number captured.clientGeneration
      rw [current, ← sound.idle.current found member]
      exact gives

/-- The client a thread has taken, or a new one, goes into its lease. -/
theorem flow_leaseClient (sound : Sound shared control) {acquisition : Acquisition κ π}
    (acquiring : control thread = .acquiring acquisition) :
    Flow shared control (shared.leaseClient deref acquisition)
      (Function.update control thread .running) := by
  have begun := sound.acquisitions thread acquisition acquiring
  unfold Shared.leaseClient
  cases isClient : acquisition.client with
  | some client =>
      have gives : Held shared control (.thread thread) client.number
          acquisition.captured.clientGeneration :=
        ⟨acquisition, client, acquiring, isClient, rfl, rfl⟩
      refine .moved client.number (.lease shared.leases.next) (Nat.le_refl _) ?_
      intro holder number generation holds
      rcases held_update holds with ⟨different, held⟩ | ⟨-, _, _, running, -⟩
      · have others : Held shared control holder number generation →
            number ≠ client.number := by
          rintro before rfl
          exact different (sound.exclusive.unique _ _ _ _ _ before gives)
        cases holder with
        | idle => exact .inl ⟨others held, held⟩
        | thread other => exact .inl ⟨others held, held⟩
        | lease handle =>
            rcases held with ⟨lease, found, live, isFound, isNumber, isGeneration⟩
            by_cases new : handle = shared.leases.next
            · subst new
              rw [Arena.get_insert_next] at live
              cases live
              cases isFound
              refine .inr ⟨isNumber.symm, rfl, .thread thread, ?_⟩
              rw [← isNumber, ← isGeneration]
              exact gives
            · have before : Held shared control (.lease handle) number generation :=
                ⟨lease, found, (if_neg new).symm.trans live, isFound, isNumber, isGeneration⟩
              exact .inl ⟨others before, before⟩
      · cases running
  | none =>
      dsimp only
      split
      · refine flow_drop (Nat.le_refl _) (fun _ member => member) ?_
        intro handle lease client live foundClient
        by_cases new : handle = shared.leases.next
        · subst new
          rw [Arena.get_insert_next] at live
          cases live
          cases foundClient
        · exact (if_neg new).symm.trans live
      · refine .made (.lease shared.leases.next) (Nat.lt_succ_self _) ?_
        intro holder number generation holds
        rcases held_update holds with ⟨-, held⟩ | ⟨-, _, _, running, -⟩
        · cases holder with
          | idle => exact .inl held
          | thread => exact .inl held
          | lease handle =>
              rcases held with ⟨lease, found, live, isFound, isNumber, isGeneration⟩
              by_cases new : handle = shared.leases.next
              · subst new
                rw [Arena.get_insert_next] at live
                cases live
                cases isFound
                exact .inr ⟨isNumber.symm, rfl, isGeneration ▸ begun⟩
              · exact .inl ⟨lease, found, (if_neg new).symm.trans live, isFound, isNumber,
                  isGeneration⟩
        · cases running

omit [DecidableEq ι] in
/-- A request that replaces the client of its lease. -/
theorem flow_replaceClient (sound : Sound shared control) {handle : Nat}
    {lease : HTTPClientLease υ π} (live : shared.leases.get handle = some lease)
    (client : Option (Text × π)) :
    Flow shared control (shared.replaceClient handle client) control := by
  cases client with
  | none =>
      refine flow_of_subset (Nat.le_refl _) (fun _ member => member) ?_
      intro other found held otherLive isHeld
      rcases Arena.get_modify_cases otherLive with ⟨-, _, -, rfl⟩ | ⟨-, before⟩
      · cases isHeld
      · exact ⟨found, before, isHeld, rfl⟩
  | some client =>
      refine .made (.lease handle) (Nat.lt_succ_self _) ?_
      intro holder number generation holds
      cases holder with
      | idle => exact .inl holds
      | thread => exact .inl holds
      | lease other =>
          rcases holds with ⟨found, held, otherLive, isHeld, isNumber, isGeneration⟩
          rcases Arena.get_modify_cases otherLive with ⟨rfl, was, wasLive, rfl⟩ | ⟨-, before⟩
          · cases isHeld
            have begun := sound.leases other was wasLive
            exact .inr ⟨isNumber.symm, rfl, isGeneration ▸ begun⟩
          · exact .inl ⟨found, held, before, isHeld, isNumber, isGeneration⟩

/-! ## Where a client comes from -/

/-- Every client held after a step was held before, under the same generation,
or is new. -/
def Traced (before : Shared κ υ π) (control : ι → Control κ π) (after : Shared κ υ π)
    (control' : ι → Control κ π) : Prop :=
  ∀ holder number generation, Held after control' holder number generation →
    (∃ giver, Held before control giver number generation) ∨ before.nextClient ≤ number

omit [DecidableEq ι] in
theorem Flow.traced {after : Shared κ υ π} {control' : ι → Control κ π}
    (flow : Flow shared control after control') :
    Traced shared control after control' ∧ shared.nextClient ≤ after.nextClient := by
  cases flow with
  | kept more keeps =>
      exact ⟨fun holder _ _ holds => .inl ⟨holder, keeps _ _ _ holds⟩, more⟩
  | moved number receiver more moves =>
      refine ⟨?_, more⟩
      intro holder other generation holds
      rcases moves _ _ _ holds with ⟨-, held⟩ | ⟨-, -, held⟩
      · exact .inl ⟨holder, held⟩
      · exact .inl held
  | made receiver more makes =>
      refine ⟨?_, more.le⟩
      intro holder number generation holds
      rcases makes _ _ _ holds with held | ⟨new, -⟩
      · exact .inl ⟨holder, held⟩
      · exact .inr new.ge

/-- A step keeps every client in one place, traces it, and ends no generation
without a new one. -/
structure Step (before : Shared κ υ π) (control : ι → Control κ π) (after : Shared κ υ π)
    (control' : ι → Control κ π) : Prop where
  exclusive : Exclusive after control'
  traced : Traced before control after control'
  numbers : before.nextClient ≤ after.nextClient
  generations : before.session.clientGeneration ≤ after.session.clientGeneration

omit [DecidableEq ι] in
theorem Flow.step {after : Shared κ υ π} {control' : ι → Control κ π}
    (flow : Flow shared control after control') (exclusive : Exclusive shared control)
    (later : shared.session.clientGeneration ≤ after.session.clientGeneration) :
    Step shared control after control' :=
  ⟨exclusive.flow flow later, flow.traced.1, flow.traced.2, later⟩

omit [DecidableEq ι] in
theorem Step.trans {middle after : Shared κ υ π} {control' control'' : ι → Control κ π}
    (first : Step shared control middle control') (second : Step middle control' after control'') :
    Step shared control after control'' where
  exclusive := second.exclusive
  traced := by
    intro holder number generation holds
    rcases second.traced _ _ _ holds with ⟨giver, held⟩ | new
    · exact first.traced _ _ _ held
    · exact .inr (first.numbers.trans new)
  numbers := first.numbers.trans second.numbers
  generations := first.generations.trans second.generations

/-! ## Operations on leases -/

omit [DecidableEq ι] in
theorem release_get_of_ne {handle other : Nat} (lease : HTTPClientLease υ π) (throws : Bool)
    (different : other ≠ handle) :
    (shared.release handle lease throws).leases.get other = shared.leases.get other := by
  unfold Shared.release
  split
  · exact Arena.get_modify_of_ne _ _ different
  · rfl

omit [DecidableEq ι] in
theorem release_nextClient (handle : Nat) (lease : HTTPClientLease υ π) (throws : Bool) :
    (shared.release handle lease throws).nextClient = shared.nextClient ∧
      (shared.release handle lease throws).captures = shared.captures := by
  unfold Shared.release
  split <;> exact ⟨rfl, rfl⟩

omit [DecidableEq ι] in
theorem Sound.release (sound : Sound shared control) {handle : Nat}
    {lease : HTTPClientLease υ π} (live : shared.leases.get handle = some lease)
    (throws : Bool) :
    Step shared control (shared.release handle lease throws) control ∧
      Sound (shared.release handle lease throws) control := by
  have generation := release_generation shared handle lease throws
  have step := (flow_release sound.exclusive live throws).step sound.exclusive generation.ge
  refine ⟨step, step.exclusive, sound.idle.release sound.exclusive live throws, ?_, ?_, ?_⟩
  · rw [(release_nextClient handle lease throws).2, generation]
    exact sound.captures
  · rw [generation]
    exact sound.acquisitions
  · rw [generation]
    unfold Shared.release
    split
    · exact sound.leases.modify fun _ _ holds => holds
    · exact sound.leases

omit [DecidableEq ι] in
/-- The step of an operation on a lease, and what it leaves of the generations. -/
theorem Sound.perform (sound : Sound shared control) {after : Shared κ υ π}
    {choice : Choice κ π} {handle : Nat} {lease : HTTPClientLease υ π}
    (subject : choice.operation.subject = some handle)
    (live : shared.leases.get handle = some lease)
    (performs : shared.perform lease choice = some after) :
    Step shared control after control ∧ Sound after control := by
  rcases choice with ⟨operation, throws⟩
  have begun := sound.leases handle lease live
  cases operation with
  | capture => cases performs
  | tryPublish => cases performs
  | acquireClient => cases performs
  | invalidateClients => cases performs
  | invalidate other =>
      cases subject
      cases performs
      have flow : Flow shared control
          { shared with
            leases := shared.leases.modify handle fun lease => { lease with reusable := false } }
          control := by
        refine flow_of_subset (Nat.le_refl _) (fun _ member => member) ?_
        intro position found client foundLive isClient
        rcases Arena.get_modify_cases foundLive with ⟨rfl, was, wasLive, rfl⟩ | ⟨-, before⟩
        · exact ⟨was, wasLive, isClient, rfl⟩
        · exact ⟨found, before, isClient, rfl⟩
      have step := flow.step sound.exclusive (Nat.le_refl _)
      exact ⟨step, step.exclusive, sound.idle, sound.captures, sound.acquisitions,
        sound.leases.modify fun _ _ holds => holds⟩
  | replace other client =>
      cases subject
      cases performs
      have later : shared.session.clientGeneration ≤
          (shared.replaceClient handle client).session.clientGeneration := by
        cases client <;> exact Nat.le_refl _
      have step := (flow_replaceClient sound live client).step sound.exclusive later
      cases client with
      | none =>
          exact ⟨step, step.exclusive, sound.idle, sound.captures, sound.acquisitions,
            sound.leases.modify fun _ _ holds => holds⟩
      | some client =>
          exact ⟨step, step.exclusive, sound.idle, sound.captures, sound.acquisitions,
            sound.leases.modify fun _ _ holds => holds⟩
  | move other =>
      cases subject
      cases performs
      have flow : Flow shared control
          { shared with
            leases := (shared.leases.modify handle HTTPClientLease.leftBehind).insert lease }
          control := by
        refine flow_handOver shared.leases.next sound.exclusive (Nat.le_refl _)
          (fun _ member => member) live ?_
        intro position found client foundLive isClient
        by_cases new : position = shared.leases.next
        · have isLease : some lease = some found := (if_pos new).symm.trans foundLive
          cases isLease
          exact .inl ⟨new, isClient, rfl⟩
        · have before := (if_neg new).symm.trans foundLive
          rcases Arena.get_modify_cases before with ⟨-, _, -, rfl⟩ | ⟨different, was⟩
          · cases isClient
          · exact .inr ⟨different, was⟩
      have step := flow.step sound.exclusive (Nat.le_refl _)
      refine ⟨step, step.exclusive, sound.idle, sound.captures, sound.acquisitions, ?_⟩
      apply Arena.All.insert
      · exact sound.leases.modify fun _ _ holds => holds
      · exact begun
  | assign target other =>
      cases subject
      simp only [Shared.perform] at performs
      split at performs
      · cases performs
        have flow : Flow shared control shared control :=
          .kept (Nat.le_refl _) fun _ _ _ holds => holds
        exact ⟨flow.step sound.exclusive (Nat.le_refl _), sound⟩
      · rename_i different
        rw [Option.map_eq_some_iff] at performs
        rcases performs with ⟨source, sourceLive, rfl⟩
        rcases sound.release live throws with ⟨released, between⟩
        have otherLive : (shared.release handle lease throws).leases.get other = some source := by
          rw [release_get_of_ne lease throws (fun same => different same.symm)]
          exact sourceLive
        have flow : Flow (shared.release handle lease throws) control
            ((shared.release handle lease throws).takeOver handle other source) control := by
          refine flow_handOver handle released.exclusive (Nat.le_refl _)
            (fun _ member => member) otherLive ?_
          intro position found client foundLive isClient
          rcases Arena.get_modify_cases foundLive with ⟨-, _, -, rfl⟩ | ⟨notOther, first⟩
          · cases isClient
          · rcases Arena.get_modify_cases first with ⟨rfl, _, -, rfl⟩ | ⟨-, before⟩
            · exact .inl ⟨rfl, isClient, rfl⟩
            · exact .inr ⟨notOther, before⟩
        have step := released.trans (flow.step released.exclusive (Nat.le_refl _))
        refine ⟨step, step.exclusive, between.idle, between.captures, between.acquisitions, ?_⟩
        apply Arena.All.modify
        · exact between.leases.modify fun _ _ _ => between.leases other source otherLive
        · exact fun _ _ holds => holds
  | release other =>
      cases subject
      simp only [Shared.perform, Option.some.injEq] at performs
      subst performs
      rcases sound.release live throws with ⟨released, between⟩
      have flow : Flow (shared.release handle lease throws) control
          { shared.release handle lease throws with
            leases := (shared.release handle lease throws).leases.erase handle } control := by
        refine flow_of_subset (Nat.le_refl _) (fun _ member => member) ?_
        intro position found client foundLive isClient
        exact ⟨found, (Arena.get_erase_cases foundLive).2, isClient, rfl⟩
      have step := released.trans (flow.step released.exclusive (Nat.le_refl _))
      exact ⟨step, step.exclusive, between.idle, between.captures, between.acquisitions,
        between.leases.erase handle⟩

end Httpfs.Http.ClientPool
