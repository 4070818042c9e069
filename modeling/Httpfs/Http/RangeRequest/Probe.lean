import Httpfs.Http.RangeRequest.Program

/-!
# The owner of the probe

While the support is unknown, the probe is going on exactly when some guard owns
it, and never more than one does.  This holds whatever is done with the guards,
also with those that have been moved from.
-/

namespace Httpfs.Http.RangeRequest

open Httpfs.Transition
open Httpfs.Transition.Monitor

/-! ## The invariant -/

def Guard.Owns (guard : Guard) : Prop :=
  guard.ownsProbe = true

theorem Guard.not_owns_marked (guard : Guard) (support : RangeRequestSupport) :
    ¬ Guard.Owns { guard with support, ownsProbe := false } :=
  Bool.false_ne_true

/-- What holds in every state, whatever is done with the guards. -/
structure Sound (shared : Shared) : Prop where
  unique : shared.guards.AtMostOne Guard.Owns
  probing : shared.state.support = .unknown →
    (shared.state.probing = true ↔ shared.guards.Any Guard.Owns)
  owner : shared.guards.All fun guard =>
    guard.Owns → guard.enabled = true ∧ guard.support = .unknown
  resolved : shared.guards.All fun guard =>
    guard.enabled = true → guard.support ≠ .unknown → shared.state.support ≠ .unknown

theorem sound_initial : Sound {} where
  unique := Arena.atMostOne_empty
  probing _ := iff_of_false Bool.false_ne_true Arena.not_any_empty
  owner := Arena.all_empty
  resolved := Arena.all_empty

namespace Sound

variable {shared : Shared}

/-- A guard that does not own the probe can be added at any time. -/
theorem insert (sound : Sound shared) {guard : Guard} (other : ¬ guard.Owns)
    (copied : guard.enabled = true → guard.support ≠ .unknown →
      shared.state.support ≠ .unknown) :
    Sound ⟨shared.state, shared.guards.insert guard⟩ where
  unique := sound.unique.insert fun owns => absurd owns other
  probing unknown := by
    rw [sound.probing unknown, Arena.any_insert, or_iff_right other]
  owner := sound.owner.insert fun owns => absurd owns other
  resolved := sound.resolved.insert copied

theorem construct (sound : Sound shared) (free : shared.state.mustWait = false) :
    Sound ⟨(Guard.construct shared.state).1,
      shared.guards.insert (Guard.construct shared.state).2⟩ := by
  unfold Guard.construct
  by_cases unknown : shared.state.support = .unknown
  · have idle : ¬ shared.guards.Any Guard.Owns := by
      rw [← sound.probing unknown]
      simpa [RangeRequestState.mustWait, unknown] using free
    rw [if_pos unknown]
    constructor
    · exact sound.unique.insert fun _ => idle
    · intro _
      exact iff_of_true rfl (Arena.any_insert.mpr (.inl rfl))
    · exact sound.owner.insert fun _ => ⟨rfl, rfl⟩
    · exact sound.resolved.insert fun _ known => absurd rfl known
  · rw [if_neg unknown]
    exact sound.insert Bool.false_ne_true fun _ _ => unknown

/-- Resolving the probe through a guard. -/
theorem resolve (sound : Sound shared) {newSupport : RangeRequestSupport}
    (known : newSupport ≠ .unknown) (handle : Nat) {marked : Guard} (other : ¬ marked.Owns) :
    Sound ⟨shared.state.resolveProbe newSupport,
      shared.guards.modify handle fun _ => marked⟩ where
  unique := sound.unique.modify fun _ _ owns => absurd owns other
  probing unknown := absurd unknown known
  owner := sound.owner.modify fun _ _ _ owns => absurd owns other
  resolved := by
    intro _ _ _ _ _
    exact known

/-- A guard that is replaced by itself. -/
theorem modify_self (sound : Sound shared) {handle : Nat} {guard : Guard}
    (live : shared.guards.get handle = some guard) :
    Sound ⟨shared.state, shared.guards.modify handle fun _ => guard⟩ := by
  have same : ∀ value, shared.guards.get handle = some value → value = guard := by
    intro value found
    rw [live] at found
    exact (Option.some.inj found).symm
  constructor
  · exact sound.unique.modify fun value found owns => same value found ▸ owns
  · intro unknown
    rw [sound.probing unknown, Arena.any_modify live Iff.rfl]
  · exact sound.owner.modify fun value found holds => same value found ▸ holds
  · exact sound.resolved.modify fun value found holds => same value found ▸ holds

/-- The probe goes from the guard that is moved from to the one that is made. -/
theorem move (sound : Sound shared) {handle : Nat} {guard : Guard}
    (live : shared.guards.get handle = some guard) :
    Sound ⟨shared.state,
      (shared.guards.modify handle Guard.leftBehind).insert guard.moved⟩ := by
  have gone : ∀ value : Guard, ¬ value.leftBehind.Owns := fun _ => Bool.false_ne_true
  have empty : guard.Owns → ¬ (shared.guards.modify handle Guard.leftBehind).Any Guard.Owns := by
    intro owns
    exact sound.unique.not_any_modify live owns (gone guard)
  constructor
  · apply Arena.AtMostOne.insert
    · exact sound.unique.modify fun value _ owns => absurd owns (gone value)
    · exact empty
  · intro unknown
    rw [sound.probing unknown, Arena.any_insert]
    by_cases owns : guard.Owns
    · exact iff_of_true ⟨handle, guard, live, owns⟩ (.inl owns)
    · rw [or_iff_right (show ¬ guard.moved.Owns from owns),
        Arena.any_modify live (iff_of_false (gone guard) owns)]
  · apply Arena.All.insert
    · exact sound.owner.modify fun value _ _ owns => absurd owns (gone value)
    · exact sound.owner handle guard live
  · apply Arena.All.insert
    · exact sound.resolved.modify fun _ _ holds => holds
    · exact sound.resolved handle guard live

theorem destroy (sound : Sound shared) {handle : Nat} {guard : Guard}
    (live : shared.guards.get handle = some guard) :
    Sound ⟨(guard.destroy shared.state).1, shared.guards.erase handle⟩ := by
  unfold Guard.destroy
  split
  · rename_i owns
    unfold RangeRequestState.abortProbe
    split
    · rename_i unknown
      constructor
      · exact sound.unique.erase handle
      · intro _
        exact iff_of_false Bool.false_ne_true (sound.unique.not_any_erase live owns)
      · exact sound.owner.erase handle
      · exact sound.resolved.erase handle
    · rename_i known
      constructor
      · exact sound.unique.erase handle
      · intro unknown
        exact absurd unknown known
      · exact sound.owner.erase handle
      · exact sound.resolved.erase handle
  · rename_i other
    constructor
    · exact sound.unique.erase handle
    · intro unknown
      rw [sound.probing unknown, Arena.any_erase live other]
    · exact sound.owner.erase handle
    · exact sound.resolved.erase handle

theorem perform (sound : Sound shared) {operation : Operation} {handle : Nat} {guard : Guard}
    (subject : operation.subject = some handle)
    (live : shared.guards.get handle = some guard) :
    Sound (shared.perform guard operation).1 := by
  cases operation with
  | beginRequest => contradiction
  | markSupported other =>
      cases subject
      simp only [Shared.perform, Guard.markSupported]
      split
      · exact sound.resolve (by decide) handle (guard.not_owns_marked _)
      · exact sound.modify_self live
  | markNotSupported other =>
      cases subject
      simp only [Shared.perform, Guard.markNotSupported]
      split
      · exact sound.resolve (by decide) handle (guard.not_owns_marked _)
      · exact sound.modify_self live
  | move other =>
      cases subject
      exact sound.move live
  | destroy other =>
      cases subject
      exact sound.destroy live

theorem change (sound : Sound shared) {control control' : Control} {operation : Operation}
    {shared' : Shared} {notify : Bool}
    (change : Change shared control operation shared' control' notify) : Sound shared' := by
  induction change with
  | disabled => exact sound.insert Bool.false_ne_true fun enabled => absurd enabled Bool.false_ne_true
  | known _ _ known => exact sound.insert Bool.false_ne_true fun _ _ => known
  | read => exact sound
  | construct _ free => exact sound.construct free
  | perform handle guard _ subject live => exact sound.perform subject live

end Sound

/-! ## Changes of the support -/

theorem Shared.perform_silent {shared : Shared} {guard : Guard} {operation : Operation}
    (silent : (shared.perform guard operation).2 = false) :
    (shared.perform guard operation).1.state = shared.state := by
  cases operation with
  | beginRequest => rfl
  | move => rfl
  | markSupported handle =>
      simp only [perform, Guard.markSupported] at silent ⊢
      split
      · rename_i marks
        rw [if_pos marks] at silent
        contradiction
      · rfl
  | markNotSupported handle =>
      simp only [perform, Guard.markNotSupported] at silent ⊢
      split
      · rename_i marks
        rw [if_pos marks] at silent
        contradiction
      · rfl
  | destroy handle =>
      simp only [perform, Guard.destroy, RangeRequestState.abortProbe] at silent ⊢
      split
      · split
        · rename_i owns unknown
          rw [if_pos owns, if_pos unknown] at silent
          contradiction
        · rfl
      · rfl

theorem Guard.construct_support (state : RangeRequestState) :
    (Guard.construct state).1.support = state.support := by
  unfold Guard.construct
  split <;> rfl

theorem Guard.destroy_support (guard : Guard) (state : RangeRequestState) :
    (guard.destroy state).1.support = state.support := by
  unfold Guard.destroy RangeRequestState.abortProbe
  split
  · split <;> rfl
  · rfl

section Change

variable {shared shared' : Shared} {control control' : Control} {operation : Operation}
  {notify : Bool}

/-- The support is only ever written by a call on an enabled guard. -/
theorem Change.resolves (change : Change shared control operation shared' control' notify)
    (written : shared'.state.support ≠ shared.state.support) :
    control = .running ∧ ∃ handle guard, shared.guards.get handle = some guard ∧
      guard.enabled = true ∧
      ((operation = .markSupported handle ∧ guard.support = .unknown ∧
          shared'.state.support = .supported) ∨
        (operation = .markNotSupported handle ∧ shared'.state.support = .notSupported)) := by
  induction change with
  | disabled => exact absurd rfl written
  | known => exact absurd rfl written
  | read => exact absurd rfl written
  | construct => exact absurd (Guard.construct_support shared.state) written
  | perform handle guard running subject live =>
      refine ⟨running, handle, guard, live, ?_⟩
      cases operation with
      | beginRequest => contradiction
      | move => exact absurd rfl written
      | destroy => exact absurd (Guard.destroy_support guard shared.state) written
      | markSupported other =>
          cases subject
          simp only [Shared.perform, Guard.markSupported] at written ⊢
          split at written
          · rename_i marks
            rw [Bool.and_eq_true, beq_iff_eq] at marks
            exact ⟨marks.1, .inl ⟨trivial, marks.2, by simp [marks, RangeRequestState.resolveProbe]⟩⟩
          · exact absurd rfl written
      | markNotSupported other =>
          cases subject
          simp only [Shared.perform, Guard.markNotSupported] at written ⊢
          split at written
          · rename_i enabled
            exact ⟨enabled, .inr ⟨trivial, by simp [enabled, RangeRequestState.resolveProbe]⟩⟩
          · exact absurd rfl written

theorem Change.stays_known (change : Change shared control operation shared' control' notify)
    (known : shared.state.support ≠ .unknown) : shared'.state.support ≠ .unknown := by
  by_cases written : shared'.state.support = shared.state.support
  · rwa [written]
  · rcases change.resolves written with ⟨-, _, _, -, -, ⟨-, -, eq⟩ | ⟨-, eq⟩⟩ <;>
      simp [eq]

/-- Making, using and destroying a guard that is not enabled has no effect. -/
theorem Change.of_disabled (change : Change shared control operation shared' control' notify)
    (sound : Sound shared) (running : control = .running)
    (disabled : operation = .beginRequest false ∨ ∃ handle guard,
      operation.subject = some handle ∧ shared.guards.get handle = some guard ∧
        guard.enabled = false) : shared'.state = shared.state := by
  rcases disabled with rfl | ⟨handle, guard, subject, live, disabled⟩
  · cases change with
    | disabled => rfl
    | known => rfl
    | read => rfl
    | construct constructing => exact absurd (running.symm.trans constructing) (by decide)
    | perform _ _ _ subject => cases subject
  · cases change with
    | disabled => rfl
    | known => rfl
    | read => rfl
    | construct constructing => exact absurd (running.symm.trans constructing) (by decide)
    | perform other found _ otherSubject otherLive =>
        cases subject.symm.trans otherSubject
        cases live.symm.trans otherLive
        apply Shared.perform_silent
        have other : ¬ guard.Owns := by
          intro owns
          have enabled := (sound.owner handle guard live owns).1
          rw [disabled] at enabled
          contradiction
        cases operation with
        | beginRequest => contradiction
        | move => rfl
        | markSupported => simp [Shared.perform, Guard.markSupported, disabled]
        | markNotSupported => simp [Shared.perform, Guard.markNotSupported, disabled]
        | destroy =>
            have left : guard.ownsProbe = false := by
              simpa [Guard.Owns] using other
            simp [Shared.perform, Guard.destroy, left]

end Change

end Httpfs.Http.RangeRequest
