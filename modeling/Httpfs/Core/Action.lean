import Httpfs.Core.Error

/-!
# Actions on a state

An action may throw; the changes it made to the state before stay.  What it does is
found out part by part: the lemmas replace the run of a sequence by the runs of its
parts.
-/

namespace Httpfs

universe u

/-- A computation on a state that returns a value or throws. -/
structure Action (σ α : Type u) : Type u where
  run : σ → Except ErrorData α × σ

namespace Action

variable {σ α β : Type u}

instance : Monad (Action σ) where
  pure value := ⟨fun state => (.ok value, state)⟩
  bind first next := ⟨fun state =>
    match first.run state with
    | (.ok value, state) => (next value).run state
    | (.error error, state) => (.error error, state)⟩

instance : MonadExceptOf ErrorData (Action σ) where
  throw error := ⟨fun state => (.error error, state)⟩
  tryCatch action handler := ⟨fun state =>
    match action.run state with
    | (.ok value, state) => (.ok value, state)
    | (.error error, state) => (handler error).run state⟩

instance : MonadStateOf σ (Action σ) where
  get := ⟨fun state => (.ok state, state)⟩
  set state := ⟨fun _ => (.ok ⟨⟩, state)⟩
  modifyGet change := ⟨fun state => (.ok (change state).1, (change state).2)⟩

/-- A fallible computation that does not look at the state. -/
def lift (result : Except ErrorData α) : Action σ α :=
  ⟨fun state => (result, state)⟩

@[simp] theorem run_pure (value : α) (state : σ) :
    (pure value : Action σ α).run state = (.ok value, state) :=
  rfl

@[simp] theorem run_throw (error : ErrorData) (state : σ) :
    (throw error : Action σ α).run state = (.error error, state) :=
  rfl

@[simp] theorem run_lift (result : Except ErrorData α) (state : σ) :
    (lift result).run state = (result, state) :=
  rfl

@[simp] theorem run_get (state : σ) : (get : Action σ σ).run state = (.ok state, state) :=
  rfl

@[simp] theorem run_set (state after : σ) :
    (set after : Action σ PUnit).run state = (.ok ⟨⟩, after) :=
  rfl

@[simp] theorem run_modify (change : σ → σ) (state : σ) :
    (modify change : Action σ PUnit).run state = (.ok ⟨⟩, change state) :=
  rfl

theorem run_bind (first : Action σ α) (next : α → Action σ β) (state : σ) :
    (first >>= next).run state =
      match first.run state with
      | (.ok value, state) => (next value).run state
      | (.error error, state) => (.error error, state) :=
  rfl

@[simp] theorem run_ite {condition : Prop} [Decidable condition] (yes no : Action σ α)
    (state : σ) :
    (if condition then yes else no).run state =
      if condition then yes.run state else no.run state := by
  split <;> rfl

theorem run_bind_of_ok {first : Action σ α} {next : α → Action σ β} {state after : σ} {value : α}
    (returns : first.run state = (.ok value, after)) :
    (first >>= next).run state = (next value).run after := by
  rw [run_bind, returns]

theorem run_bind_of_error {first : Action σ α} {next : α → Action σ β} {state after : σ}
    {error : ErrorData} (throws : first.run state = (.error error, after)) :
    (first >>= next).run state = (.error error, after) := by
  rw [run_bind, throws]

/-- A sequence returns exactly if both parts do, one after the other. -/
theorem run_bind_eq_ok_iff {first : Action σ α} {next : α → Action σ β} {state after : σ}
    {result : β} :
    (first >>= next).run state = (.ok result, after) ↔
      ∃ value between, first.run state = (.ok value, between) ∧
        (next value).run between = (.ok result, after) := by
  constructor
  · intro returns
    cases firstEq : first.run state with
    | mk reply between =>
        cases reply with
        | error error =>
            rw [run_bind_of_error firstEq] at returns
            cases returns
        | ok value =>
            rw [run_bind_of_ok firstEq] at returns
            exact ⟨value, between, rfl, returns⟩
  · rintro ⟨value, between, firstReturns, nextReturns⟩
    rw [run_bind_of_ok firstReturns, nextReturns]

/-- What every part of a sequence preserves, the sequence preserves. -/
theorem bind_preserves {motive : σ → Prop} {first : Action σ α} {next : α → Action σ β}
    (firstKeeps : ∀ state, motive state → motive (first.run state).2)
    (nextKeeps : ∀ value state, motive state → motive ((next value).run state).2)
    (state : σ) (holds : motive state) : motive ((first >>= next).run state).2 := by
  have between := firstKeeps state holds
  cases firstEq : first.run state with
  | mk reply after =>
      rw [firstEq] at between
      cases reply with
      | error error =>
          rw [run_bind_of_error firstEq]
          exact between
      | ok value =>
          rw [run_bind_of_ok firstEq]
          exact nextKeeps value after between

end Action

end Httpfs
