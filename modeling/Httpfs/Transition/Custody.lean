import Mathlib.Logic.Basic

/-!
# Objects that change hands

Objects are numbered in the order in which they are made, and every one of them is
in the hands of one holder at most.  A step lets objects go, moves one from a giver
to a receiver, or makes one.
-/

namespace Httpfs.Transition

universe u

variable {α : Type u}

/-- No object is held twice, and every one that is held has been made. -/
structure Custody (held : α → Nat → Prop) (next : Nat) : Prop where
  unique : ∀ first second number, held first number → held second number → first = second
  numbered : ∀ holder number, held holder number → number < next

namespace Custody

variable {held held' : α → Nat → Prop} {next next' : Nat}

theorem empty (none : ∀ holder number, ¬ held holder number) : Custody held next where
  unique := fun first _ number holds => absurd holds (none first number)
  numbered := fun holder number holds => absurd holds (none holder number)

theorem letGo (custody : Custody held next)
    (keeps : ∀ holder number, held' holder number → held holder number) (more : next ≤ next') :
    Custody held' next' where
  unique := fun first second number firstHolds secondHolds =>
    custody.unique first second number (keeps _ _ firstHolds) (keeps _ _ secondHolds)
  numbered := fun holder number holds =>
    Nat.lt_of_lt_of_le (custody.numbered holder number (keeps _ _ holds)) more

/-- The giver no longer holds what the receiver gets. -/
theorem move (custody : Custody held next) {giver receiver : α} {passed : Nat}
    (gives : held giver passed)
    (moves : ∀ holder number, held' holder number →
      (holder = receiver ∧ number = passed) ∨ (holder ≠ giver ∧ held holder number))
    (more : next ≤ next') : Custody held' next' where
  unique := by
    intro first second number firstHolds secondHolds
    have alone (holder : α) (number : Nat) (other : holder ≠ giver) (holds : held holder number) :
        number ≠ passed := by
      rintro rfl
      exact other (custody.unique _ _ _ holds gives)
    rcases moves _ _ firstHolds with ⟨rfl, rfl⟩ | ⟨firstOther, firstHeld⟩
    · rcases moves _ _ secondHolds with ⟨same, _⟩ | ⟨secondOther, secondHeld⟩
      · exact same.symm
      · exact absurd rfl (alone second number secondOther secondHeld)
    · rcases moves _ _ secondHolds with ⟨_, rfl⟩ | ⟨_, secondHeld⟩
      · exact absurd rfl (alone first number firstOther firstHeld)
      · exact custody.unique _ _ _ firstHeld secondHeld
  numbered := by
    intro holder number holds
    rcases moves _ _ holds with ⟨_, rfl⟩ | ⟨_, held⟩
    · exact Nat.lt_of_lt_of_le (custody.numbered _ _ gives) more
    · exact Nat.lt_of_lt_of_le (custody.numbered _ _ held) more

/-- Only the receiver has the new object. -/
theorem make (custody : Custody held next) {receiver : α}
    (makes : ∀ holder number, held' holder number →
      (holder = receiver ∧ number = next) ∨ held holder number)
    (more : next < next') : Custody held' next' where
  unique := by
    intro first second number firstHolds secondHolds
    rcases makes _ _ firstHolds with ⟨rfl, rfl⟩ | firstHeld
    · rcases makes _ _ secondHolds with ⟨same, _⟩ | secondHeld
      · exact same.symm
      · exact absurd (custody.numbered _ _ secondHeld) (Nat.lt_irrefl _)
    · rcases makes _ _ secondHolds with ⟨_, rfl⟩ | secondHeld
      · exact absurd (custody.numbered _ _ firstHeld) (Nat.lt_irrefl _)
      · exact custody.unique _ _ _ firstHeld secondHeld
  numbered := by
    intro holder number holds
    rcases makes _ _ holds with ⟨_, rfl⟩ | held
    · exact more
    · exact Nat.lt_trans (custody.numbered _ _ held) more

end Custody

end Httpfs.Transition
