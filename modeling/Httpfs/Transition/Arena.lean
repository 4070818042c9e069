import Mathlib.Logic.Basic
import Mathlib.Tactic.ByContra

/-!
# Live objects

The objects alive at one moment, each under a handle that is never given out
twice.  Objects are created, changed in place and destroyed.
-/

namespace Httpfs.Transition

universe u

/-- The live objects by their handles; handles from `next` on are unused. -/
structure Arena (α : Type u) where
  get : Nat → Option α
  next : Nat
  unused : ∀ handle, next ≤ handle → get handle = none

namespace Arena

variable {α : Type u}

def empty : Arena α :=
  ⟨fun _ => none, 0, fun _ _ => rfl⟩

/-- A new object, under the next handle. -/
def insert (arena : Arena α) (value : α) : Arena α where
  get handle := if handle = arena.next then some value else arena.get handle
  next := arena.next + 1
  unused handle beyond := by
    rw [if_neg (by omega)]
    exact arena.unused handle (by omega)

/-- Change the object under a handle, if it is alive. -/
def modify (arena : Arena α) (handle : Nat) (change : α → α) : Arena α where
  get other := if other = handle then (arena.get other).map change else arena.get other
  next := arena.next
  unused other beyond := by
    rw [arena.unused other beyond]
    simp

def erase (arena : Arena α) (handle : Nat) : Arena α where
  get other := if other = handle then none else arena.get other
  next := arena.next
  unused other beyond := by
    rw [arena.unused other beyond]
    simp

@[simp]
theorem get_empty (handle : Nat) : (empty : Arena α).get handle = none :=
  rfl

@[simp]
theorem get_insert_next (arena : Arena α) (value : α) :
    (arena.insert value).get arena.next = some value :=
  if_pos rfl

@[simp]
theorem get_modify_self (arena : Arena α) (handle : Nat) (change : α → α) :
    (arena.modify handle change).get handle = (arena.get handle).map change :=
  if_pos rfl

@[simp]
theorem get_erase_self (arena : Arena α) (handle : Nat) :
    (arena.erase handle).get handle = none :=
  if_pos rfl

theorem get_modify_of_ne (arena : Arena α) {handle other : Nat} (change : α → α)
    (different : other ≠ handle) :
    (arena.modify handle change).get other = arena.get other :=
  if_neg different

theorem get_erase_of_ne (arena : Arena α) {handle other : Nat} (different : other ≠ handle) :
    (arena.erase handle).get other = arena.get other :=
  if_neg different

/-- A live handle has been given out. -/
theorem lt_next {arena : Arena α} {handle : Nat} {value : α}
    (live : arena.get handle = some value) : handle < arena.next := by
  by_contra beyond
  rw [arena.unused handle (by omega)] at live
  contradiction

theorem get_insert_of_live {arena : Arena α} {handle : Nat} {value : α} (new : α)
    (live : arena.get handle = some value) : (arena.insert new).get handle = some value := by
  rw [insert]
  dsimp only
  rw [if_neg (Nat.ne_of_lt (lt_next live)), live]

/-! ## All objects, some object, at most one object -/

def All (p : α → Prop) (arena : Arena α) : Prop :=
  ∀ handle value, arena.get handle = some value → p value

def Any (p : α → Prop) (arena : Arena α) : Prop :=
  ∃ handle value, arena.get handle = some value ∧ p value

def AtMostOne (p : α → Prop) (arena : Arena α) : Prop :=
  ∀ first second value other, arena.get first = some value → arena.get second = some other →
    p value → p other → first = second

variable {p : α → Prop} {arena : Arena α} {handle : Nat} {value : α} {change : α → α}

theorem get_modify_cases {other : Nat} {found : α}
    (live : (arena.modify handle change).get other = some found) :
    (other = handle ∧ ∃ before, arena.get handle = some before ∧ change before = found) ∨
      (other ≠ handle ∧ arena.get other = some found) := by
  by_cases same : other = handle
  · subst same
    rw [get_modify_self, Option.map_eq_some_iff] at live
    exact .inl ⟨rfl, live⟩
  · rw [get_modify_of_ne _ _ same] at live
    exact .inr ⟨same, live⟩

theorem get_insert_cases {new : α} {other : Nat} {found : α}
    (live : (arena.insert new).get other = some found) :
    (other = arena.next ∧ new = found) ∨ arena.get other = some found := by
  by_cases same : other = arena.next
  · subst same
    rw [get_insert_next] at live
    exact .inl ⟨rfl, Option.some.inj live⟩
  · exact .inr ((if_neg same).symm.trans live)

theorem get_erase_cases {other : Nat} {found : α}
    (live : (arena.erase handle).get other = some found) :
    other ≠ handle ∧ arena.get other = some found := by
  by_cases same : other = handle
  · subst same
    rw [get_erase_self] at live
    contradiction
  · rw [get_erase_of_ne _ same] at live
    exact ⟨same, live⟩

theorem all_empty : All p empty := by
  rintro _ _ ⟨⟩

theorem not_any_empty : ¬ Any p empty := by
  rintro ⟨_, _, ⟨⟩, _⟩

theorem atMostOne_empty : AtMostOne p empty := by
  rintro _ _ _ _ ⟨⟩

theorem All.insert (all : All p arena) (holds : p value) : All p (arena.insert value) := by
  intro other found live
  by_cases same : other = arena.next
  · subst same
    rw [get_insert_next] at live
    cases live
    exact holds
  · exact all other found ((if_neg same).symm.trans live)

theorem All.modify (all : All p arena)
    (holds : ∀ value, arena.get handle = some value → p value → p (change value)) :
    All p (arena.modify handle change) := by
  intro other found live
  rcases get_modify_cases live with ⟨-, before, beforeLive, rfl⟩ | ⟨-, live⟩
  · exact holds before beforeLive (all handle before beforeLive)
  · exact all other found live

theorem All.erase (all : All p arena) (handle : Nat) : All p (arena.erase handle) := by
  intro other found live
  exact all other found (get_erase_cases live).2

theorem any_insert : Any p (arena.insert value) ↔ p value ∨ Any p arena := by
  constructor
  · rintro ⟨handle, found, live, holds⟩
    by_cases same : handle = arena.next
    · subst same
      rw [get_insert_next] at live
      cases live
      exact .inl holds
    · exact .inr ⟨handle, found, (if_neg same).symm.trans live, holds⟩
  · rintro (holds | ⟨handle, found, live, holds⟩)
    · exact ⟨arena.next, value, get_insert_next arena value, holds⟩
    · exact ⟨handle, found, get_insert_of_live value live, holds⟩

theorem AtMostOne.insert (unique : AtMostOne p arena) (first : p value → ¬ Any p arena) :
    AtMostOne p (arena.insert value) := by
  intro left right leftValue rightValue leftLive rightLive leftHolds rightHolds
  by_cases leftNew : left = arena.next
  · subst leftNew
    by_cases rightNew : right = arena.next
    · exact rightNew.symm
    · rw [get_insert_next] at leftLive
      cases leftLive
      exact absurd ⟨right, rightValue, (if_neg rightNew).symm.trans rightLive, rightHolds⟩
        (first leftHolds)
  · have leftBefore : arena.get left = some leftValue := (if_neg leftNew).symm.trans leftLive
    by_cases rightNew : right = arena.next
    · subst rightNew
      rw [get_insert_next] at rightLive
      cases rightLive
      exact absurd ⟨left, leftValue, leftBefore, leftHolds⟩ (first rightHolds)
    · exact unique left right leftValue rightValue leftBefore
        ((if_neg rightNew).symm.trans rightLive) leftHolds rightHolds

/-- Every object that qualifies after a change in place did so before. -/
theorem exists_of_get_modify
    (kept : ∀ value, arena.get handle = some value → p (change value) → p value)
    {other : Nat} {found : α} (live : (arena.modify handle change).get other = some found)
    (holds : p found) : ∃ value, arena.get other = some value ∧ p value := by
  rcases get_modify_cases live with ⟨rfl, before, beforeLive, rfl⟩ | ⟨-, live⟩
  · exact ⟨before, beforeLive, kept before beforeLive holds⟩
  · exact ⟨found, live, holds⟩

theorem AtMostOne.modify (unique : AtMostOne p arena)
    (kept : ∀ value, arena.get handle = some value → p (change value) → p value) :
    AtMostOne p (arena.modify handle change) := by
  intro first second _ _ firstLive secondLive firstHolds secondHolds
  rcases exists_of_get_modify kept firstLive firstHolds with ⟨_, firstBefore, firstHeld⟩
  rcases exists_of_get_modify kept secondLive secondHolds with ⟨_, secondBefore, secondHeld⟩
  exact unique first second _ _ firstBefore secondBefore firstHeld secondHeld

theorem AtMostOne.erase (unique : AtMostOne p arena) (handle : Nat) :
    AtMostOne p (arena.erase handle) := by
  intro first second value other firstLive secondLive
  exact unique first second value other (get_erase_cases firstLive).2
    (get_erase_cases secondLive).2

/-- The only object that qualifies is gone once it no longer does. -/
theorem AtMostOne.not_any_modify (unique : AtMostOne p arena)
    (live : arena.get handle = some value) (holds : p value) (lost : ¬ p (change value)) :
    ¬ Any p (arena.modify handle change) := by
  rintro ⟨other, found, otherLive, otherHolds⟩
  rcases get_modify_cases otherLive with ⟨-, before, beforeLive, rfl⟩ | ⟨different, otherLive⟩
  · cases live.symm.trans beforeLive
    exact lost otherHolds
  · exact different (unique other handle found value otherLive live otherHolds holds)

theorem AtMostOne.not_any_erase (unique : AtMostOne p arena)
    (live : arena.get handle = some value) (holds : p value) : ¬ Any p (arena.erase handle) := by
  rintro ⟨other, found, otherLive, otherHolds⟩
  rcases get_erase_cases otherLive with ⟨different, otherLive⟩
  exact different (unique other handle found value otherLive live otherHolds holds)

/-- Changing an object that does not qualify into one that does not either. -/
theorem any_modify (live : arena.get handle = some value)
    (same : p (change value) ↔ p value) : Any p (arena.modify handle change) ↔ Any p arena := by
  constructor
  · rintro ⟨other, found, otherLive, holds⟩
    rcases exists_of_get_modify (fun before beforeLive holds => by
      rw [live] at beforeLive
      cases beforeLive
      exact same.mp holds) otherLive holds with ⟨before, beforeLive, held⟩
    exact ⟨other, before, beforeLive, held⟩
  · rintro ⟨other, found, otherLive, holds⟩
    by_cases here : other = handle
    · subst here
      rw [live] at otherLive
      cases otherLive
      exact ⟨other, change value, by rw [get_modify_self, live, Option.map_some], same.mpr holds⟩
    · exact ⟨other, found, (get_modify_of_ne _ _ here).trans otherLive, holds⟩

theorem any_erase (live : arena.get handle = some value) (other : ¬ p value) :
    Any p (arena.erase handle) ↔ Any p arena := by
  constructor
  · rintro ⟨position, found, positionLive, holds⟩
    exact ⟨position, found, (get_erase_cases positionLive).2, holds⟩
  · rintro ⟨position, found, positionLive, holds⟩
    by_cases here : position = handle
    · subst here
      rw [live] at positionLive
      cases positionLive
      exact absurd holds other
    · exact ⟨position, found, (get_erase_of_ne _ here).trans positionLive, holds⟩

end Arena

end Httpfs.Transition
