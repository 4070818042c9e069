import Mathlib.Data.Set.Basic
import Mathlib.Logic.Function.Basic

/-!
# Options that are set and put back

An object with options is used again and again: each use sets the options it
cares about and puts some of them back behind it.  Two objects are alike if their
options agree but for a set of free ones, where an option that was put back counts
as one that was never set.  What a use that sets every free option sees does not
depend on the uses before it.
-/

namespace Httpfs.Options

universe u v

variable {κ : Type u} {ν : Type v}

/-! ## Setting -/

section Assign

variable [DecidableEq κ]

/-- Set options one after the other. -/
def assign (options : κ → Option ν) : List (κ × ν) → κ → Option ν
  | [] => options
  | (key, value) :: changes => assign (Function.update options key (some value)) changes

@[simp]
theorem assign_nil (options : κ → Option ν) : assign options [] = options :=
  rfl

@[simp]
theorem assign_cons (options : κ → Option ν) (key : κ) (value : ν) (changes : List (κ × ν)) :
    assign options ((key, value) :: changes) =
      assign (Function.update options key (some value)) changes :=
  rfl

theorem assign_append (options : κ → Option ν) (first second : List (κ × ν)) :
    assign options (first ++ second) = assign (assign options first) second := by
  induction first generalizing options with
  | nil => rfl
  | cons change rest inductionHypothesis => exact inductionHypothesis _

/-- An option that is not set keeps its value. -/
theorem assign_of_notMem {options : κ → Option ν} {changes : List (κ × ν)} {key : κ}
    (untouched : key ∉ changes.map Prod.fst) : assign options changes key = options key := by
  induction changes generalizing options with
  | nil => rfl
  | cons change rest inductionHypothesis =>
      rw [List.map_cons, List.mem_cons, not_or] at untouched
      rw [assign_cons, inductionHypothesis untouched.2, Function.update_of_ne untouched.1]

/-- An option that is set has the same value whatever it was before. -/
theorem assign_of_mem {changes : List (κ × ν)} {key : κ}
    (touched : key ∈ changes.map Prod.fst) (options others : κ → Option ν) :
    assign options changes key = assign others changes key := by
  induction changes generalizing options others with
  | nil => contradiction
  | cons change rest inductionHypothesis =>
      by_cases later : key ∈ rest.map Prod.fst
      · exact inductionHypothesis later _ _
      · have here : key = change.1 := by
          rw [List.map_cons, List.mem_cons] at touched
          exact touched.resolve_right later
        rw [assign_cons, assign_cons, assign_of_notMem later, assign_of_notMem later, here,
          Function.update_self, Function.update_self]

end Assign

/-! ## Options that were put back -/

variable [DecidableEq ν]

/-- An option at its rest value counts as unset. -/
def effective (rest options : κ → Option ν) (key : κ) : Option ν :=
  if options key = rest key then none else options key

theorem effective_congr (rest : κ → Option ν) {first second : κ → Option ν} {key : κ}
    (same : first key = second key) : effective rest first key = effective rest second key := by
  simp only [effective, same]

/-- An option that was put back counts as one that was never set. -/
theorem effective_eq_none {rest options : κ → Option ν} {key : κ}
    (back : options key = none ∨ options key = rest key) :
    effective rest options key = none := by
  rcases back with unset | resting
  · simp [effective, unset]
  · simp [effective, resting]

/-- The options agree but for the free ones. -/
def Alike (rest : κ → Option ν) (free : Set κ) (first second : κ → Option ν) : Prop :=
  ∀ key, key ∉ free → effective rest first key = effective rest second key

namespace Alike

variable {rest : κ → Option ν} {free larger : Set κ} {first second third base : κ → Option ν}

theorem refl (rest : κ → Option ν) (free : Set κ) (options : κ → Option ν) :
    Alike rest free options options :=
  fun _ _ => Eq.refl _

theorem trans (alike : Alike rest free first second) (other : Alike rest free second third) :
    Alike rest free first third :=
  fun key fixed => (alike key fixed).trans (other key fixed)

theorem mono (alike : Alike rest free first second) (more : free ⊆ larger) :
    Alike rest larger first second :=
  fun key fixed => alike key fun member => fixed (more member)

variable [DecidableEq κ]

/-- Options that are set alike agree from then on. -/
theorem assign (alike : Alike rest free first second) (changes : List (κ × ν)) :
    Alike rest (free \ {key | key ∈ changes.map Prod.fst}) (assign first changes)
      (assign second changes) := by
  intro key fixed
  by_cases touched : key ∈ changes.map Prod.fst
  · exact effective_congr rest (assign_of_mem touched first second)
  · have kept : key ∉ free := fun member => fixed ⟨member, touched⟩
    simpa only [effective, assign_of_notMem touched] using alike key kept

/-- A use that sets every free option finds the same options on both. -/
theorem effective_eq (alike : Alike rest free first second) {changes : List (κ × ν)}
    (covers : ∀ key ∈ free, key ∈ changes.map Prod.fst) :
    effective rest (Options.assign first changes) =
      effective rest (Options.assign second changes) := by
  funext key
  apply alike.assign changes
  rintro ⟨member, untouched⟩
  exact untouched (covers key member)

/-- A use that leaves one object as it was leaves every object alike to it. -/
theorem restore {changes : List (κ × ν)} (alike : Alike rest free first base)
    (restores : Alike rest free (Options.assign base changes) base) :
    Alike rest free (Options.assign first changes) base :=
  ((alike.assign changes).mono fun _ member => member.1).trans restores

/-- Only the options that are set need to be put back. -/
theorem of_touched {changes : List (κ × ν)}
    (back : ∀ key ∈ changes.map Prod.fst, key ∉ free →
      effective rest (Options.assign base changes) key = effective rest base key) :
    Alike rest free (Options.assign base changes) base := by
  intro key fixed
  by_cases touched : key ∈ changes.map Prod.fst
  · exact back key touched fixed
  · exact effective_congr rest (assign_of_notMem touched)

end Alike

end Httpfs.Options
