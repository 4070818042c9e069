import Mathlib.Algebra.Order.Ring.Nat
import Mathlib.Tactic.Common
import Mathlib.Order.Basic

/-!
# Bisection for the least solution of an upward-closed predicate

The search narrows an interval `[lower, upper]` until it is a point.  The
upper end is never tested: the caller vouches for it.  The number of rounds is
bounded by the bit length of the interval, so recursion on a bit count is
total and still computes on large literals.
-/

namespace Httpfs.Search

/-- Bisection with at most `rounds` halvings of `[lower, upper]`. -/
def bisect (accepts : Nat → Bool) : Nat → Nat → Nat → Nat
  | 0, lower, _ => lower
  | rounds + 1, lower, upper =>
      if lower < upper then
        let middle := lower + (upper - lower) / 2
        if accepts middle then
          bisect accepts rounds lower middle
        else
          bisect accepts rounds (middle + 1) upper
      else
        lower

/-- A value is the least accepted one of an interval. -/
structure IsLeastIn (accepts : Nat → Bool) (lower upper value : Nat) : Prop where
  lower_le : lower ≤ value
  le_upper : value ≤ upper
  accepted : accepts value = true
  least : ∀ other, lower ≤ other → accepts other = true → value ≤ other

variable {accepts : Nat → Bool}

/-- Bisection returns the least accepted value of an interval whose upper end
is accepted, once the rounds cover the bit length of the interval. -/
theorem bisect_isLeastIn
    (monotone : ∀ ⦃small large⦄, small ≤ large → accepts small = true →
      accepts large = true)
    {rounds lower upper : Nat} (order : lower ≤ upper)
    (accepted : accepts upper = true) (enough : upper - lower < 2 ^ rounds) :
    IsLeastIn accepts lower upper (bisect accepts rounds lower upper) := by
  induction rounds generalizing lower upper with
  | zero =>
      have equal : lower = upper := by simp at enough; omega
      subst equal
      exact ⟨le_refl _, le_refl _, accepted, fun _ bound _ => bound⟩
  | succ rounds inductionHypothesis =>
      simp only [bisect]
      split
      · rename_i narrow
        have half : 2 ^ (rounds + 1) = 2 * 2 ^ rounds := Nat.pow_succ'
        split
        · rename_i middleAccepted
          have result := @inductionHypothesis lower (lower + (upper - lower) / 2)
            (by omega) middleAccepted (by omega)
          exact ⟨result.lower_le, result.le_upper.trans (by omega),
            result.accepted, result.least⟩
        · rename_i middleRejected
          have result := @inductionHypothesis (lower + (upper - lower) / 2 + 1) upper
            (by omega) accepted (by omega)
          refine ⟨by have := result.lower_le; omega, result.le_upper,
            result.accepted, ?_⟩
          intro other bound otherAccepted
          -- An accepted value below the middle would make the middle accepted.
          apply result.least other _ otherAccepted
          by_contra below
          exact middleRejected (monotone (by omega) otherAccepted)
      · rename_i point
        have equal : lower = upper := by omega
        subst equal
        exact ⟨le_refl _, le_refl _, accepted, fun _ bound _ => bound⟩

end Httpfs.Search
