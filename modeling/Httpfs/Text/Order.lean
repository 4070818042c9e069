import Httpfs.Text.Core
import Mathlib.Data.Char
import Mathlib.Data.List.Lex
import Mathlib.Data.List.Sort
import Mathlib.Data.Prod.Lex

/-!
# Sorted pairs

Texts are ordered by their bytes, pairs of texts by the first and then by the
second.
-/

namespace Httpfs.Text

/-! ## Sorting by a key -/

universe u v

section Keys

variable {α : Type u} {κ : Type v} [LinearOrder κ] (key : α → κ)

theorem pairwise_insertionSort_key (elements : List α) :
    (elements.insertionSort fun left right => key left ≤ key right).Pairwise
      fun left right => key left ≤ key right := by
  have total : Std.Total fun left right : α => key left ≤ key right :=
    ⟨fun left right => le_total (key left) (key right)⟩
  have trans : IsTrans α fun left right => key left ≤ key right :=
    ⟨fun _ _ _ => le_trans⟩
  exact List.pairwise_insertionSort _ elements

/-- Where a key tells the elements apart, the sorted list does not depend on the order
in which they come. -/
theorem insertionSort_eq_of_perm {elements others : List α} (perm : elements.Perm others)
    (apart : ∀ left ∈ elements, ∀ right ∈ elements, key left = key right → left = right) :
    (elements.insertionSort fun left right => key left ≤ key right) =
      others.insertionSort fun left right => key left ≤ key right := by
  have sorting (list : List α) :
      (list.insertionSort fun left right => key left ≤ key right).Perm list :=
    List.perm_insertionSort _ list
  apply List.Perm.eq_of_pairwise _ (pairwise_insertionSort_key key elements)
    (pairwise_insertionSort_key key others)
    ((sorting elements).trans (perm.trans (sorting others).symm))
  intro left right isLeft isRight before after
  have inElements : left ∈ elements := (sorting elements).mem_iff.mp isLeft
  have alsoInElements : right ∈ elements := perm.mem_iff.mpr ((sorting others).mem_iff.mp isRight)
  exact apart left inElements right alsoInElements (le_antisymm before after)

end Keys

/-! ## Pairs -/

def sortPairs (pairs : List (Text × Text)) : List (Text × Text) :=
  pairs.insertionSort fun left right => toLex left ≤ toLex right

theorem sortPairs_perm (pairs : List (Text × Text)) : (sortPairs pairs).Perm pairs :=
  List.perm_insertionSort _ pairs

theorem sortPairs_pairwise (pairs : List (Text × Text)) :
    (sortPairs pairs).Pairwise fun left right => toLex left ≤ toLex right :=
  pairwise_insertionSort_key toLex pairs

/-- Distinct names come out in strictly increasing order. -/
theorem sortPairs_names {pairs : List (Text × Text)} (distinct : (pairs.map Prod.fst).Nodup) :
    (sortPairs pairs).Pairwise fun left right => left.1 < right.1 := by
  have names : ((sortPairs pairs).map Prod.fst).Nodup :=
    ((sortPairs_perm pairs).map Prod.fst).nodup_iff.mpr distinct
  have apart := List.pairwise_map.mp names
  apply (List.pairwise_and_iff.mpr ⟨sortPairs_pairwise pairs, apart⟩).imp
  rintro left right ⟨ordered, different⟩
  rcases Prod.Lex.toLex_le_toLex.mp ordered with less | ⟨same, -⟩
  · exact less
  · exact absurd same different

/-! ## Case -/

private theorem le_toLower (byte : Char) : byte ≤ byte.toLower := by
  by_cases upper : byte.val ≥ 'A'.val ∧ byte.val ≤ 'Z'.val
  · apply UInt32.le_iff_toNat_le.mpr
    rw [toNat_toLower_of_upper upper]
    exact Nat.le_add_right _ _
  · rw [toLower_of_not_upper upper]

/-- A text in lower case comes last among its spellings. -/
theorem le_lower (text : Text) : text ≤ lower text := by
  induction text with
  | nil => exact le_refl _
  | cons byte text ih =>
      rcases lt_or_eq_of_le (le_toLower byte) with less | same
      · exact le_of_lt (List.Lex.rel less)
      · rcases lt_or_eq_of_le ih with later | rest
        · apply le_of_lt
          change List.Lex (· < ·) (byte :: text) (byte.toLower :: lower text)
          rw [← same]
          exact List.Lex.cons later
        · change byte :: text ≤ byte.toLower :: lower text
          rw [← same, ← rest]

end Httpfs.Text
