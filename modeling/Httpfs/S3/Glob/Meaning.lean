import Httpfs.Http.HuggingFace.Glob
import Httpfs.S3.Glob.Match

/-!
# What a pattern means

A pattern stands for the keys that fall into one part for each of its segments: a
segment is matched by one segment of the key, and `**` by any number of them, by at
least one at the end.  Both matchers decide this.
-/

namespace Httpfs.S3.Glob

open S3GlobMatchMode Http.HuggingFace

/-- The part of a key that a segment of a pattern stands for. -/
def Consumes (glob : Text → Text → Bool) (isLast : Bool) (segment : Text) (part : List Text) : Prop :=
  if segment = "**".toList then isLast = true → part ≠ []
  else ∃ single, part = [single] ∧ glob single segment = true

/-- Every segment of a pattern stands for the part at its place. -/
def ExpandsTo (glob : Text → Text → Bool) : (pattern : List Text) → (parts : List (List Text)) → Prop
  | [], [] => True
  | segment :: pattern, part :: parts =>
      Consumes glob pattern.isEmpty segment part ∧ ExpandsTo glob pattern parts
  | _, _ => False

section

variable {glob : Text → Text → Bool}

/-- A pattern with a segment stands for no empty key. -/
theorem ExpandsTo.flatten_ne_nil {pattern : List Text} {parts : List (List Text)}
    (expands : ExpandsTo glob pattern parts) (nonempty : pattern ≠ []) : parts.flatten ≠ [] := by
  induction pattern generalizing parts with
  | nil => contradiction
  | cons segment pattern inductionHypothesis =>
      cases parts with
      | nil => exact expands.elim
      | cons part parts =>
          obtain ⟨consumes, rest⟩ := expands
          cases pattern with
          | nil =>
              rw [List.flatten_cons]
              apply List.append_ne_nil_of_left_ne_nil
              unfold Consumes at consumes
              split at consumes
              · exact consumes rfl
              · rcases consumes with ⟨single, rfl, -⟩
                exact List.cons_ne_nil _ _
          | cons next pattern =>
              rw [List.flatten_cons]
              exact List.append_ne_nil_of_right_ne_nil _
                (inductionHypothesis rest (List.cons_ne_nil _ _))

/-- What follows `**` may start at any segment that is left. -/
theorem exists_suffix_iff {pattern key : List Text} (more : pattern ≠ []) :
    (∃ parts, ExpandsTo glob ("**".toList :: pattern) parts ∧ parts.flatten = key) ↔
      ∃ suffix ∈ key.tails, suffix ≠ [] ∧
        ∃ parts, ExpandsTo glob pattern parts ∧ parts.flatten = suffix := by
  constructor
  · rintro ⟨parts, expands, rfl⟩
    cases parts with
    | nil => exact expands.elim
    | cons part parts =>
        obtain ⟨-, rest⟩ := expands
        refine ⟨parts.flatten, ?_, rest.flatten_ne_nil more, parts, rest, rfl⟩
        rw [List.mem_tails, List.flatten_cons]
        exact List.suffix_append _ _
  · rintro ⟨suffix, isSuffix, -, parts, expands, rfl⟩
    rcases (List.mem_tails _ _).mp isSuffix with ⟨front, rfl⟩
    refine ⟨front :: parts, ⟨?_, expands⟩, List.flatten_cons⟩
    rw [Consumes, if_pos rfl]
    intro isLast
    exact absurd (List.isEmpty_iff.mp isLast) more

/-- A matcher decides what a pattern means if it goes through pattern and key as the two
matchers do. -/
theorem decides_of_steps {accepts : (pattern key : List Text) → Bool}
    (nil : ∀ key, accepts [] key = key.isEmpty)
    (short : ∀ segment pattern, accepts (segment :: pattern) [] = false)
    (last : ∀ first rest, accepts ["**".toList] (first :: rest) = true)
    (star : ∀ pattern first rest, pattern ≠ [] →
      (accepts ("**".toList :: pattern) (first :: rest) = true ↔
        ∃ suffix ∈ (first :: rest).tails, suffix ≠ [] ∧ accepts pattern suffix = true))
    (single : ∀ segment pattern first rest, segment ≠ "**".toList →
      accepts (segment :: pattern) (first :: rest) =
        (glob first segment && accepts pattern rest)) (pattern key : List Text) :
    accepts pattern key = true ↔
      ∃ parts, ExpandsTo glob pattern parts ∧ parts.flatten = key := by
  induction pattern generalizing key with
  | nil =>
      rw [nil, List.isEmpty_iff]
      constructor
      · rintro rfl
        exact ⟨[], trivial, rfl⟩
      · rintro ⟨parts, expands, rfl⟩
        cases parts with
        | nil => rfl
        | cons part parts => exact expands.elim
  | cons segment pattern inductionHypothesis =>
      cases key with
      | nil =>
          rw [short]
          constructor
          · intro impossible
            contradiction
          · rintro ⟨parts, expands, empty⟩
            exact absurd empty (expands.flatten_ne_nil (List.cons_ne_nil _ _))
      | cons first rest =>
          by_cases isStar : segment = "**".toList
          · subst isStar
            cases pattern with
            | nil =>
                rw [last]
                apply iff_of_true rfl
                refine ⟨[first :: rest], ⟨?_, trivial⟩, List.flatten_singleton⟩
                rw [Consumes, if_pos rfl]
                exact fun _ => List.cons_ne_nil _ _
            | cons next pattern =>
                have more := List.cons_ne_nil next pattern
                rw [star _ _ _ more, exists_suffix_iff more]
                constructor
                · rintro ⟨suffix, isSuffix, nonempty, matched⟩
                  exact ⟨suffix, isSuffix, nonempty, (inductionHypothesis suffix).mp matched⟩
                · rintro ⟨suffix, isSuffix, nonempty, meant⟩
                  exact ⟨suffix, isSuffix, nonempty, (inductionHypothesis suffix).mpr meant⟩
          · rw [single _ _ _ _ isStar, Bool.and_eq_true, inductionHypothesis]
            constructor
            · rintro ⟨accepted, parts, expands, rfl⟩
              refine ⟨[first] :: parts, ⟨?_, expands⟩, rfl⟩
              rw [Consumes, if_neg isStar]
              exact ⟨first, rfl, accepted⟩
            · rintro ⟨parts, expands, flat⟩
              cases parts with
              | nil => exact expands.elim
              | cons part parts =>
                  obtain ⟨consumes, restExpands⟩ := expands
                  rw [Consumes, if_neg isStar] at consumes
                  rcases consumes with ⟨only, rfl, accepted⟩
                  rw [List.flatten_cons, List.singleton_append, List.cons.injEq] at flat
                  exact ⟨flat.1 ▸ accepted, parts, restExpands, flat.2⟩

theorem matchSegments_completeMode_iff (pattern key : List Text) :
    matchSegments glob completeMode pattern key = true ↔
      ∃ parts, ExpandsTo glob pattern parts ∧ parts.flatten = key := by
  apply decides_of_steps
  · exact fun key => rfl
  · exact fun segment pattern => rfl
  · intro first rest
    rw [matchSegments, if_pos rfl]
    rfl
  · intro pattern first rest more
    rw [matchSegments, if_pos rfl]
    simp [more]
  · intro segment pattern first rest single
    rw [matchSegments, if_neg single]

theorem matchSplits_iff (pattern key : List Text) :
    matchSplits glob key pattern = true ↔
      ∃ parts, ExpandsTo glob pattern parts ∧ parts.flatten = key := by
  apply @decides_of_steps glob fun pattern key => matchSplits glob key pattern
  · exact fun key => by rw [matchSplits]
  · exact fun segment pattern => by rw [matchSplits]
  · intro first rest
    rw [matchSplits, if_pos rfl]
    rfl
  · intro pattern first rest more
    rw [matchSplits, if_pos rfl]
    simp [more]
  · intro segment pattern first rest single
    rw [matchSplits, if_neg single]

/-- Both matchers decide what a pattern means, and so they agree. -/
theorem matchers_decide_meaning (glob : Text → Text → Bool) (pattern key : List Text) :
    (matchSegments glob completeMode pattern key = true ↔
      ∃ parts, ExpandsTo glob pattern parts ∧ parts.flatten = key) ∧
    matchSegments glob completeMode pattern key = matchSplits glob key pattern := by
  refine ⟨matchSegments_completeMode_iff pattern key, ?_⟩
  rw [Bool.eq_iff_iff, matchSegments_completeMode_iff, matchSplits_iff]

end

end Httpfs.S3.Glob
