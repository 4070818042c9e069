import Httpfs.Text.Core

/-!
# Matching keys against a glob pattern

A key and a pattern are compared segment by segment; a `**` segment stands for
any number of segments.  In prefix mode the question is whether some
continuation of the key may still match.  Matching one segment is a parameter.
-/

namespace Httpfs.S3.Glob

inductive S3GlobMatchMode
  | prefixMode
  | completeMode
  deriving DecidableEq, Repr

open S3GlobMatchMode

/-- `Match`: the segments of a key against the segments of a pattern. -/
def matchSegments (glob : Text → Text → Bool) (mode : S3GlobMatchMode) :
    (pattern key : List Text) → Bool
  | [], key => key.isEmpty
  | segment :: pattern, key =>
      match key with
      | [] => mode == prefixMode
      | first :: rest =>
          if segment = "**".toList then
            pattern.isEmpty ||
              -- The rest of the pattern may start at every remaining segment.
              ((first :: rest).tails.any fun suffix =>
                !suffix.isEmpty && matchSegments glob mode pattern suffix) ||
              mode == prefixMode
          else glob first segment && matchSegments glob mode pattern rest

/-- The segments of a key or of a pattern. -/
def segments (text : Text) : List Text :=
  text.split '/'

/-! ## Segments -/

theorem segments_append_cons (front back : Text) :
    segments (front ++ '/' :: back) = segments front ++ segments back :=
  Text.split_append_cons '/' front back

theorem segments_of_not_mem {text : Text} (free : '/' ∉ text) (nonempty : text ≠ []) :
    segments text = [text] := by
  rw [segments, Text.split, List.splitOn_eq_singleton free,
    List.filter_cons_of_pos (by simpa using nonempty), List.filter_nil]

/-- The segments of a text have only bytes of the text. -/
theorem mem_of_mem_segments {text segment : Text} (isSegment : segment ∈ segments text)
    {byte : Char} (member : byte ∈ segment) : byte ∈ text := by
  induction length : text.length using Nat.strong_induction_on generalizing text with
  | _ size inductionHypothesis =>
      by_cases slash : '/' ∈ text
      · rcases List.eq_append_cons_of_mem slash with ⟨front, back, rfl, free⟩
        rw [segments_append_cons] at isSegment
        rw [List.length_append, List.length_cons] at length
        rcases List.mem_append.mp isSegment with first | later
        · exact List.mem_append_left _ (inductionHypothesis front.length (by omega) first rfl)
        · exact List.mem_append_right _ (List.mem_cons_of_mem _
            (inductionHypothesis back.length (by omega) later rfl))
      · cases text with
        | nil => contradiction
        | cons first rest =>
            rw [segments_of_not_mem slash (List.cons_ne_nil first rest),
              List.mem_singleton] at isSegment
            exact isSegment ▸ member

/-- A text that does not end in a slash has a segment. -/
theorem segments_ne_nil {text : Text} (nonempty : text ≠ []) (noMarker : text.getLast? ≠ some '/') :
    segments text ≠ [] := by
  induction length : text.length using Nat.strong_induction_on generalizing text with
  | _ size inductionHypothesis =>
      by_cases slash : '/' ∈ text
      · rcases List.eq_append_cons_of_mem slash with ⟨front, back, rfl, free⟩
        rw [List.length_append, List.length_cons] at length
        rw [segments_append_cons]
        cases back with
        | nil => simp at noMarker
        | cons first back =>
            have rest := inductionHypothesis (first :: back).length (by omega)
              (List.cons_ne_nil first back) (by simpa using noMarker) rfl
            exact List.append_ne_nil_of_right_ne_nil _ rest
      · rw [segments_of_not_mem slash nonempty]
        exact List.cons_ne_nil text []

/-- A pattern of literal segments and a last `**` matches what goes on after them. -/
theorem matchSegments_literal {glob : Text → Text → Bool} {literals rest : List Text}
    (literal : ∀ segment ∈ literals, segment ≠ "**".toList ∧ glob segment segment = true)
    (nonempty : rest ≠ []) :
    matchSegments glob completeMode (literals ++ ["**".toList]) (literals ++ rest) = true := by
  induction literals with
  | nil =>
      cases rest with
      | nil => contradiction
      | cons first rest =>
          rw [List.nil_append, List.nil_append, matchSegments, if_pos rfl]
          rfl
  | cons segment literals inductionHypothesis =>
      have here := literal segment List.mem_cons_self
      rw [List.cons_append, List.cons_append, matchSegments, if_neg here.1, here.2, Bool.true_and]
      exact inductionHypothesis fun other member =>
        literal other (List.mem_cons_of_mem segment member)

/-! ## Prefix mode -/

section Modes

variable {glob : Text → Text → Bool}

@[simp]
theorem matchSegments_prefixMode_nil (pattern : List Text) :
    matchSegments glob prefixMode pattern [] = true := by
  cases pattern <;> rfl

/-- What matches in either mode has only beginnings that match in prefix mode. -/
theorem matchSegments_prefixMode_of_append {mode : S3GlobMatchMode} {pattern front back : List Text}
    (complete : matchSegments glob mode pattern (front ++ back) = true) :
    matchSegments glob prefixMode pattern front = true := by
  induction pattern generalizing front with
  | nil =>
      rw [matchSegments, List.isEmpty_iff, List.append_eq_nil_iff] at complete
      rw [complete.1, matchSegments_prefixMode_nil]
  | cons segment pattern inductionHypothesis =>
      cases front with
      | nil => rw [matchSegments_prefixMode_nil]
      | cons first rest =>
          rw [List.cons_append, matchSegments] at complete
          rw [matchSegments]
          split
          · simp
          · rename_i single
            rw [if_neg single, Bool.and_eq_true] at complete
            rw [complete.1, inductionHypothesis complete.2]
            rfl

end Modes

end Httpfs.S3.Glob
