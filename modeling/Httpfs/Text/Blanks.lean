import Httpfs.Text.Core

/-!
# Blanks

Spaces and tabs.  The words of a text are what stands between them, and a text is
collapsed when its blanks are single spaces between words.
-/

namespace Httpfs.Text

def isBlank (byte : Char) : Bool :=
  byte == ' ' || byte == '\t'

def words (text : Text) : List Text :=
  (text.splitOnP isBlank).filter fun piece => !piece.isEmpty

/-- Leading and trailing blanks removed, and inner runs of blanks made one space. -/
def collapseBlanks (text : Text) : Text :=
  [' '].intercalate (words text)

/-- Every blank is a space behind something and before something that is no space. -/
structure Collapsed (text : Text) : Prop where
  tabFree : '\t' ∉ text
  between : ∀ front back, text = front ++ ' ' :: back →
    front ≠ [] ∧ ∃ byte rest, back = byte :: rest ∧ byte ≠ ' '

theorem intercalate_cons (separator : Char) (first : Text) (rest : List Text) :
    [separator].intercalate (first :: rest) =
      first ++ rest.flatMap fun piece => separator :: piece := by
  induction rest generalizing first with
  | nil => simp [List.intercalate]
  | cons second rest inductionHypothesis =>
      rw [List.intercalate_cons_cons, inductionHypothesis, List.flatMap_cons, List.append_assoc]
      rfl

theorem collapsed_of_blankFree {text : Text} (free : ∀ byte ∈ text, isBlank byte = false) :
    Collapsed text where
  tabFree := fun member => absurd (free _ member) (by decide)
  between := by
    rintro front back rfl
    exact absurd (free ' ' (List.mem_append_right front List.mem_cons_self)) (by decide)

theorem collapsed_nil : Collapsed [] :=
  collapsed_of_blankFree fun _ impossible => absurd impossible List.not_mem_nil

/-! ## Reading byte by byte -/

/-- One byte of a text that is collapsed while it is read: the text so far, and whether
a blank came last. -/
def collapseStep (state : Text × Bool) (byte : Char) : Text × Bool :=
  if isBlank byte then (state.1, !state.1.isEmpty)
  else ((if state.2 then state.1 ++ [' '] else state.1) ++ [byte], false)

/-- Words behind a text that is not empty. -/
def spaced (pieces : List Text) : Text :=
  (pieces.filter fun piece => !piece.isEmpty).flatMap fun word => ' ' :: word

/-- What is read from a text behind another, by the pieces between its blanks. -/
theorem foldl_collapseStep (rest : Text) :
    ∃ first others, rest.splitOnP isBlank = first :: others ∧
      (∀ result, result ≠ [] →
        (rest.foldl collapseStep (result, false)).1 = result ++ first ++ spaced others ∧
        (rest.foldl collapseStep (result, true)).1 = result ++ spaced (first :: others)) ∧
      (rest.foldl collapseStep ([], false)).1 = collapseBlanks rest := by
  induction rest with
  | nil =>
      refine ⟨[], [], rfl, ?_, rfl⟩
      intro result _
      simp [spaced]
  | cons byte rest inductionHypothesis =>
      obtain ⟨first, others, pieces, behind, alone⟩ := inductionHypothesis
      by_cases blank : isBlank byte = true
      · refine ⟨[], first :: others, ?_, ?_, ?_⟩
        · rw [List.splitOnP_cons_eq_if_modifyHead, if_pos blank, pieces]
        · intro result nonempty
          have step (pending : Bool) : collapseStep (result, pending) byte = (result, true) := by
            rw [collapseStep, if_pos blank]
            simpa using nonempty
          rw [List.foldl_cons, List.foldl_cons, step, step, (behind result nonempty).2]
          constructor
          · rw [List.append_nil]
          · rfl
        · have step : collapseStep ([], false) byte = ([], false) := by
            rw [collapseStep, if_pos blank]
            rfl
          rw [List.foldl_cons, step, alone, collapseBlanks, collapseBlanks, words, words,
            List.splitOnP_cons_eq_if_modifyHead, if_pos blank, List.filter_cons_of_neg (by simp)]
      · refine ⟨byte :: first, others, ?_, ?_, ?_⟩
        · rw [List.splitOnP_cons_eq_if_modifyHead, if_neg blank, pieces]
          rfl
        · intro result nonempty
          rw [List.foldl_cons, List.foldl_cons, collapseStep, collapseStep, if_neg blank, if_neg blank]
          constructor
          · rw [if_neg Bool.false_ne_true, (behind _ (by simp)).1]
            simp
          · rw [if_pos rfl, (behind _ (by simp)).1, spaced, spaced,
              List.filter_cons_of_pos (by simp), List.flatMap_cons]
            simp
        · have step : collapseStep ([], false) byte = ([byte], false) := by
            rw [collapseStep, if_neg blank]
            rfl
          rw [List.foldl_cons, step, (behind _ (by simp)).1, collapseBlanks, words,
            List.splitOnP_cons_eq_if_modifyHead, if_neg blank, pieces]
          change _ = [' '].intercalate (((byte :: first) :: others).filter _)
          rw [List.filter_cons_of_pos (by simp), intercalate_cons]
          rfl

theorem collapseStep_eq (text : Text) :
    (text.foldl collapseStep ([], false)).1 = collapseBlanks text := by
  obtain ⟨-, -, -, -, alone⟩ := foldl_collapseStep text
  exact alone

/-- A collapsed text stays as it is. -/
theorem foldl_collapseStep_of_collapsed {text : Text} (collapsed : Collapsed text) (rest : Text) :
    (∀ front, text = front ++ rest → (rest.foldl collapseStep (front, false)).1 = text) ∧
      ∀ front, text = front ++ ' ' :: rest → (rest.foldl collapseStep (front, true)).1 = text := by
  induction rest with
  | nil =>
      constructor
      · rintro front rfl
        exact (List.append_nil front).symm
      · intro front eq
        obtain ⟨-, byte, rest, impossible, -⟩ := collapsed.between front [] eq
        contradiction
  | cons byte rest inductionHypothesis =>
      constructor
      · intro front eq
        rw [List.foldl_cons, collapseStep]
        by_cases blank : isBlank byte = true
        · have space : byte = ' ' := by
            rcases Bool.or_eq_true_iff.mp blank with space | tab
            · exact beq_iff_eq.mp space
            · exfalso
              apply collapsed.tabFree
              rw [eq, ← beq_iff_eq.mp tab]
              exact List.mem_append_right front List.mem_cons_self
          subst space
          obtain ⟨nonempty, -⟩ := collapsed.between front rest eq
          have started : (!front.isEmpty) = true := by simpa using nonempty
          rw [if_pos blank, started]
          exact inductionHypothesis.2 front eq
        · rw [if_neg blank, if_neg Bool.false_ne_true]
          exact inductionHypothesis.1 (front ++ [byte]) (by rw [eq]; simp)
      · intro front eq
        obtain ⟨-, next, behind, same, noSpace⟩ := collapsed.between front (byte :: rest) eq
        obtain ⟨rfl, rfl⟩ := List.cons.inj same
        have solid : isBlank byte = false := by
          rw [isBlank, Bool.or_eq_false_iff, beq_eq_false_iff_ne, beq_eq_false_iff_ne]
          refine ⟨noSpace, ?_⟩
          rintro rfl
          apply collapsed.tabFree
          rw [eq]
          simp
        rw [List.foldl_cons, collapseStep, if_neg (Bool.eq_false_iff.mp solid), if_pos rfl]
        exact inductionHypothesis.1 (front ++ [' '] ++ [byte]) (by rw [eq]; simp)

theorem collapseBlanks_of_collapsed {text : Text} (collapsed : Collapsed text) :
    collapseBlanks text = text := by
  rw [← collapseStep_eq]
  exact (foldl_collapseStep_of_collapsed collapsed text).1 [] rfl

end Httpfs.Text
