import Httpfs.S3.Xml.Position.Elements

/-!
# Markup by position

Every iteration over a document does to the reader what it does to the reader that holds
what is left, and ends at a later position.
-/

namespace Httpfs.S3.Xml.Position

open Text Cursor

variable {utf8Proc : Utf8Proc} {input : Text} {fuel : Nat}

/-! ## Comments and character data -/

/-- What is left behind a string that was found. -/
theorem stands_behind {position found : Nat} {rest needle : Text}
    (stands : Stands input position rest) (finds : find needle rest = some found) :
    Stands input (position + found + needle.length) (rest.drop (found + needle.length)) := by
  obtain ⟨front, back, rfl, rfl⟩ := exists_of_find_eq_some finds
  have within : front.length + needle.length ≤ (front ++ needle ++ back).length := by
    simp only [List.length_append]
    omega
  rw [Nat.add_assoc]
  exact stands.drop within

theorem parseComment_refines {reader : Reader} (inScope : InScope reader) {content : Text}
    (stands : Stands input reader.position ("<!--".toList ++ content)) :
    Refines (Views input (reader.position + 1)) (parseComment input reader)
      (Xml.parseComment (reader.view input)) := by
  have dropped : (reader.view input).input.drop "<!--".toList.length = content := by
    have left : (reader.view input).input = "<!--".toList ++ content := stands.left
    rw [left, List.drop_left]
  have standsContent := stands.append
  rw [parseComment, Xml.parseComment, dropped]
  dsimp only
  rw [standsContent.findAt_eq, standsContent.findAt_eq]
  cases found : find "-->".toList content with
  | none => exact refines_reject
  | some commentEnd =>
      have standsAfter := stands_behind standsContent found
      let commentBegin := reader.position + "<!--".toList.length
      change Refines _ (require ((find "--".toList content).map (commentBegin + ·) ==
          some (commentBegin + commentEnd)) >>= _)
        (if find "--".toList content = some commentEnd then _ else _)
      apply Refines.require
      · intro invalid
        have differs : ¬ find "--".toList content = some commentEnd := by
          intro same
          rw [same] at invalid
          simp at invalid
        exact if_neg differs
      · intro valid
        have same : find "--".toList content = some commentEnd := by
          obtain ⟨first, finds, isEnd⟩ := Option.map_eq_some_iff.mp (eq_of_beq valid)
          rw [finds, Nat.add_left_cancel isEnd]
        rw [if_pos same, standsAfter.moved_eq]
        apply refines_ok
        refine ⟨?_, standsAfter.inRange, ?_, inScope.namespaces, inScope.counted⟩
        · have positive : "<!--".toList.length = 4 := rfl
          dsimp only
          omega
        · exact (view_moved reader standsAfter).symm

/-- The reader with text appended to an innermost element. -/
def appended (reader : Reader) (element : OpenElement) (text : Text) : Reader :=
  setBack reader
    { element with frame := { element.frame with text := element.frame.text ++ text } }

section Appending

variable {reader : Reader} {element : OpenElement} {outer : List OpenElement}
  (inside : reader.elements = element :: outer)
include inside

theorem appendText_eq (text : Text) :
    appendText reader text = .ok (appended reader element text) := by
  rw [appendText, back, inside]
  rfl

theorem appended_elements (text : Text) :
    ∃ next, (appended reader element text).elements = next :: outer := by
  rw [appended, setBack, inside]
  exact ⟨_, rfl⟩

/-- Text goes to the innermost element of both readers. -/
theorem appended_view (text : Text) (position : Nat) :
    ({ appended reader element text with position } : Reader).view input =
      { Xml.appendText (reader.view input) text with input := input.drop position } := by
  simp only [Reader.view, Xml.appendText, appended, setBack, inside, List.map_cons,
    List.tail_cons]

theorem appended_inScope (inScope : InScope reader) (text : Text) (position : Nat) :
    InScope { appended reader element text with position } :=
  inScope.setBack inside
    { element.frame with text := element.frame.text ++ text } rfl position

end Appending

theorem parseCDATA_refines {reader : Reader} (inScope : InScope reader) {content : Text}
    (stands : Stands input reader.position ("<![CDATA[".toList ++ content)) :
    Refines (Views input (reader.position + 1)) (parseCDATA input reader)
      (Xml.parseCDATA (reader.view input)) := by
  have dropped : (reader.view input).input.drop "<![CDATA[".toList.length = content := by
    have left : (reader.view input).input = "<![CDATA[".toList ++ content := stands.left
    rw [left, List.drop_left]
  have standsContent := stands.append
  have sameEmpty : (reader.view input).elements.isEmpty = reader.elements.isEmpty :=
    List.isEmpty_map
  rw [parseCDATA, Xml.parseCDATA, dropped, sameEmpty]
  dsimp only
  rw [standsContent.findAt_eq]
  cases inside : reader.elements with
  | nil => exact refines_reject
  | cons element outer =>
      cases found : find "]]>".toList content with
      | none => exact refines_reject
      | some contentEnd =>
          have standsAfter := stands_behind standsContent found
          obtain ⟨text, rest, split, rfl⟩ := exists_of_find_eq_some found
          have standsText : Stands input (reader.position + "<![CDATA[".toList.length)
              (text ++ ("]]>".toList ++ rest)) := by
            rw [← List.append_assoc, ← split]
            exact standsContent
          have count : reader.position + "<![CDATA[".toList.length + text.length -
              (reader.position + "<![CDATA[".toList.length) = text.length := by
            omega
          have taken : content.take text.length = text := by
            rw [split, List.append_assoc, List.take_left]
          change Refines _ (substrAt input (reader.position + "<![CDATA[".toList.length)
            (reader.position + "<![CDATA[".toList.length + text.length -
              (reader.position + "<![CDATA[".toList.length)) >>= _) _
          rw [count, standsText.substrAt_eq]
          change Refines _ (appendText reader text >>= _)
            (some { Xml.appendText (reader.view input) (content.take text.length) with
              input := content.drop (text.length + 3) })
          rw [appendText_eq inside, taken]
          change Refines _ (moved input (reader.position + "<![CDATA[".toList.length + text.length +
            "]]>".toList.length) >>= _) _
          rw [standsAfter.moved_eq]
          apply refines_ok
          refine ⟨?_, standsAfter.inRange, ?_, ?_⟩
          · have positive : "<![CDATA[".toList.length = 9 := rfl
            dsimp only
            omega
          · rw [appended_view inside, standsAfter.left]
            rfl
          · exact appended_inScope inside inScope text _

/-! ## Text -/

theorem blankText_eq {loopFuel position textEnd : Nat} {text after : Text}
    (stands : Stands input position (text ++ after)) (ends : position + text.length = textEnd)
    (loopEnough : text.length < loopFuel) :
    blankText input textEnd loopFuel position =
      if text.all isXMLWhitespace then .ok textEnd else reject := by
  induction loopFuel generalizing position text with
  | zero => contradiction
  | succ loopFuel inductionHypothesis =>
      rw [blankText]
      cases text with
      | nil =>
          have done : ¬ position < textEnd := by
            rw [← ends]
            exact lt_irrefl _
          rw [if_neg done, ← ends]
          rfl
      | cons byte text =>
          have before : position < textEnd := by
            rw [← ends]
            exact Nat.lt_add_of_pos_right (Nat.zero_lt_succ _)
          rw [List.cons_append] at stands
          rw [if_pos before, stands.charAt_eq]
          change (require (isXMLWhitespace byte) >>= _) = _
          rw [List.all_cons]
          cases isXMLWhitespace byte with
          | false => rfl
          | true =>
              change (moved input (position + 1) >>= _) = _
              rw [stands.tail.moved_eq]
              refine inductionHypothesis stands.tail ?_ (Nat.lt_of_succ_lt_succ loopEnough)
              rw [← ends, List.length_cons]
              omega

theorem appendText_nil (reader : S3XMLReader) (rest : Text) :
    { Xml.appendText reader [] with input := rest } = { reader with input := rest } := by
  rw [Xml.appendText]
  cases elements : reader.elements with
  | nil => simp only [elements]
  | cons frame outer => simp only [List.append_nil]

theorem appendText_append (reader : S3XMLReader) (front back middle rest : Text) :
    { Xml.appendText { Xml.appendText reader front with input := middle } back with
      input := rest } = { Xml.appendText reader (front ++ back) with input := rest } := by
  simp only [Xml.appendText]
  cases elements : reader.elements with
  | nil => simp only [elements]
  | cons frame outer => simp only [List.append_assoc]

/-- Text that is appended in two pieces. -/
theorem bind_appended {reader : Reader} {element : OpenElement} {outer : List OpenElement}
    (inside : reader.elements = element :: outer) (piece : Text) (position : Nat)
    (later : Option (Text × Text)) :
    ((later.bind fun read => some (piece ++ read.1, read.2)).bind fun read =>
        some { Xml.appendText (reader.view input) read.1 with input := read.2 }) =
      later.bind fun read =>
        some { Xml.appendText (({ appended reader element piece with position } : Reader).view
          input) read.1 with input := read.2 } := by
  rw [Option.bind_assoc]
  congr 1
  funext read
  rw [appended_view inside, appendText_append]
  rfl

theorem elementText_refines {loopFuel specified textEnd : Nat} {afterText rest : Text}
    {reader : Reader} {element : OpenElement} {outer : List OpenElement}
    (inside : reader.elements = element :: outer) (inScope : InScope reader)
    (stands : Stands input reader.position rest) (standsEnd : Stands input textEnd afterText)
    (loopEnough : rest.length < loopFuel) (specifiedEnough : rest.length < specified) :
    Refines (Views input textEnd) (elementText utf8Proc input textEnd loopFuel reader)
      ((textCharacters utf8Proc afterText.length specified rest).bind fun read =>
        some { Xml.appendText (reader.view input) read.1 with input := read.2 }) := by
  induction loopFuel generalizing specified rest reader element with
  | zero => contradiction
  | succ loopFuel inductionHypothesis =>
      obtain ⟨specified, rfl⟩ :=
        Nat.exists_eq_add_one_of_ne_zero (Nat.ne_zero_of_lt specifiedEnough)
      have length := stands.length_eq
      have lengthEnd := standsEnd.length_eq
      rw [elementText, textCharacters.eq_def]
      dsimp only
      by_cases before : reader.position < textEnd
      · have more : ¬ rest.length ≤ afterText.length := by omega
        rw [if_pos before, if_neg more]
        cases rest with
        | nil => exact absurd (Nat.zero_le _) more
        | cons current rest =>
            rw [stands.charAt_eq]
            change Refines _ (if current = '&' then _ else _) _
            by_cases reference : current = '&'
            · rw [if_pos reference]
              dsimp only
              rw [if_pos reference]
              change Refines _ _ (Option.bind (Option.bind _ _) _)
              rw [Option.bind_assoc]
              apply (parseReference_refines stands).bind
              rintro ⟨decoded, next⟩ ⟨_, left⟩ ⟨rfl, advances, standsNext⟩
              dsimp only at advances standsNext ⊢
              rw [appendText_eq inside]
              have lengthNext := standsNext.length_eq
              apply Refines.require
              · intro behind
                rw [Bool.not_eq_false', decide_eq_true_eq] at behind
                have short : left.length < afterText.length := by omega
                rw [if_pos short]
                rfl
              · intro within
                rw [Bool.not_eq_true', decide_eq_false_iff_not] at within
                have notShort : ¬ left.length < afterText.length := by omega
                have shorter : left.length < (current :: rest).length := by omega
                rw [if_neg notShort]
                change Refines _ _ (Option.bind (Option.bind _ _) _)
                rw [bind_appended inside decoded next]
                obtain ⟨_, insideNext⟩ := appended_elements inside decoded
                exact inductionHypothesis insideNext (appended_inScope inside inScope decoded next)
                  standsNext (Nat.lt_of_lt_of_le shorter (Nat.le_of_lt_succ loopEnough))
                  (Nat.lt_of_lt_of_le shorter (Nat.le_of_lt_succ specifiedEnough))
            · rw [if_neg reference, appendText_eq inside]
              dsimp only
              rw [if_neg reference]
              change Refines _ (moved input (reader.position + 1) >>= _)
                (Option.bind (Option.bind _ _) _)
              rw [stands.tail.moved_eq]
              have whole := @bind_appended input _ _ _ inside [current] (reader.position + 1)
                (textCharacters utf8Proc afterText.length specified rest)
              obtain ⟨_, insideNext⟩ := appended_elements inside [current]
              have later := @inductionHypothesis specified rest
                { appended reader element [current] with position := reader.position + 1 } _
                insideNext
                (appended_inScope inside inScope [current] (reader.position + 1)) stands.tail
                (Nat.lt_of_succ_lt_succ loopEnough) (Nat.lt_of_succ_lt_succ specifiedEnough)
              rw [← whole] at later
              exact later
      · have done : rest.length ≤ afterText.length := by omega
        rw [if_neg before, if_pos done]
        refine refines_ok ⟨Nat.le_of_not_lt before, stands.inRange, ?_, inScope⟩
        rw [appendText_nil, ← stands.left]
        rfl

/-- Where a run of text ends. -/
theorem textEnd_eq {position : Nat} {rest : Text} (stands : Stands input position rest) :
    (findAt input ['<'] position).getD input.length =
        position + (rest.takeWhile (· ≠ '<')).length ∧
      Stands input (position + (rest.takeWhile (· ≠ '<')).length)
        (rest.dropWhile (· ≠ '<')) := by
  constructor
  · rw [stands.findAt_eq]
    cases left : rest.dropWhile (· ≠ '<') with
    | nil =>
        have whole : rest.takeWhile (· ≠ '<') = rest := by
          have split := rest.takeWhile_append_dropWhile (p := (· ≠ '<'))
          rwa [left, List.append_nil] at split
        rw [find_singleton_eq_none left, whole]
        exact stands.length_eq.symm
    | cons found after =>
        obtain ⟨rfl, front, isFront, free, split⟩ := exists_of_dropWhile_ne left
        have finds : find ['<'] rest = some front.length := by
          rw [split]
          have here := @find_append '<' [] front after free
          rwa [List.append_assoc, List.singleton_append] at here
        rw [finds, isFront]
        rfl
  · apply Stands.append
    rw [List.takeWhile_append_dropWhile]
    exact stands

variable (enough : input.length < fuel)
include enough

theorem parseText_refines {reader : Reader} (inScope : InScope reader) {byte : Char} {rest : Text}
    (stands : Stands input reader.position (byte :: rest)) (notMarkup : byte ≠ '<') :
    Refines (Views input (reader.position + 1)) (parseText utf8Proc input fuel reader)
      (Xml.parseText utf8Proc (reader.view input)) := by
  have left : (reader.view input).input = byte :: rest := stands.left
  have sameEmpty : (reader.view input).elements.isEmpty = reader.elements.isEmpty :=
    List.isEmpty_map
  obtain ⟨isEnd, standsEnd⟩ := textEnd_eq stands
  have positive : 0 < ((byte :: rest).takeWhile (· ≠ '<')).length := by
    rw [List.takeWhile_cons_of_pos (by simpa using notMarkup)]
    exact Nat.zero_lt_succ _
  have split := (byte :: rest).takeWhile_append_dropWhile (p := (· ≠ '<'))
  have lengths := congrArg List.length split
  rw [List.length_append] at lengths
  have short := rest_lt enough stands
  rw [parseText, Xml.parseText, left, sameEmpty, isEnd]
  dsimp only
  generalize (byte :: rest).takeWhile (· ≠ '<') = text at *
  generalize (byte :: rest).dropWhile (· ≠ '<') = afterText at *
  cases inside : reader.elements with
  | nil =>
      change Refines _ (blankText input (reader.position + text.length) fuel reader.position >>= _)
        (if text.all isXMLWhitespace = true then _ else none)
      rw [blankText_eq (split ▸ stands) rfl (by omega)]
      cases text.all isXMLWhitespace with
      | false => exact refines_reject
      | true =>
          have movedView := (view_moved reader standsEnd).symm
          rw [inside] at movedView
          refine refines_ok ⟨?_, standsEnd.inRange, movedView, ?_⟩
          · exact Nat.add_le_add_left positive reader.position
          · exact { namespaces := inside ▸ inScope.namespaces, counted := trivial }
  | cons element outer =>
      have sameTest : (findAt input "]]>".toList reader.position).any
          (· < reader.position + text.length) =
            (find "]]>".toList (byte :: rest)).any (· < text.length) := by
        rw [stands.findAt_eq]
        cases find "]]>".toList (byte :: rest) with
        | none => rfl
        | some found => simp
      change Refines _ (require (!(findAt input "]]>".toList reader.position).any
          (· < reader.position + text.length)) >>= _)
        (if (find "]]>".toList (byte :: rest)).any (· < text.length) = true then none else _)
      rw [sameTest]
      apply Refines.require
      · intro early
        rw [Bool.not_eq_false'] at early
        exact if_pos early
      · intro noEnd
        rw [Bool.not_eq_true'] at noEnd
        have goesOn : ¬ (find "]]>".toList (byte :: rest)).any (· < text.length) = true := by
          rw [noEnd]
          exact Bool.false_ne_true
        rw [if_neg goesOn]
        apply (elementText_refines inside inScope stands standsEnd short
          (Nat.lt_succ_self _)).mono
        intro next _ views
        exact views.mono (Nat.add_le_add_left positive reader.position)

end Httpfs.S3.Xml.Position
