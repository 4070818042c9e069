import Httpfs.S3.Xml.Tags

/-!
# Steps of the reader

One step of the loop over a document for each kind of markup: what the input
starts with when the step succeeds, and the state it leaves.
-/

namespace Httpfs.S3.Xml

open Text

variable {utf8Proc : Utf8Proc}

/-! ## Comments and character data -/

/-- A string that ends otherwise does not reach the last byte. -/
private theorem infix_of_infix_concat {needle text : Text} {ending last : Char}
    (endsWith : needle.getLast? = some ending) (differs : ending ≠ last)
    (isInfix : needle <:+: text ++ [last]) : needle <:+: text := by
  rcases List.infix_concat_iff.mp isInfix with ⟨front, eq⟩ | inside
  · have lastEq := congrArg List.getLast? eq
    rw [List.getLast?_append, endsWith, List.getLast?_concat] at lastEq
    exact absurd (Option.some.inj lastEq) differs
  · exact inside

/-- Without its delimiters a comment has no `--`, not even with the closing one. -/
theorem parseComment_eq_some_iff {reader next : S3XMLReader} {content : Text}
    (opens : reader.input = "<!--".toList ++ content) :
    parseComment reader = some next ↔
      ∃ text rest, ¬ "--".toList <:+: text ++ "-".toList ∧
        content = text ++ ("-->".toList ++ rest) ∧ next = { reader with input := rest } := by
  have dropped : reader.input.drop "<!--".toList.length = content := by
    rw [opens, List.drop_left]
  unfold parseComment
  dsimp only
  rw [dropped]
  constructor
  · intro parses
    split at parses
    · contradiction
    · rename_i commentEnd found
      split at parses
      · rename_i same
        cases parses
        obtain ⟨text, rest, rfl, rfl, -⟩ := (find_eq_some_iff (by decide)).mp found
        obtain ⟨front, after, eq, lengthEq, first⟩ := (find_eq_some_iff (by decide)).mp same
        obtain ⟨rfl, -⟩ := List.append_inj eq lengthEq.symm
        refine ⟨text, rest, first, rfl, ?_⟩
        rw [← List.append_assoc, List.drop_append_of_le_length (by simp),
          List.drop_eq_nil_of_le (by simp), List.nil_append]
      · contradiction
  · rintro ⟨text, rest, first, rfl, rfl⟩
    have closes : find "--".toList (text ++ ("-->".toList ++ rest)) = some text.length :=
      (find_eq_some_iff (by decide)).mpr ⟨text, '>' :: rest, rfl, rfl, first⟩
    have found : find "-->".toList (text ++ ("-->".toList ++ rest)) = some text.length := by
      refine (find_eq_some_iff (by decide)).mpr ⟨text, rest, rfl, rfl, ?_⟩
      intro isInfix
      -- An earlier end would start with an earlier pair of hyphens.
      have shorter : "-->".toList <:+: (text ++ "-".toList) ++ ['-'] := by
        rw [List.append_assoc]
        exact isInfix
      exact first ((List.prefix_append "--".toList ">".toList).isInfix.trans
        (infix_of_infix_concat rfl (by decide) shorter))
    rw [found]
    dsimp only
    rw [if_pos closes, ← List.append_assoc, List.drop_append_of_le_length (by simp),
      List.drop_eq_nil_of_le (by simp), List.nil_append]

private theorem cdataEnd_iff (text : Text) :
    "]]>".toList <:+: text ++ "]]".toList ↔ "]]>".toList <:+: text := by
  constructor
  · intro isInfix
    have split : "]]>".toList <:+: (text ++ [']']) ++ [']'] := by
      rw [List.append_assoc]
      exact isInfix
    exact infix_of_infix_concat rfl (by decide) (infix_of_infix_concat rfl (by decide) split)
  · exact fun isInfix => isInfix.trans (List.prefix_append text _).isInfix

theorem parseCDATA_eq_some_iff {reader next : S3XMLReader} {content : Text}
    (inside : reader.elements ≠ []) (opens : reader.input = "<![CDATA[".toList ++ content) :
    parseCDATA reader = some next ↔
      ∃ text rest, ¬ "]]>".toList <:+: text ∧ content = text ++ ("]]>".toList ++ rest) ∧
        next = { appendText reader text with input := rest } := by
  have dropped : reader.input.drop "<![CDATA[".toList.length = content := by
    rw [opens, List.drop_left]
  unfold parseCDATA
  dsimp only
  rw [if_neg (by simpa using inside), dropped]
  constructor
  · intro parses
    split at parses
    · contradiction
    · rename_i contentEnd found
      cases parses
      obtain ⟨text, rest, rfl, rfl, first⟩ := (find_eq_some_iff (by decide)).mp found
      refine ⟨text, rest, fun isInfix => first ((cdataEnd_iff text).mpr isInfix), rfl, ?_⟩
      rw [List.take_left, ← List.append_assoc, List.drop_append_of_le_length (by simp),
        List.drop_eq_nil_of_le (by simp), List.nil_append]
  · rintro ⟨text, rest, first, rfl, rfl⟩
    have found : find "]]>".toList (text ++ ("]]>".toList ++ rest)) = some text.length :=
      (find_eq_some_iff (by decide)).mpr ⟨text, rest, rfl, rfl,
        fun isInfix => first ((cdataEnd_iff text).mp isInfix)⟩
    rw [found]
    dsimp only
    rw [List.take_left, ← List.append_assoc, List.drop_append_of_le_length (by simp),
      List.drop_eq_nil_of_le (by simp), List.nil_append]

/-- Text goes to the innermost element. -/
theorem appendText_inside {reader : S3XMLReader} {frame : S3XMLElementFrame}
    {outer : List S3XMLElementFrame} (inside : reader.elements = frame :: outer)
    (text rest : Text) :
    { appendText reader text with input := rest } =
      { reader with
        input := rest
        elements := { frame with text := frame.text ++ text } :: outer } := by
  unfold appendText
  rw [inside]

/-! ## Text -/

/-- A run of text up to markup and the bytes it stands for. -/
inductive Decodes : Text → Text → Prop
  | nil : Decodes [] []
  | byte {value : Char} {run decoded : Text} (noMarkup : value ≠ '<') (noReference : value ≠ '&')
      (later : Decodes run decoded) : Decodes (value :: run) (value :: decoded)
  | reference {ref : Reference} {run decoded : Text} (wellFormed : ref.WellFormed)
      (later : Decodes run decoded) : Decodes (ref.render ++ run) (ref.decoded ++ decoded)

/-- Nothing or markup follows. -/
def AtMarkup (rest : Text) : Prop :=
  ∀ byte ∈ rest.head?, byte = '<'

theorem Reference.not_mem_render {ref : Reference} (wellFormed : ref.WellFormed) {byte : Char}
    (notDigit : digitValue 16 byte = none) (notNamed : byte ∉ "#xltgtampapsquot".toList)
    (notAmpersand : byte ≠ '&') (notSemicolon : byte ≠ ';') : byte ∉ ref.render := by
  simp [Reference.render, Reference.not_mem_body wellFormed notDigit notNamed, notAmpersand,
    notSemicolon]

theorem Decodes.no_markup {run decoded : Text} (decodes : Decodes run decoded) : '<' ∉ run := by
  induction decodes with
  | nil => simp
  | byte noMarkup _ _ inductionHypothesis =>
      simp [inductionHypothesis, noMarkup.symm]
  | reference wellFormed _ inductionHypothesis =>
      have free := Reference.not_mem_render wellFormed
        (by decide : digitValue 16 '<' = none) (by decide) (by decide) (by decide)
      simp [inductionHypothesis, free]

section Runs

variable (lawful : utf8Proc.Lawful)
include lawful

private theorem textCharacters_sound {fuel : Nat} {run rest decoded left : Text}
    (noMarkup : '<' ∉ run)
    (parses : textCharacters utf8Proc rest.length fuel (run ++ rest) = some (decoded, left)) :
    left = rest ∧ Decodes run decoded := by
  induction fuel generalizing run decoded with
  | zero => contradiction
  | succ fuel inductionHypothesis =>
      rw [textCharacters.eq_def] at parses
      dsimp only at parses
      cases run with
      | nil =>
          rw [List.nil_append, if_pos le_rfl] at parses
          cases parses
          exact ⟨rfl, .nil⟩
      | cons current run =>
          rw [if_neg (by simp only [List.length_append, List.length_cons]; omega)] at parses
          obtain ⟨notOpening, noMarkup⟩ := not_or.mp (mt List.mem_cons.mpr noMarkup)
          rw [List.cons_append] at parses
          dsimp only at parses
          split at parses
          · obtain ⟨⟨value, afterReference⟩, parsesReference, continues⟩ :=
              Option.bind_eq_some_iff.mp parses
            obtain ⟨ref, wellFormed, eq, rfl⟩ :=
              (parseReference_eq_some_iff lawful).mp parsesReference
            dsimp only at continues
            split at continues
            · contradiction
            rename_i within
            obtain ⟨⟨later, afterText⟩, parsesLater, returns⟩ :=
              Option.bind_eq_some_iff.mp continues
            cases returns
            -- The reference ends before the markup.
            obtain ⟨middle, runEq, afterEq⟩ : ∃ middle, current :: run = ref.render ++ middle ∧
                afterReference = middle ++ rest := by
              rw [← List.cons_append] at eq
              rcases List.append_eq_append_iff.mp eq with
                ⟨surplus, renderEq, restEq⟩ | ⟨surplus, runEq, afterEq⟩
              · have restLength := congrArg List.length restEq
                rw [List.length_append] at restLength
                obtain rfl : surplus = [] := List.length_eq_zero_iff.mp (by omega)
                exact ⟨[], by simpa using renderEq.symm, by simpa using restEq.symm⟩
              · exact ⟨surplus, runEq, afterEq⟩
            subst afterEq
            have free : '<' ∉ middle := by
              intro member
              have inRun : '<' ∈ current :: run := runEq ▸ List.mem_append_right _ member
              rcases List.mem_cons.mp inRun with same | later
              · exact notOpening same
              · exact noMarkup later
            obtain ⟨rfl, decodes⟩ := inductionHypothesis free parsesLater
            exact ⟨rfl, runEq ▸ .reference wellFormed decodes⟩
          · rename_i notReference
            obtain ⟨⟨later, afterText⟩, parsesLater, returns⟩ :=
              Option.bind_eq_some_iff.mp parses
            cases returns
            obtain ⟨rfl, decodes⟩ := inductionHypothesis noMarkup parsesLater
            exact ⟨rfl, .byte (Ne.symm notOpening) notReference decodes⟩

private theorem textCharacters_complete {run decoded : Text} (decodes : Decodes run decoded)
    (rest : Text) {fuel : Nat} (enough : run.length < fuel) :
    textCharacters utf8Proc rest.length fuel (run ++ rest) = some (decoded, rest) := by
  induction decodes generalizing fuel with
  | nil =>
      cases fuel with
      | zero => contradiction
      | succ fuel => simp [textCharacters.eq_def]
  | @byte value run decoded noMarkup noReference _ inductionHypothesis =>
      cases fuel with
      | zero => contradiction
      | succ fuel =>
          rw [textCharacters.eq_def]
          dsimp only
          rw [if_neg (by simp only [List.length_append, List.length_cons]; omega),
            List.cons_append]
          dsimp only
          rw [if_neg noReference, inductionHypothesis (Nat.lt_of_succ_lt_succ enough)]
          rfl
  | @reference ref run decoded wellFormed _ inductionHypothesis =>
      cases fuel with
      | zero => contradiction
      | succ fuel =>
          have parses := (parseReference_eq_some_iff lawful).mpr
            ⟨ref, wellFormed, (rfl : ref.render ++ (run ++ rest) = _), rfl⟩
          have positive : 0 < ref.render.length := by simp [Reference.render]
          rw [List.length_append] at enough
          have later := @inductionHypothesis fuel (by omega)
          rw [textCharacters.eq_def]
          dsimp only
          rw [if_neg (by simp only [List.length_append]; omega), List.append_assoc]
          rw [Reference.render, List.cons_append] at parses ⊢
          dsimp only
          rw [if_pos rfl, parses]
          simp only [Option.bind_eq_bind, Option.bind_some]
          rw [if_neg (by simp only [List.length_append]; omega), later]
          rfl

omit lawful in
/-- An end of character data that starts in a run of text lies in it. -/
private theorem find_early_iff {run rest : Text} (atMarkup : AtMarkup rest) :
    (find "]]>".toList (run ++ rest)).any (· < run.length) = true ↔
      "]]>".toList <:+: run := by
  constructor
  · intro early
    cases found : find "]]>".toList (run ++ rest) with
    | none =>
        rw [found] at early
        contradiction
    | some position =>
        rw [found] at early
        have before : position < run.length := of_decide_eq_true early
        obtain ⟨front, back, eq, rfl⟩ := exists_of_find_eq_some found
        rw [List.append_assoc] at eq
        rcases List.append_eq_append_iff.mp eq with
          ⟨surplus, frontEq, -⟩ | ⟨surplus, runEq, surplusEq⟩
        · have lengthEq := congrArg List.length frontEq
          rw [List.length_append] at lengthEq
          omega
        · rcases List.append_eq_append_iff.mp surplusEq with
            ⟨more, rfl, -⟩ | ⟨more, needleEq, restEq⟩
          · exact ⟨front, more, by rw [runEq, List.append_assoc]⟩
          · cases more with
            | nil =>
                rw [List.append_nil] at needleEq
                exact ⟨front, [], by rw [runEq, needleEq, List.append_nil]⟩
            | cons byte more =>
                exfalso
                have isMarkup := atMarkup byte (by simp [restEq])
                have inNeedle : byte ∈ "]]>".toList := by
                  rw [needleEq]
                  simp
                rw [isMarkup] at inNeedle
                revert inNeedle
                decide
  · rintro ⟨before, after, rfl⟩
    obtain ⟨position, found, bound⟩ := exists_find_le "]]>".toList before (after ++ rest)
    have within : position < (before ++ "]]>".toList ++ after).length := by
      have positive : 0 < "]]>".toList.length := by decide
      simp only [List.length_append]
      omega
    rw [show before ++ "]]>".toList ++ after ++ rest =
      before ++ ("]]>".toList ++ (after ++ rest)) by simp, found]
    simpa using within

/-- Inside an element a run of text is read up to the next markup. -/
theorem parseText_inside_eq_some_iff {reader next : S3XMLReader} (inside : reader.elements ≠ []) :
    parseText utf8Proc reader = some next ↔
      ∃ run rest decoded, reader.input = run ++ rest ∧ AtMarkup rest ∧
        ¬ "]]>".toList <:+: run ∧ Decodes run decoded ∧
        next = { appendText reader decoded with input := rest } := by
  have cut : ∀ {run rest : Text}, (reader.input.takeWhile (· ≠ '<') = run ∧
      reader.input.dropWhile (· ≠ '<') = rest) ↔
        reader.input = run ++ rest ∧ '<' ∉ run ∧ AtMarkup rest := by
    intro run rest
    rw [span_iff]
    constructor
    · rintro ⟨eq, every, stops⟩
      refine ⟨eq, ?_, ?_⟩
      · intro member
        simpa using every '<' member
      · intro byte member
        simpa using stops byte member
    · rintro ⟨eq, noMarkup, atMarkup⟩
      refine ⟨eq, ?_, ?_⟩
      · intro byte member
        exact decide_eq_true fun same => noMarkup (same ▸ member)
      · intro byte member
        simpa using atMarkup byte member
  unfold parseText
  dsimp only
  rw [if_neg (by simpa using inside)]
  constructor
  · intro parses
    obtain ⟨inputEq, noMarkup, atMarkup⟩ := cut.mp ⟨rfl, rfl⟩
    generalize reader.input.takeWhile (· ≠ '<') = run at inputEq noMarkup parses
    generalize reader.input.dropWhile (· ≠ '<') = rest at inputEq atMarkup parses
    rw [inputEq] at parses
    split at parses
    · contradiction
    rename_i noEnd
    obtain ⟨⟨decoded, left⟩, decodesText, returns⟩ := Option.bind_eq_some_iff.mp parses
    obtain ⟨rfl, decodes⟩ := textCharacters_sound lawful noMarkup decodesText
    cases returns
    exact ⟨run, left, decoded, inputEq, atMarkup,
      fun isInfix => noEnd ((find_early_iff atMarkup).mpr isInfix), decodes, rfl⟩
  · rintro ⟨run, rest, decoded, inputEq, atMarkup, noEnd, decodes, rfl⟩
    obtain ⟨runEq, restEq⟩ := cut.mpr ⟨inputEq, decodes.no_markup, atMarkup⟩
    rw [runEq, restEq, inputEq,
      if_neg fun early => noEnd ((find_early_iff atMarkup).mp early),
      textCharacters_complete lawful decodes rest (by simp only [List.length_append]; omega)]
    rfl

omit lawful in
/-- Outside of the root only white space is skipped. -/
theorem parseText_outside_eq_some_iff {reader next : S3XMLReader} (outside : reader.elements = []) :
    parseText utf8Proc reader = some next ↔
      ∃ blank rest, Blank blank ∧ AtMarkup rest ∧ reader.input = blank ++ rest ∧
        next = { reader with input := rest } := by
  unfold parseText
  dsimp only
  rw [if_pos (by simp [outside])]
  constructor
  · intro parses
    split at parses
    · rename_i every
      cases parses
      obtain ⟨eq, -, stops⟩ := span_iff.mp
        ⟨(rfl : reader.input.takeWhile (· ≠ '<') = _), rfl⟩
      refine ⟨_, _, List.all_eq_true.mp every, ?_, eq, rfl⟩
      intro byte member
      simpa using stops byte member
    · contradiction
  · rintro ⟨blank, rest, isBlank, atMarkup, inputEq, rfl⟩
    obtain ⟨blankEq, restEq⟩ := span_iff.mpr
      (show reader.input = blank ++ rest ∧ (∀ byte ∈ blank, (decide (byte ≠ '<')) = true) ∧
          ∀ byte ∈ rest.head?, (decide (byte ≠ '<')) = false by
        refine ⟨inputEq, ?_, ?_⟩
        · intro byte member
          refine decide_eq_true ?_
          rintro rfl
          exact absurd (isBlank _ member) (by decide)
        · intro byte member
          simpa using atMarkup byte member)
    rw [blankEq, restEq, if_pos (List.all_eq_true.mpr isBlank)]

end Runs

/-! ## Elements -/

/-- The reader behind a start tag. -/
def opened (reader : S3XMLReader) (tag : TagSyntax) (uri rest : Text) : S3XMLReader :=
  { reader with
    input := rest
    namespaces := tag.scope reader.namespaces
    rootSeen := true
    elements :=
      { name := tag.name, namespaceUri := uri, text := [],
        namespaceCount := reader.namespaces.length, children := [] } :: reader.elements }

/-- Closing an element restores the scope around it. -/
theorem drop_scope (tag : TagSyntax) (outer : Scope) :
    (tag.scope outer).drop ((tag.scope outer).length - outer.length) = outer := by
  rw [TagSyntax.scope, List.length_append, Nat.add_sub_cancel, List.drop_left]

private theorem attributes_endsName {tag : TagSyntax} (wellFormed : tag.WellFormed)
    (selfClosing : Bool) (rest : Text) :
    EndsName (tag.attributes.flatMap AttributeSyntax.render ++ tag.trailing ++
      (tagEnd selfClosing ++ rest)) := by
  have ending : EndsName (tagEnd selfClosing ++ rest) := by
    intro byte member
    rcases tagEnd_head selfClosing rest byte member with rfl | rfl <;> decide
  cases attributesEq : tag.attributes with
  | nil => simpa using wellFormed.trailing.endsName ending
  | cons attr attributes =>
      have attrWellFormed := wellFormed.attributes attr (by simp [attributesEq])
      obtain ⟨byte, blank, blankEq⟩ := List.exists_cons_of_ne_nil attrWellFormed.separated
      intro first member
      have same : first = byte := by
        simpa [AttributeSyntax.render, blankEq] using member.symm
      subst same
      exact not_nameCharacter_of_blank (attrWellFormed.blank first (by simp [blankEq]))

/-- A start tag is accepted inside of an open element or as the only root. -/
theorem parseStartElement_eq_some_iff (lawful : utf8Proc.Lawful) {reader next : S3XMLReader}
    {content : Text} (opens : reader.input = '<' :: content) :
    parseStartElement utf8Proc reader = some next ↔
      reader.rootClosed = false ∧ reader.elements.length < maxNestingDepth ∧
      (reader.elements = [] → reader.rootSeen = false) ∧
      ∃ tag uri selfClosing rest, tag.WellFormed ∧ TagResolves reader.namespaces tag uri ∧
        content = tag.render ++ (tagEnd selfClosing ++ rest) ∧
        (if selfClosing then closeElement (opened reader tag uri rest)
          else some (opened reader tag uri rest)) = some next := by
  unfold parseStartElement
  rw [opens, List.drop_succ_cons, List.drop_zero]
  constructor
  · intro parses
    split at parses
    · contradiction
    rename_i allowed
    simp only [Bool.or_eq_true, decide_eq_true_eq, not_or, Bool.not_eq_true, not_le] at allowed
    obtain ⟨notClosed, shallow⟩ := allowed
    obtain ⟨⟨name, afterName⟩, parsesName, continues⟩ := Option.bind_eq_some_iff.mp parses
    clear parses
    dsimp only at continues
    split at continues
    · contradiction
    rename_i notXmlns
    obtain ⟨⟨attributes, selfClosing, rest⟩, parsesAttributes, continues⟩ :=
      Option.bind_eq_some_iff.mp continues
    obtain ⟨namespaces, declares, continues⟩ := Option.bind_eq_some_iff.mp continues
    obtain ⟨uri, resolves, continues⟩ := Option.bind_eq_some_iff.mp continues
    dsimp only at continues
    split at continues
    · contradiction
    rename_i validates
    split at continues
    · contradiction
    rename_i onlyRoot
    obtain ⟨valid, rfl, -⟩ := parseQualifiedName_eq_some_iff.mp parsesName
    obtain ⟨syntaxes, trailing, every, blank, distinct, rfl, rfl⟩ :=
      (tagAttributes_eq_some_iff lawful).mp parsesAttributes
    obtain ⟨allowed, rfl⟩ := applyNamespaceDeclarations_eq_some_iff.mp declares
    rw [resolveNamespace_elementName] at resolves
    rw [Bool.not_eq_true, Bool.not_eq_false'] at validates
    obtain ⟨attributesResolve, expanded⟩ := (validateAttributes_iff _ _).mp validates
    refine ⟨notClosed, shallow, ?_, ⟨name, syntaxes, trailing⟩, uri, selfClosing, rest,
      ⟨valid, every, distinct, blank⟩, ⟨allowed, resolves, attributesResolve, expanded⟩, ?_, ?_⟩
    · intro outside
      simpa [outside] using onlyRoot
    · simp [TagSyntax.render]
    · cases selfClosing
      · exact continues
      · exact continues
  · rintro ⟨notClosed, shallow, onlyRoot, tag, uri, selfClosing, rest, wellFormed, resolves, rfl,
      ends⟩
    obtain ⟨allowed, element, attributesResolve, expanded⟩ := resolves
    have parsesName := parseQualifiedName_eq_some_iff.mpr ⟨wellFormed.name,
      (rfl : tag.name.render ++ _ = _), attributes_endsName wellFormed selfClosing rest⟩
    have parsesAttributes := (tagAttributes_eq_some_iff lawful).mpr
      ⟨tag.attributes, tag.trailing, wellFormed.attributes, wellFormed.trailing,
        wellFormed.distinct, rfl, (rfl : _ = tag.attributes.flatMap AttributeSyntax.render ++
          tag.trailing ++ (tagEnd selfClosing ++ rest))⟩
    have declares : applyNamespaceDeclarations (tag.attributes.map AttributeSyntax.meaning)
        reader.namespaces = some (tag.scope reader.namespaces) :=
      applyNamespaceDeclarations_eq_some_iff.mpr ⟨allowed, rfl⟩
    have validates : validateAttributes (tag.scope reader.namespaces)
        (tag.attributes.map AttributeSyntax.meaning) [] = true :=
      (validateAttributes_iff _ _).mpr ⟨attributesResolve, expanded⟩
    have notXmlns : tag.name.namePrefix ≠ "xmlns".toList := by
      intro isXmlns
      rw [elementNamespace, if_pos isXmlns] at element
      contradiction
    rw [← resolveNamespace_elementName] at element
    rw [if_neg (by simp [notClosed, shallow])]
    have split : tag.render ++ (tagEnd selfClosing ++ rest) =
        tag.name.render ++ (tag.attributes.flatMap AttributeSyntax.render ++ tag.trailing ++
          (tagEnd selfClosing ++ rest)) := by
      simp [TagSyntax.render]
    rw [split, parsesName]
    simp only [Option.bind_eq_bind, Option.bind_some]
    rw [if_neg notXmlns, parsesAttributes]
    simp only [Option.bind_some, declares, element]
    rw [if_neg (by simp [validates]), if_neg (by simpa using onlyRoot)]
    cases selfClosing
    · exact ends
    · exact ends

/-- An end tag is accepted if it names the innermost element. -/
theorem parseEndElement_eq_some_iff {reader next : S3XMLReader} {frame : S3XMLElementFrame}
    {outer : List S3XMLElementFrame} (inside : reader.elements = frame :: outer) {content : Text}
    (opens : reader.input = "</".toList ++ content) :
    parseEndElement reader = some next ↔
      ∃ blank rest, frame.name.IsValid ∧ Blank blank ∧
        content = frame.name.render ++ (blank ++ '>' :: rest) ∧
        closeElement { reader with input := rest } = some next := by
  have dropped : reader.input.drop 2 = content := by
    rw [opens]
    rfl
  unfold parseEndElement
  rw [inside]
  dsimp only
  rw [dropped]
  constructor
  · intro parses
    obtain ⟨⟨name, afterName⟩, parsesName, continues⟩ := Option.bind_eq_some_iff.mp parses
    clear parses
    obtain ⟨valid, rfl, -⟩ := parseQualifiedName_eq_some_iff.mp parsesName
    dsimp only at continues
    split at continues
    · rename_i rest skips
      obtain ⟨blank, rfl, isBlank, -⟩ := skipWhitespace_eq_iff.mp skips
      split at continues
      · contradiction
      · rename_i same
        rw [not_not.mp same]
        exact ⟨blank, rest, valid, isBlank, rfl, by simpa only [← inside] using continues⟩
    · contradiction
  · rintro ⟨blank, rest, valid, isBlank, rfl, closes⟩
    have parsesName := parseQualifiedName_eq_some_iff.mpr ⟨valid,
      (rfl : frame.name.render ++ (blank ++ '>' :: rest) = _), isBlank.endsName (by
        rintro byte ⟨⟩
        decide)⟩
    have skips := skipWhitespace_eq_iff.mpr
      ⟨blank, (rfl : blank ++ '>' :: rest = _), isBlank, by
        rintro byte ⟨⟩
        decide⟩
    rw [parsesName]
    simp only [Option.bind_eq_bind, Option.bind_some]
    rw [skips]
    simpa [inside] using closes

/-- The node an element leaves. -/
def S3XMLElementFrame.node (frame : S3XMLElementFrame) : S3XMLNode :=
  .mk frame.name.localName frame.namespaceUri frame.text frame.children

theorem closeElement_root {reader : S3XMLReader} {frame : S3XMLElementFrame}
    (isInside : reader.elements = [frame]) :
    closeElement reader = some { reader with
      elements := []
      namespaces := reader.namespaces.drop (reader.namespaces.length - frame.namespaceCount)
      root := frame.node
      rootClosed := true } := by
  unfold closeElement
  rw [isInside]
  rfl

theorem closeElement_inner {reader : S3XMLReader} {frame parent : S3XMLElementFrame}
    {outer : List S3XMLElementFrame} (isInside : reader.elements = frame :: parent :: outer) :
    closeElement reader = some { reader with
      namespaces := reader.namespaces.drop (reader.namespaces.length - frame.namespaceCount)
      elements := { parent with children := parent.children ++ [frame.node] } :: outer } := by
  unfold closeElement
  rw [isInside]
  rfl

/-- An empty element leaves the scope as it was. -/
theorem closeElement_opened {reader : S3XMLReader} {parent : S3XMLElementFrame}
    {outer : List S3XMLElementFrame} (isInside : reader.elements = parent :: outer)
    (tag : TagSyntax) (uri rest : Text) :
    closeElement (opened reader tag uri rest) = some { reader with
      input := rest
      rootSeen := true
      elements := { parent with
        children := parent.children ++ [.mk tag.name.localName uri [] []] } :: outer } := by
  rw [closeElement_inner (by simp only [opened, isInside]; rfl)]
  simp only [opened, drop_scope]
  rfl

/-! ## The kind of markup -/

theorem parseMarkup_text {reader : S3XMLReader} (isText : reader.input.head? ≠ some '<') :
    parseMarkup utf8Proc reader = parseText utf8Proc reader := by
  rw [parseMarkup, if_pos isText]

theorem parseMarkup_comment {reader : S3XMLReader} {content : Text}
    (opens : reader.input = "<!--".toList ++ content) :
    parseMarkup utf8Proc reader = parseComment reader := by
  have isPrefix : "<!--".toList.isPrefixOf reader.input = true :=
    List.isPrefixOf_iff_prefix.mpr ⟨content, opens.symm⟩
  have opensMarkup : reader.input.head? = some '<' := by
    rw [opens]
    rfl
  rw [parseMarkup, if_neg (by simp [opensMarkup]), if_pos isPrefix]

theorem parseMarkup_cdata {reader : S3XMLReader} {content : Text}
    (opens : reader.input = "<![CDATA[".toList ++ content) :
    parseMarkup utf8Proc reader = parseCDATA reader := by
  rw [parseMarkup, opens]
  rfl

theorem parseMarkup_end {reader : S3XMLReader} {content : Text}
    (opens : reader.input = "</".toList ++ content) :
    parseMarkup utf8Proc reader = parseEndElement reader := by
  rw [parseMarkup, opens]
  rfl

theorem parseMarkup_start {reader : S3XMLReader} {first : Char} {content : Text}
    (opens : reader.input = '<' :: first :: content) (start : isNameStart first = true) :
    parseMarkup utf8Proc reader = parseStartElement utf8Proc reader := by
  have notBang : first ≠ '!' := by
    rintro rfl
    exact absurd start (by decide)
  have notSlash : first ≠ '/' := by
    rintro rfl
    exact absurd start (by decide)
  have notQuestion : first ≠ '?' := by
    rintro rfl
    exact absurd start (by decide)
  rw [parseMarkup, opens]
  simp [List.isPrefixOf, notBang.symm, notSlash.symm, notQuestion.symm]

end Httpfs.S3.Xml
