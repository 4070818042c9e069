import Httpfs.S3.Xml.Soundness

/-!
# A document is accepted

The converse of the step lemma: where the input completes the document, the
reader takes a step, the rest of the input still completes it, and less of it
is left.
-/

namespace Httpfs.S3.Xml

open Text

variable {utf8Proc : Utf8Proc} {Tail : Text → Prop}

/-! ## The text at the start of content -/

private theorem infix_of_infix_append {front back : Text} (free : ']' ∉ front)
    (isInfix : "]]>".toList <:+: front ++ back) : "]]>".toList <:+: back := by
  induction front with
  | nil => exact isInfix
  | cons byte front inductionHypothesis =>
      obtain ⟨differs, free⟩ := not_or.mp (mt List.mem_cons.mpr free)
      rcases List.infix_cons_iff.mp isInfix with isPrefix | later
      · exact absurd (List.cons_prefix_cons.mp isPrefix).1 differs
      · exact inductionHypothesis free later

/-- Content is a run of text followed by content that starts with markup. -/
theorem Content.exists_text {content : Content} (wellFormed : content.WellFormed)
    {scope : Scope} {text : Text} {children : List S3XMLNode}
    (denotes : content.Denotes scope text children) :
    ∃ (decoded laterText : Text) (later : Content), Decodes content.leadingText decoded ∧
      ¬ "]]>".toList <:+: content.leadingText ∧ later.WellFormed ∧ later.leadingText = [] ∧
      content.render = content.leadingText ++ later.render ∧ later.depth = content.depth ∧
      text = decoded ++ laterText ∧ later.Denotes scope laterText children := by
  have noRun : ∀ {content : Content} {scope : Scope} {text : Text} {children : List S3XMLNode},
      content.WellFormed → content.Denotes scope text children → content.leadingText = [] →
      ∃ (decoded laterText : Text) (later : Content), Decodes content.leadingText decoded ∧
        ¬ "]]>".toList <:+: content.leadingText ∧ later.WellFormed ∧ later.leadingText = [] ∧
        content.render = content.leadingText ++ later.render ∧ later.depth = content.depth ∧
        text = decoded ++ laterText ∧ later.Denotes scope laterText children := by
    intro content scope text children wellFormed denotes noText
    rw [noText]
    exact ⟨[], text, content, .nil, by simp, wellFormed, noText, rfl, rfl, rfl, denotes⟩
  induction denotes with
  | nil => exact noRun wellFormed .nil rfl
  | cdata later => exact noRun wellFormed (.cdata later) rfl
  | comment later => exact noRun wellFormed (.comment later) rfl
  | empty resolves later => exact noRun wellFormed (.empty resolves later) rfl
  | element resolves inside later =>
      exact noRun wellFormed (.element resolves inside later) rfl
  | @byte scope value rest text children _ inductionHypothesis =>
      obtain ⟨noMarkup, noReference, noEnd, restWellFormed⟩ := wellFormed
      obtain ⟨decoded, laterText, later, decodes, restNoEnd, laterWellFormed, noText, rendered,
        depthEq, rfl, laterDenotes⟩ := inductionHypothesis restWellFormed
      refine ⟨value :: decoded, laterText, later, .byte noMarkup noReference decodes, ?_,
        laterWellFormed, noText, ?_, depthEq, rfl, laterDenotes⟩
      · intro isInfix
        rcases List.infix_cons_iff.mp isInfix with isPrefix | inside
        · exact noEnd isPrefix
        · exact restNoEnd inside
      · rw [render_byte, rendered]
        rfl
  | @reference scope ref rest text children _ inductionHypothesis =>
      obtain ⟨refWellFormed, restWellFormed⟩ := wellFormed
      obtain ⟨decoded, laterText, later, decodes, restNoEnd, laterWellFormed, noText, rendered,
        depthEq, rfl, laterDenotes⟩ := inductionHypothesis restWellFormed
      refine ⟨ref.decoded ++ decoded, laterText, later, .reference refWellFormed decodes, ?_,
        laterWellFormed, noText, ?_, depthEq, (List.append_assoc _ _ _).symm, laterDenotes⟩
      · have free := Reference.not_mem_render refWellFormed
          (by decide : digitValue 16 ']' = none) (by decide) (by decide) (by decide)
        exact fun isInfix => restNoEnd (infix_of_infix_append free isInfix)
      · rw [render_reference, rendered, leadingText, List.append_assoc]

/-- Content without text at its start starts with markup. -/
theorem Content.atMarkup {content : Content} (noText : content.leadingText = [])
    {rest : Text} (restAtMarkup : AtMarkup rest) : AtMarkup (content.render ++ rest) := by
  cases content with
  | nil => exact restAtMarkup
  | byte value later => contradiction
  | reference ref later => contradiction
  | cdata text later =>
      rintro byte ⟨⟩
      rfl
  | comment text later =>
      rintro byte ⟨⟩
      rfl
  | empty tag later =>
      rintro byte ⟨⟩
      rfl
  | element tag inner closing later =>
      rintro byte ⟨⟩
      rfl

/-! ## Steps -/

theorem TagSyntax.exists_first {tag : TagSyntax} (wellFormed : tag.WellFormed) :
    ∃ first tail, tag.render = first :: tail ∧ isNameStart first = true := by
  obtain ⟨first, tail, nameEq, start⟩ := wellFormed.name.exists_first
  exact ⟨first, _, by rw [render, nameEq]; rfl, start⟩

/-- The reader takes a step to a state that still completes and has less input. -/
def Advances (utf8Proc : Utf8Proc) (Tail : Text → Prop) (reader : S3XMLReader)
    (root : S3XMLNode) : Prop :=
  ∃ next, parseMarkup utf8Proc reader = some next ∧ Completes Tail next root ∧
    next.input.length < reader.input.length

/-- The flags of the reader fit its open elements. -/
structure Consistent (reader : S3XMLReader) : Prop where
  inside : reader.elements ≠ [] → reader.rootSeen = true ∧ reader.rootClosed = false
  closed : reader.rootClosed = true → reader.rootSeen = true

section Steps

variable {reader next : S3XMLReader} {root : S3XMLNode}

/-- What is demanded behind the end of the innermost element. -/
def Behind (Tail : Text → Prop) (outer : List S3XMLElementFrame) (scope : Scope) (after : Text)
    (node root : S3XMLNode) : Prop :=
  match outer with
  | [] => node = root ∧ Tail after
  | parent :: outer =>
      Remains Tail ({ parent with children := parent.children ++ [node] } :: outer) scope after root

private theorem remains_iff {frame : S3XMLElementFrame} {outer : List S3XMLElementFrame}
    {scope : Scope} {input : Text} :
    Remains Tail (frame :: outer) scope input root ↔
      ∃ after node, Finishes frame (outer.length + 1) scope input after node ∧
        Behind Tail outer (scope.drop (scope.length - frame.namespaceCount)) after node root := by
  constructor
  · intro remains
    cases remains with
    | root tail finishes => exact ⟨_, _, finishes, rfl, tail⟩
    | inner finishes later => exact ⟨_, _, finishes, later⟩
  · rintro ⟨after, node, finishes, behind⟩
    cases outer with
    | nil =>
        obtain ⟨rfl, tail⟩ := behind
        exact .root tail finishes
    | cons parent outer => exact .inner finishes behind

private theorem length_lt_of_append {front rest : Text} (nonempty : front ≠ []) :
    rest.length < (front ++ rest).length := by
  have positive := List.length_pos_iff.mpr nonempty
  rw [List.length_append]
  omega

/-- A step that changes the innermost element only. -/
private theorem advances_frame {other : S3XMLElementFrame} {outer : List S3XMLElementFrame}
    {front rest : Text} (inputEq : reader.input = front ++ rest) (nonempty : front ≠ [])
    (parses : parseMarkup utf8Proc reader = some next) (nextInput : next.input = rest)
    (nextElements : next.elements = other :: outer)
    (remains : Remains Tail (other :: outer) next.namespaces rest root) :
    Advances utf8Proc Tail reader root := by
  refine ⟨next, parses, .inside (by simp [nextElements]) ?_, ?_⟩
  · rw [nextElements, nextInput]
    exact remains
  · rw [inputEq, nextInput]
    exact length_lt_of_append nonempty

private theorem parseMarkup_startTag (lawful : utf8Proc.Lawful) {tag : TagSyntax} {uri : Text}
    {selfClosing : Bool} {rest : Text} (wellFormed : tag.WellFormed)
    (resolves : TagResolves reader.namespaces tag uri)
    (opens : reader.input = '<' :: (tag.render ++ (tagEnd selfClosing ++ rest)))
    (notClosed : reader.rootClosed = false) (shallow : reader.elements.length < maxNestingDepth)
    (onlyRoot : reader.elements = [] → reader.rootSeen = false)
    (ends : (if selfClosing then closeElement (opened reader tag uri rest)
      else some (opened reader tag uri rest)) = some next) :
    parseMarkup utf8Proc reader = some next := by
  obtain ⟨first, tail, renderEq, start⟩ := tag.exists_first wellFormed
  rw [parseMarkup_start (by rw [opens, renderEq]; rfl) start]
  exact (parseStartElement_eq_some_iff lawful opens).mpr
    ⟨notClosed, shallow, onlyRoot, tag, uri, selfClosing, rest, wellFormed, resolves, rfl, ends⟩

private theorem advances_end {frame : S3XMLElementFrame} {outer : List S3XMLElementFrame}
    {blank after : Text} (isInside : reader.elements = frame :: outer)
    (valid : frame.name.IsValid) (isBlank : Blank blank)
    (opens : reader.input = "</".toList ++ (frame.name.render ++ (blank ++ '>' :: after)))
    (behind : Behind Tail outer
      (reader.namespaces.drop (reader.namespaces.length - frame.namespaceCount)) after frame.node
      root) :
    Advances utf8Proc Tail reader root := by
  have parses : ∀ {next}, closeElement { reader with input := after } = some next →
      parseMarkup utf8Proc reader = some next := by
    intro next closes
    rw [parseMarkup_end opens]
    exact (parseEndElement_eq_some_iff isInside opens).mpr
      ⟨blank, after, valid, isBlank, rfl, closes⟩
  have shorter : after.length < reader.input.length := by
    rw [opens]
    simp only [List.length_append, List.length_cons]
    omega
  cases outer with
  | nil =>
      obtain ⟨rfl, tail⟩ := behind
      exact ⟨_, parses (closeElement_root isInside), .closed rfl rfl tail, shorter⟩
  | cons parent outer =>
      exact ⟨_, parses (closeElement_inner isInside), .inside (by simp) behind, shorter⟩

variable (lawful : utf8Proc.Lawful)
include lawful

private theorem advances_inside {frame : S3XMLElementFrame} {outer : List S3XMLElementFrame}
    (isInside : reader.elements = frame :: outer) (notClosed : reader.rootClosed = false)
    (remains : Remains Tail (frame :: outer) reader.namespaces reader.input root) :
    Advances utf8Proc Tail reader root := by
  obtain ⟨after, node, finishes, behind⟩ := remains_iff.mp remains
  obtain ⟨content, text, children, blank, wellFormed, depthBound, denotes, valid, isBlank, inputEq,
    nodeEq⟩ := finishes.exists_content
  obtain ⟨decoded, laterText, later, decodes, noEnd, laterWellFormed, noText, rendered, depthEq,
    textEq, laterDenotes⟩ := content.exists_text wellFormed denotes
  cases runEq : content.leadingText with
  | cons byte run =>
      -- A run of text is read up to the markup behind it.
      rw [rendered, List.append_assoc] at inputEq
      have atMarkup : AtMarkup (later.render ++
          ("</".toList ++ (frame.name.render ++ (blank ++ '>' :: after)))) := by
        apply Content.atMarkup noText
        rintro other ⟨⟩
        rfl
      have parses := (parseText_inside_eq_some_iff lawful (by simp [isInside])).mpr
        ⟨_, _, decoded, inputEq, atMarkup, noEnd, decodes, rfl⟩
      rw [appendText_inside isInside] at parses
      have isText : reader.input.head? ≠ some '<' := by
        rw [inputEq, runEq]
        intro isMarkup
        cases isMarkup
        exact decodes.no_markup (by simp [runEq])
      refine advances_frame inputEq (by simp [runEq])
        ((parseMarkup_text isText).trans parses) rfl rfl (remains_iff.mpr ⟨after, node,
          ⟨⟨later, laterText, children, blank, laterWellFormed, depthEq ▸ depthBound, laterDenotes,
            valid, isBlank, rfl, ?_⟩⟩, behind⟩)
      rw [nodeEq, textEq, List.append_assoc]
  | nil =>
      clear decodes noEnd rendered textEq laterDenotes
      cases denotes with
      | byte => contradiction
      | reference => contradiction
      | nil =>
          rw [Content.render_nil, List.nil_append] at inputEq
          rw [List.append_nil, List.append_nil] at nodeEq
          have nodeEq : node = frame.node := nodeEq
          subst nodeEq
          exact advances_end isInside valid isBlank inputEq behind
      | @cdata _ data rest text children restDenotes =>
          obtain ⟨noEnd, restWellFormed⟩ := wellFormed
          rw [Content.render_cdata, List.append_assoc, List.append_assoc, List.append_assoc]
            at inputEq
          have parses := (parseCDATA_eq_some_iff (by simp [isInside]) inputEq).mpr
            ⟨_, _, noEnd, rfl, rfl⟩
          rw [appendText_inside isInside] at parses
          have consumed : reader.input = ("<![CDATA[".toList ++ (data ++ "]]>".toList)) ++
              (rest.render ++ ("</".toList ++ (frame.name.render ++ (blank ++ '>' :: after)))) := by
            rw [inputEq]
            simp only [List.append_assoc]
          refine advances_frame consumed (by simp) ((parseMarkup_cdata inputEq).trans parses)
            rfl rfl (remains_iff.mpr ⟨after, node, ⟨⟨rest, text, children, blank, restWellFormed,
              depthBound, restDenotes, valid, isBlank, rfl, ?_⟩⟩, behind⟩)
          rw [nodeEq, List.append_assoc]
      | @comment _ remark rest text children restDenotes =>
          obtain ⟨noEnd, restWellFormed⟩ := wellFormed
          rw [Content.render_comment, List.append_assoc, List.append_assoc, List.append_assoc]
            at inputEq
          have parses := (parseComment_eq_some_iff inputEq).mpr ⟨_, _, noEnd, rfl, rfl⟩
          have consumed : reader.input = ("<!--".toList ++ (remark ++ "-->".toList)) ++
              (rest.render ++ ("</".toList ++ (frame.name.render ++ (blank ++ '>' :: after)))) := by
            rw [inputEq]
            simp only [List.append_assoc]
          exact advances_frame consumed (by simp) ((parseMarkup_comment inputEq).trans parses)
            rfl isInside (remains_iff.mpr ⟨after, node, ⟨⟨rest, text, children, blank,
              restWellFormed, depthBound, restDenotes, valid, isBlank, rfl, nodeEq⟩⟩, behind⟩)
      | @empty _ tag uri rest text children resolves restDenotes =>
          obtain ⟨tagWellFormed, restWellFormed⟩ := wellFormed
          obtain ⟨one, restBound⟩ := Nat.max_le.mp depthBound
          have opens : reader.input = '<' :: (tag.render ++ (tagEnd true ++ (rest.render ++
              ("</".toList ++ (frame.name.render ++ (blank ++ '>' :: after)))))) := by
            rw [inputEq]
            simp [tagEnd]
          have parses := parseMarkup_startTag lawful tagWellFormed resolves opens notClosed
            (by rw [isInside, List.length_cons]; omega) (by simp [isInside])
            ((if_pos rfl).trans (closeElement_opened isInside tag uri _))
          have consumed : reader.input = ('<' :: (tag.render ++ tagEnd true)) ++
              (rest.render ++ ("</".toList ++ (frame.name.render ++ (blank ++ '>' :: after)))) := by
            rw [opens]
            simp only [List.append_assoc, List.cons_append]
          refine advances_frame consumed (by simp) parses rfl rfl
            (remains_iff.mpr ⟨after, node, ⟨⟨rest, text, children, blank, restWellFormed, restBound,
              restDenotes, valid, isBlank, rfl, ?_⟩⟩, behind⟩)
          rw [nodeEq, List.append_assoc]
          rfl
      | @element _ tag uri inner closing innerText innerChildren rest text children resolves
          inside restDenotes =>
          obtain ⟨tagWellFormed, innerWellFormed, closingBlank, restWellFormed⟩ := wellFormed
          obtain ⟨innerBound, restBound⟩ := Nat.max_le.mp depthBound
          have opens : reader.input = '<' :: (tag.render ++ (tagEnd false ++ (inner.render ++
              ("</".toList ++ (tag.name.render ++ (closing ++ '>' :: (rest.render ++
                ("</".toList ++ (frame.name.render ++ (blank ++ '>' :: after)))))))))) := by
            rw [inputEq]
            simp [tagEnd]
          have parses := parseMarkup_startTag lawful tagWellFormed resolves opens notClosed
            (by rw [isInside, List.length_cons]; omega) (by simp [isInside]) (if_neg (by decide))
          have consumed : reader.input = ('<' :: (tag.render ++ tagEnd false)) ++
              (inner.render ++ ("</".toList ++ (tag.name.render ++ (closing ++ '>' ::
                (rest.render ++
                  ("</".toList ++ (frame.name.render ++ (blank ++ '>' :: after)))))))) := by
            rw [opens]
            simp only [List.append_assoc, List.cons_append]
          refine advances_frame consumed (by simp) parses rfl
            (by simp only [opened, isInside]; rfl) (.inner
              ⟨⟨inner, innerText, innerChildren, closing, innerWellFormed, ?_, inside,
                tagWellFormed.name, closingBlank, rfl, rfl⟩⟩ ?_)
          · omega
          · have restored := drop_scope tag reader.namespaces
            simp only [opened]
            rw [restored]
            refine remains_iff.mpr ⟨after, node, ⟨⟨rest, text, children, blank, restWellFormed,
              restBound, restDenotes, valid, isBlank, rfl, ?_⟩⟩, behind⟩
            rw [nodeEq, List.append_assoc]
            rfl

omit lawful in
/-- Misc is white space followed by misc that starts with markup. -/
private theorem exists_blanks {miscs : List Misc} (misc : Document.MiscWellFormed miscs) :
    ∃ blank later, miscs = blank.map Misc.blank ++ later ∧ Blank blank ∧
      Document.MiscWellFormed later ∧ AtMarkup (miscContent later).render := by
  induction miscs with
  | nil => exact ⟨[], [], rfl, blank_nil, misc, by rintro byte ⟨⟩⟩
  | cons first miscs inductionHypothesis =>
      obtain ⟨blanks, content⟩ := misc
      cases first with
      | comment remark =>
          refine ⟨[], _, rfl, blank_nil, ⟨blanks, content⟩, ?_⟩
          rintro byte ⟨⟩
          rfl
      | blank value =>
          obtain ⟨blank, later, rfl, isBlank, laterWellFormed, atMarkup⟩ := inductionHypothesis
            ⟨fun other member => blanks other (List.mem_cons_of_mem _ member), content.2.2.2⟩
          refine ⟨value :: blank, later, rfl, ?_, laterWellFormed, atMarkup⟩
          intro byte member
          rcases List.mem_cons.mp member with rfl | later
          · exact blanks _ List.mem_cons_self
          · exact isBlank byte later

omit lawful in
/-- Outside of the root the reader skips misc. -/
private theorem advances_misc {first : Misc} {miscs : List Misc} {rest : Text}
    (outside : reader.elements = []) (misc : Document.MiscWellFormed (first :: miscs))
    (restAtMarkup : AtMarkup rest)
    (inputEq : reader.input = (miscContent (first :: miscs)).render ++ rest)
    (completes : ∀ {later : List Misc}, Document.MiscWellFormed later →
      Completes Tail { reader with input := (miscContent later).render ++ rest } root) :
    Advances utf8Proc Tail reader root := by
  cases first with
  | comment remark =>
      obtain ⟨blanks, noEnd, content⟩ := misc
      rw [render_miscComment, List.append_assoc, List.append_assoc, List.append_assoc] at inputEq
      have parses := (parseComment_eq_some_iff inputEq).mpr ⟨_, _, noEnd, rfl, rfl⟩
      refine ⟨_, (parseMarkup_comment inputEq).trans parses, completes
        ⟨fun other member => blanks other (List.mem_cons_of_mem _ member), content⟩, ?_⟩
      rw [inputEq]
      simp only [List.length_append]
      have positive : 0 < "<!--".toList.length := by decide
      omega
  | blank value =>
      have isBlank := misc.blanks value List.mem_cons_self
      obtain ⟨blank, later, eq, everyBlank, laterWellFormed, atMarkup⟩ := exists_blanks misc
      cases blank with
      | nil =>
          -- A run without white space is at markup, which no white space is.
          rw [List.map_nil, List.nil_append] at eq
          subst eq
          have isMarkup : value = '<' := atMarkup value rfl
          subst isMarkup
          exact absurd isBlank (by decide)
      | cons byte blank =>
          rw [eq, render_blanks, List.append_assoc] at inputEq
          have restMarkup : AtMarkup ((miscContent later).render ++ rest) := by
            cases laterEq : (miscContent later).render with
            | nil => exact restAtMarkup
            | cons other others =>
                rw [laterEq] at atMarkup
                rintro found ⟨⟩
                exact atMarkup _ rfl
          have parses := (@parseText_outside_eq_some_iff utf8Proc _ _ outside).mpr
            ⟨byte :: blank, _, everyBlank, restMarkup, inputEq, rfl⟩
          have isText : reader.input.head? ≠ some '<' := by
            rw [inputEq]
            intro isMarkup
            cases isMarkup
            exact absurd (everyBlank _ List.mem_cons_self) (by decide)
          refine ⟨_, (parseMarkup_text isText).trans parses, completes laterWellFormed, ?_⟩
          rw [inputEq]
          exact length_lt_of_append (by simp)

/-- Before the root: misc or the root itself. -/
private theorem advances_before {miscs : List Misc} {input : Text}
    (outside : reader.elements = []) (notSeen : reader.rootSeen = false)
    (notClosed : reader.rootClosed = false) (misc : Document.MiscWellFormed miscs)
    (inputEq : reader.input = (miscContent miscs).render ++ input)
    (ahead : RootAhead Tail reader.namespaces input root) :
    Advances utf8Proc Tail reader root := by
  obtain ⟨syntaxTree, after, wellFormed, depthBound, denotes, tail, rfl⟩ := ahead.exists_root
  cases miscs with
  | cons first miscs =>
      apply advances_misc outside misc _ inputEq
      · intro later laterMisc
        exact .before outside notSeen notClosed laterMisc rfl ahead
      · cases syntaxTree <;>
        · rintro byte ⟨⟩
          rfl
  | nil =>
      have inputEq : reader.input = syntaxTree.content.render ++ after := inputEq
      have shallow : reader.elements.length < maxNestingDepth := by
        rw [outside]
        decide
      cases syntaxTree with
      | empty tag =>
          obtain ⟨tagWellFormed, -⟩ := wellFormed
          cases denotes with
          | empty resolves later =>
              cases later
              have opens : reader.input = '<' :: (tag.render ++ (tagEnd true ++ after)) := by
                rw [inputEq]
                simp [RootSyntax.content, tagEnd]
              have parses := parseMarkup_startTag lawful tagWellFormed resolves opens notClosed
                shallow (fun _ => notSeen) ((if_pos rfl).trans
                  (closeElement_root (by simp only [opened, outside]; rfl)))
              refine ⟨_, parses, .closed rfl rfl tail, ?_⟩
              rw [opens]
              simp only [List.length_cons, List.length_append, opened]
              omega
      | element tag inner closing =>
          obtain ⟨tagWellFormed, innerWellFormed, closingBlank, -⟩ := wellFormed
          cases denotes with
          | element resolves inside later =>
              cases later
              obtain ⟨innerBound, -⟩ := Nat.max_le.mp depthBound
              have opens : reader.input = '<' :: (tag.render ++ (tagEnd false ++
                  (inner.render ++ ("</".toList ++ (tag.name.render ++
                    (closing ++ '>' :: after)))))) := by
                rw [inputEq]
                simp [RootSyntax.content, tagEnd]
              have parses := parseMarkup_startTag lawful tagWellFormed resolves opens notClosed
                shallow (fun _ => notSeen) (if_neg (by decide))
              refine ⟨_, parses, .inside (by simp [opened]) ?_, ?_⟩
              · simp only [opened, outside]
                exact .root tail ⟨⟨inner, _, _, closing, innerWellFormed,
                  Nat.le_sub_of_add_le innerBound, inside, tagWellFormed.name, closingBlank, rfl,
                  rfl⟩⟩
              · rw [opens]
                simp only [List.length_cons, List.length_append, opened]
                omega

/-- Where the input completes the document, the root is closed or the reader advances. -/
theorem Completes.advances (consistent : Consistent reader)
    (completes : Completes Tail reader root) :
    (reader.elements = [] ∧ reader.rootClosed = true ∧ reader.root = root ∧ Tail reader.input) ∨
      (reader.rootClosed = false ∧ Advances utf8Proc Tail reader root) := by
  cases completes with
  | closed outside rootClosed tail => exact .inl ⟨outside, rootClosed, rfl, tail⟩
  | @inside _ isInside remains =>
      obtain ⟨frame, outer, elementsEq⟩ := List.exists_cons_of_ne_nil isInside
      have notClosed := (consistent.inside isInside).2
      rw [elementsEq] at remains
      exact .inr ⟨notClosed, advances_inside lawful elementsEq notClosed remains⟩
  | before outside notSeen notClosed misc inputEq ahead =>
      exact .inr ⟨notClosed,
        advances_before lawful outside notSeen notClosed misc inputEq ahead⟩

omit lawful in
/-- Behind the root the reader skips misc until no input is left. -/
private theorem advances_closed (outside : reader.elements = [])
    (rootClosed : reader.rootClosed = true) (tail : IsMisc reader.input) :
    reader.input = [] ∨ Advances utf8Proc IsMisc reader reader.root := by
  obtain ⟨miscs, misc, inputEq⟩ := tail
  cases miscs with
  | nil => exact .inl inputEq
  | cons first miscs =>
      refine .inr (@advances_misc utf8Proc IsMisc reader reader.root first miscs [] outside misc
        (by rintro byte ⟨⟩) (by simpa using inputEq) ?_)
      intro later laterMisc
      exact .closed outside rootClosed ⟨later, laterMisc, by simp⟩

/-! ## Runs -/

omit lawful in
private theorem closeElement_consistent {frame : S3XMLElementFrame}
    {outer : List S3XMLElementFrame} (closes : closeElement reader = some next)
    (isInside : reader.elements = frame :: outer) (seen : reader.rootSeen = true)
    (notClosed : reader.rootClosed = false) : Consistent next := by
  cases outer with
  | nil =>
      rw [closeElement_root isInside] at closes
      cases closes
      exact ⟨fun inside => absurd rfl inside, fun _ => seen⟩
  | cons parent outer =>
      rw [closeElement_inner isInside] at closes
      cases closes
      exact ⟨fun _ => ⟨seen, notClosed⟩, fun _ => seen⟩

omit lawful in
private theorem appendText_consistent (consistent : Consistent reader) (text rest : Text) :
    Consistent { appendText reader text with input := rest } := by
  cases elementsEq : reader.elements with
  | nil =>
      simp only [appendText, elementsEq]
      exact ⟨fun inside => absurd rfl inside, consistent.closed⟩
  | cons frame outer =>
      rw [appendText_inside elementsEq]
      exact ⟨fun _ => consistent.inside (by simp [elementsEq]), consistent.closed⟩

theorem Consistent.parseMarkup (consistent : Consistent reader)
    (parses : parseMarkup utf8Proc reader = some next) : Consistent next := by
  unfold Xml.parseMarkup at parses
  split at parses
  · by_cases outside : reader.elements = []
    · obtain ⟨_, rest, -, -, -, rfl⟩ := (parseText_outside_eq_some_iff outside).mp parses
      exact ⟨consistent.inside, consistent.closed⟩
    · obtain ⟨_, rest, decoded, -, -, -, -, rfl⟩ :=
        (parseText_inside_eq_some_iff lawful outside).mp parses
      exact appendText_consistent consistent decoded rest
  rename_i isMarkup
  split at parses
  · rename_i isComment
    obtain ⟨content, opens⟩ := List.isPrefixOf_iff_prefix.mp isComment
    obtain ⟨_, rest, -, -, rfl⟩ := (parseComment_eq_some_iff opens.symm).mp parses
    exact ⟨consistent.inside, consistent.closed⟩
  split at parses
  · rename_i isCDATA
    obtain ⟨content, opens⟩ := List.isPrefixOf_iff_prefix.mp isCDATA
    have inside : reader.elements ≠ [] := by
      intro outside
      rw [parseCDATA, outside] at parses
      contradiction
    obtain ⟨data, rest, -, -, rfl⟩ := (parseCDATA_eq_some_iff inside opens.symm).mp parses
    exact appendText_consistent consistent data rest
  split at parses
  · rename_i isEnd
    obtain ⟨content, opens⟩ := List.isPrefixOf_iff_prefix.mp isEnd
    cases elementsEq : reader.elements with
    | nil =>
        rw [parseEndElement, elementsEq] at parses
        contradiction
    | cons frame outer =>
        obtain ⟨_, rest, -, -, -, closes⟩ :=
          (parseEndElement_eq_some_iff elementsEq opens.symm).mp parses
        obtain ⟨seen, notClosed⟩ := consistent.inside (by simp [elementsEq])
        exact closeElement_consistent closes elementsEq seen notClosed
  split at parses
  · contradiction
  · obtain ⟨content, opens⟩ := List.head?_eq_some_iff.mp (not_not.mp isMarkup)
    obtain ⟨notClosed, -, -, tag, uri, selfClosing, rest, -, -, -, ends⟩ :=
      (parseStartElement_eq_some_iff lawful opens).mp parses
    cases selfClosing with
    | true =>
        exact closeElement_consistent ((if_pos rfl).symm.trans ends) rfl rfl notClosed
    | false =>
        cases ends
        exact ⟨fun _ => ⟨rfl, notClosed⟩, fun _ => rfl⟩

/-- Enough rounds of the loop read what completes the document. -/
theorem Completes.parseMarkups (consistent : Consistent reader)
    (completes : Completes IsMisc reader root) {fuel : Nat} (enough : reader.input.length < fuel) :
    ∃ last, parseMarkups utf8Proc fuel reader = some last ∧ last.elements = [] ∧
      last.rootSeen = true ∧ last.rootClosed = true ∧ last.root = root := by
  induction fuel generalizing reader with
  | zero => contradiction
  | succ fuel inductionHypothesis =>
      rw [Xml.parseMarkups]
      have goesOn : Advances utf8Proc IsMisc reader root →
          ∃ last, (if reader.input.isEmpty then some reader else do
              let reader ← Xml.parseMarkup utf8Proc reader
              Xml.parseMarkups utf8Proc fuel reader) = some last ∧ last.elements = [] ∧
            last.rootSeen = true ∧ last.rootClosed = true ∧ last.root = root := by
        rintro ⟨next, parses, nextCompletes, shorter⟩
        have nonempty : ¬ reader.input.isEmpty = true := by
          intro ended
          rw [List.isEmpty_iff.mp ended] at shorter
          contradiction
        rw [if_neg nonempty, parses]
        exact inductionHypothesis (consistent.parseMarkup lawful parses) nextCompletes
          (Nat.lt_of_lt_of_le shorter (Nat.le_of_lt_succ enough))
      rcases completes.advances lawful consistent with
        ⟨outside, rootClosed, rfl, tail⟩ | ⟨-, advances⟩
      · rcases @advances_closed utf8Proc _ outside rootClosed tail with ended | advances
        · rw [ended]
          exact ⟨reader, rfl, outside, consistent.closed rootClosed, rootClosed, rfl⟩
        · exact goesOn advances
      · exact goesOn advances

/-- The state in which the root is closed first. -/
def untilClosed (utf8Proc : Utf8Proc) : Nat → S3XMLReader → Option S3XMLReader
  | 0, _ => none
  | fuel + 1, reader =>
      if reader.rootClosed then some reader
      else (Xml.parseMarkup utf8Proc reader).bind (untilClosed utf8Proc fuel)

/-- What follows the root is left when the root is closed. -/
theorem Completes.untilClosed (consistent : Consistent reader)
    (completes : Completes Tail reader root) {fuel : Nat} (enough : reader.input.length < fuel) :
    ∃ last, untilClosed utf8Proc fuel reader = some last ∧ Tail last.input := by
  induction fuel generalizing reader with
  | zero => contradiction
  | succ fuel inductionHypothesis =>
      rw [Xml.untilClosed]
      rcases completes.advances lawful consistent with
        ⟨-, rootClosed, -, tail⟩ | ⟨notClosed, next, parses, nextCompletes, shorter⟩
      · exact ⟨reader, if_pos rootClosed, tail⟩
      · rw [if_neg (by simp [notClosed]), parses]
        exact inductionHypothesis (consistent.parseMarkup lawful parses) nextCompletes
          (Nat.lt_of_lt_of_le shorter (Nat.le_of_lt_succ enough))

end Steps

end Httpfs.S3.Xml
