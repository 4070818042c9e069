import Httpfs.S3.Xml.Markup

/-!
# What the reader accepts is a document

What the open elements still demand of the input is written down as
`Remains`; a step of the reader takes what the state behind it demands back to
what the state before it demands.
-/

namespace Httpfs.S3.Xml

open Text

variable {utf8Proc : Utf8Proc}

/-! ## Text before content -/

theorem Content.leadingText_eq_nil {content : Content} (wellFormed : content.WellFormed)
    {rest : Text} (atMarkup : AtMarkup (content.render ++ rest)) : content.leadingText = [] := by
  cases content with
  | byte value later => exact absurd (atMarkup value rfl) wellFormed.1
  | reference ref later =>
      have impossible : '&' = '<' := atMarkup '&' rfl
      contradiction
  | _ => rfl

/-- A run of text in front of content that starts with markup is content again. -/
theorem Decodes.exists_content {run decoded : Text} (decodes : Decodes run decoded)
    (noEnd : ¬ "]]>".toList <:+: run) {content : Content} (wellFormed : content.WellFormed)
    (noText : content.leadingText = []) :
    ∃ whole : Content, whole.WellFormed ∧ whole.leadingText = run ∧
      whole.render = run ++ content.render ∧ whole.depth = content.depth ∧
      ∀ {scope : Scope} {text : Text} {children : List S3XMLNode},
        content.Denotes scope text children → whole.Denotes scope (decoded ++ text) children := by
  induction decodes with
  | nil => exact ⟨content, wellFormed, noText, rfl, rfl, id⟩
  | @byte value run decoded noMarkup noReference _ inductionHypothesis =>
      obtain ⟨whole, wholeWellFormed, leading, rendered, depthEq, denotes⟩ :=
        inductionHypothesis fun isInfix => noEnd (isInfix.trans (List.suffix_cons _ _).isInfix)
      refine ⟨.byte value whole, ⟨noMarkup, noReference, ?_, wholeWellFormed⟩, ?_, ?_, depthEq,
        fun later => .byte (denotes later)⟩
      · rw [leading]
        exact fun isPrefix => noEnd isPrefix.isInfix
      · rw [Content.leadingText, leading]
      · rw [Content.render_byte, rendered, List.cons_append]
  | @reference ref run decoded refWellFormed _ inductionHypothesis =>
      obtain ⟨whole, wholeWellFormed, leading, rendered, depthEq, denotes⟩ :=
        inductionHypothesis fun isInfix => noEnd (isInfix.trans (List.suffix_append _ _).isInfix)
      refine ⟨.reference ref whole, ⟨refWellFormed, wholeWellFormed⟩, ?_, ?_, depthEq, ?_⟩
      · rw [Content.leadingText, leading]
      · rw [Content.render_reference, rendered, List.append_assoc]
      · intro scope text children later
        rw [List.append_assoc]
        exact .reference (denotes later)

/-! ## Open elements -/

/-- The input ends the element of the frame, which becomes the node, and goes on as `after`. -/
structure Finishes (frame : S3XMLElementFrame) (depth : Nat) (scope : Scope)
    (input after : Text) (node : S3XMLNode) : Prop where
  exists_content : ∃ (content : Content) (text : Text) (children : List S3XMLNode) (blank : Text),
    content.WellFormed ∧ content.depth ≤ maxNestingDepth - depth ∧
    content.Denotes scope text children ∧ frame.name.IsValid ∧ Blank blank ∧
    input = content.render ++ ("</".toList ++ (frame.name.render ++ (blank ++ '>' :: after))) ∧
    node = .mk frame.name.localName frame.namespaceUri (frame.text ++ text)
      (frame.children ++ children)

/-- What the open elements, innermost first, demand of the rest of the input;
`Tail` is what may follow the root. -/
inductive Remains (Tail : Text → Prop) :
    List S3XMLElementFrame → Scope → Text → S3XMLNode → Prop
  | root {frame : S3XMLElementFrame} {scope : Scope} {input after : Text} {node : S3XMLNode}
      (tail : Tail after) (finishes : Finishes frame 1 scope input after node) :
      Remains Tail [frame] scope input node
  | inner {frame parent : S3XMLElementFrame} {outer : List S3XMLElementFrame} {scope : Scope}
      {input after : Text} {node root : S3XMLNode}
      (finishes : Finishes frame (outer.length + 2) scope input after node)
      (later : Remains Tail ({ parent with children := parent.children ++ [node] } :: outer)
        (scope.drop (scope.length - frame.namespaceCount)) after root) :
      Remains Tail (frame :: parent :: outer) scope input root

variable {Tail : Text → Prop}

/-- What the innermost frame demands may change as long as its end stays. -/
theorem Remains.of_head {frame other : S3XMLElementFrame} {outer : List S3XMLElementFrame}
    {scope : Scope} {input rest : Text} {root : S3XMLNode}
    (remains : Remains Tail (other :: outer) scope rest root)
    (sameCount : other.namespaceCount = frame.namespaceCount)
    (finishes : ∀ {after : Text} {node : S3XMLNode},
      Finishes other (outer.length + 1) scope rest after node →
        Finishes frame (outer.length + 1) scope input after node) :
    Remains Tail (frame :: outer) scope input root := by
  cases remains with
  | root tail ends => exact .root tail (finishes ends)
  | inner ends later => exact .inner (finishes ends) (sameCount ▸ later)

namespace Finishes

variable {frame : S3XMLElementFrame} {depth : Nat} {scope : Scope} {rest after : Text}
  {node : S3XMLNode}

theorem ends {blank : Text} (valid : frame.name.IsValid) (isBlank : Blank blank) :
    Finishes frame depth scope ("</".toList ++ (frame.name.render ++ (blank ++ '>' :: after)))
      after frame.node := by
  refine ⟨⟨.nil, [], [], blank, trivial, Nat.zero_le _, .nil, valid, isBlank, rfl, ?_⟩⟩
  rw [List.append_nil, List.append_nil]
  rfl

theorem text {run decoded : Text} (decodes : Decodes run decoded)
    (noEnd : ¬ "]]>".toList <:+: run) (atMarkup : AtMarkup rest)
    (finishes : Finishes { frame with text := frame.text ++ decoded } depth scope rest after
      node) : Finishes frame depth scope (run ++ rest) after node := by
  obtain ⟨content, text, children, blank, wellFormed, depthBound, denotes, valid, isBlank, rfl,
    rfl⟩ := finishes.exists_content
  obtain ⟨whole, wholeWellFormed, -, rendered, depthEq, wholeDenotes⟩ :=
    decodes.exists_content noEnd wellFormed (Content.leadingText_eq_nil wellFormed atMarkup)
  refine ⟨⟨whole, decoded ++ text, children, blank, wholeWellFormed, depthEq ▸ depthBound,
    wholeDenotes denotes, valid, isBlank, ?_, ?_⟩⟩
  · rw [rendered, List.append_assoc]
  · rw [List.append_assoc]

theorem cdata {data : Text} (noEnd : ¬ "]]>".toList <:+: data)
    (finishes : Finishes { frame with text := frame.text ++ data } depth scope rest after node) :
    Finishes frame depth scope ("<![CDATA[".toList ++ (data ++ ("]]>".toList ++ rest))) after
      node := by
  obtain ⟨content, text, children, blank, wellFormed, depthBound, denotes, valid, isBlank, rfl,
    rfl⟩ := finishes.exists_content
  refine ⟨⟨.cdata data content, data ++ text, children, blank, ⟨noEnd, wellFormed⟩, depthBound,
    .cdata denotes, valid, isBlank, ?_, ?_⟩⟩
  · simp only [Content.render_cdata, List.append_assoc]
  · rw [List.append_assoc]

theorem comment {remark : Text} (noEnd : ¬ "--".toList <:+: remark ++ "-".toList)
    (finishes : Finishes frame depth scope rest after node) :
    Finishes frame depth scope ("<!--".toList ++ (remark ++ ("-->".toList ++ rest))) after
      node := by
  obtain ⟨content, text, children, blank, wellFormed, depthBound, denotes, valid, isBlank, rfl,
    rfl⟩ := finishes.exists_content
  refine ⟨⟨.comment remark content, text, children, blank, ⟨noEnd, wellFormed⟩, depthBound,
    .comment denotes, valid, isBlank, ?_, rfl⟩⟩
  simp only [Content.render_comment, List.append_assoc]

theorem empty {tag : TagSyntax} {uri : Text} (tagWellFormed : tag.WellFormed)
    (resolves : TagResolves scope tag uri) (shallow : depth < maxNestingDepth)
    (finishes : Finishes
      { frame with children := frame.children ++ [.mk tag.name.localName uri [] []] }
      depth scope rest after node) :
    Finishes frame depth scope ('<' :: (tag.render ++ (tagEnd true ++ rest))) after node := by
  obtain ⟨content, text, children, blank, wellFormed, depthBound, denotes, valid, isBlank, rfl,
    rfl⟩ := finishes.exists_content
  refine ⟨⟨.empty tag content, text, .mk tag.name.localName uri [] [] :: children, blank,
    ⟨tagWellFormed, wellFormed⟩, ?_, .empty resolves denotes, valid, isBlank, ?_, ?_⟩⟩
  · exact Nat.max_le.mpr ⟨Nat.le_sub_of_add_le' shallow, depthBound⟩
  · simp only [Content.render_empty, List.append_assoc, List.cons_append, tagEnd, if_true]
  · rw [List.append_assoc, List.singleton_append]

theorem element {tag : TagSyntax} {uri : Text} {inner : S3XMLElementFrame}
    {innerNode : S3XMLNode} {input : Text} (tagWellFormed : tag.WellFormed)
    (resolves : TagResolves scope tag uri) (shallow : depth < maxNestingDepth)
    (innerIs : inner.name = tag.name ∧ inner.namespaceUri = uri ∧ inner.text = [] ∧
      inner.children = [])
    (inside : Finishes inner (depth + 1) (tag.scope scope) input rest innerNode)
    (finishes : Finishes { frame with children := frame.children ++ [innerNode] }
      depth scope rest after node) :
    Finishes frame depth scope ('<' :: (tag.render ++ (tagEnd false ++ input))) after node := by
  obtain ⟨nameEq, uriEq, textEq, childrenEq⟩ := innerIs
  obtain ⟨content, text, children, blank, wellFormed, depthBound, denotes, valid, isBlank, rfl,
    rfl⟩ := finishes.exists_content
  obtain ⟨innerContent, innerText, innerChildren, closing, innerWellFormed, innerBound,
    innerDenotes, -, closingBlank, rfl, rfl⟩ := inside.exists_content
  refine ⟨⟨.element tag innerContent closing content, text,
    .mk tag.name.localName uri innerText innerChildren :: children, blank,
    ⟨tagWellFormed, innerWellFormed, closingBlank, wellFormed⟩, ?_,
    .element resolves innerDenotes denotes, valid, isBlank, ?_, ?_⟩⟩
  · exact Nat.max_le.mpr ⟨by omega, depthBound⟩
  · simp [tagEnd, nameEq]
  · rw [nameEq, uriEq, textEq, childrenEq]
    simp

end Finishes

/-! ## Around the root -/

theorem Document.miscWellFormed_nil : Document.MiscWellFormed [] :=
  ⟨by simp, trivial⟩

theorem Document.MiscWellFormed.cons_blank {value : Char} {miscs : List Misc}
    (isBlank : isXMLWhitespace value = true) (misc : Document.MiscWellFormed miscs) :
    Document.MiscWellFormed (.blank value :: miscs) := by
  obtain ⟨blanks, content⟩ := misc
  constructor
  · intro other member
    rcases List.mem_cons.mp member with same | later
    · cases same
      exact isBlank
    · exact blanks other later
  · refine ⟨?_, ?_, ?_, content⟩
    · rintro rfl
      exact absurd isBlank (by decide)
    · rintro rfl
      exact absurd isBlank (by decide)
    · intro isPrefix
      obtain ⟨same, -⟩ := List.cons_prefix_cons.mp isPrefix
      subst same
      exact absurd isBlank (by decide)

theorem Document.MiscWellFormed.append_blanks {blank : Text} {miscs : List Misc} (isBlank : Blank blank)
    (misc : Document.MiscWellFormed miscs) :
    Document.MiscWellFormed (blank.map Misc.blank ++ miscs) := by
  induction blank with
  | nil => exact misc
  | cons value blank inductionHypothesis =>
      apply Document.MiscWellFormed.cons_blank (isBlank value List.mem_cons_self)
      exact inductionHypothesis fun byte member => isBlank byte (List.mem_cons_of_mem _ member)

theorem Document.MiscWellFormed.cons_comment {remark : Text} {miscs : List Misc}
    (noEnd : ¬ "--".toList <:+: remark ++ "-".toList) (misc : Document.MiscWellFormed miscs) :
    Document.MiscWellFormed (.comment remark :: miscs) := by
  obtain ⟨blanks, content⟩ := misc
  constructor
  · intro other member
    rcases List.mem_cons.mp member with same | later
    · contradiction
    · exact blanks other later
  · exact ⟨noEnd, content⟩

theorem render_blanks (blank : Text) (miscs : List Misc) :
    (miscContent (blank.map Misc.blank ++ miscs)).render =
      blank ++ (miscContent miscs).render := by
  induction blank with
  | nil => rfl
  | cons value blank inductionHypothesis =>
      rw [List.map_cons, List.cons_append, List.cons_append, ← inductionHypothesis]
      rfl

theorem render_miscComment (remark : Text) (miscs : List Misc) :
    (miscContent (.comment remark :: miscs)).render =
      "<!--".toList ++ (remark ++ ("-->".toList ++ (miscContent miscs).render)) :=
  Content.render_comment remark (miscContent miscs)

/-- The text is misc. -/
def IsMisc (text : Text) : Prop :=
  ∃ miscs, Document.MiscWellFormed miscs ∧ text = (miscContent miscs).render

/-- A root element and what may follow it, from the input on. -/
structure RootAhead (Tail : Text → Prop) (scope : Scope) (input : Text) (root : S3XMLNode) :
    Prop where
  exists_root : ∃ (syntaxTree : RootSyntax) (after : Text),
    syntaxTree.content.WellFormed ∧ syntaxTree.content.depth ≤ maxNestingDepth ∧
    syntaxTree.content.Denotes scope [] [root] ∧ Tail after ∧
    input = syntaxTree.content.render ++ after

/-- The rest of the input completes the document to the root. -/
inductive Completes (Tail : Text → Prop) : S3XMLReader → S3XMLNode → Prop
  | closed {reader : S3XMLReader} (outside : reader.elements = [])
      (rootClosed : reader.rootClosed = true) (tail : Tail reader.input) :
      Completes Tail reader reader.root
  | inside {reader : S3XMLReader} {root : S3XMLNode} (isInside : reader.elements ≠ [])
      (remains : Remains Tail reader.elements reader.namespaces reader.input root) :
      Completes Tail reader root
  | before {reader : S3XMLReader} {root : S3XMLNode} {miscs : List Misc} {input : Text}
      (outside : reader.elements = []) (notSeen : reader.rootSeen = false)
      (notClosed : reader.rootClosed = false) (misc : Document.MiscWellFormed miscs)
      (rest : reader.input = (miscContent miscs).render ++ input)
      (ahead : RootAhead Tail reader.namespaces input root) : Completes Tail reader root

namespace Completes

variable {reader next : S3XMLReader} {root : S3XMLNode}

/-- A step outside of the root leaves more misc in front. -/
private theorem of_misc {content rest : Text} {extend : List Misc → List Misc}
    (outside : reader.elements = [])
    (wellFormed : ∀ {miscs}, Document.MiscWellFormed miscs →
      Document.MiscWellFormed (extend miscs))
    (rendered : ∀ miscs, (miscContent (extend miscs)).render =
      content ++ (miscContent miscs).render)
    (inputEq : reader.input = content ++ rest)
    (completes : Completes IsMisc { reader with input := rest } root) : Completes IsMisc reader root := by
  cases completes with
  | closed _ rootClosed tail =>
      obtain ⟨miscs, misc, restEq⟩ := tail
      refine closed outside rootClosed ⟨extend miscs, wellFormed misc, ?_⟩
      rw [rendered, inputEq]
      exact congrArg (content ++ ·) restEq
  | inside isInside => exact absurd outside isInside
  | @before _ miscs input _ notSeen notClosed misc restEq ahead =>
      apply before outside notSeen notClosed (wellFormed misc) _ ahead
      rw [rendered, inputEq, List.append_assoc]
      exact congrArg (content ++ ·) restEq

/-- A step inside of an element leaves more content to it. -/
private theorem of_content {frame : S3XMLElementFrame} {outer : List S3XMLElementFrame}
    (isInside : reader.elements = frame :: outer) (completes : Completes IsMisc next root)
    {other : S3XMLElementFrame} (nextElements : next.elements = other :: outer)
    (nextNamespaces : next.namespaces = reader.namespaces)
    (sameCount : other.namespaceCount = frame.namespaceCount)
    (finishes : ∀ {after : Text} {node : S3XMLNode},
      Finishes other (outer.length + 1) reader.namespaces next.input after node →
        Finishes frame (outer.length + 1) reader.namespaces reader.input after node) :
    Completes IsMisc reader root := by
  cases completes with
  | closed outside =>
      rw [nextElements] at outside
      contradiction
  | before outside =>
      rw [nextElements] at outside
      contradiction
  | inside _ remains =>
      apply inside (by simp [isInside])
      rw [nextElements, nextNamespaces] at remains
      rw [isInside]
      exact remains.of_head sameCount finishes

variable (lawful : utf8Proc.Lawful)
include lawful

theorem of_parseText (parses : parseText utf8Proc reader = some next)
    (completes : Completes IsMisc next root) : Completes IsMisc reader root := by
  cases elementsEq : reader.elements with
  | nil =>
      obtain ⟨blank, rest, isBlank, -, inputEq, rfl⟩ :=
        (parseText_outside_eq_some_iff elementsEq).mp parses
      exact of_misc elementsEq (Document.MiscWellFormed.append_blanks isBlank)
        (render_blanks blank) inputEq completes
  | cons frame outer =>
      obtain ⟨run, rest, decoded, inputEq, atMarkup, noEnd, decodes, rfl⟩ :=
        (parseText_inside_eq_some_iff lawful (by simp [elementsEq])).mp parses
      rw [appendText_inside elementsEq] at completes
      apply of_content elementsEq completes rfl rfl rfl
      intro after node finishes
      rw [inputEq]
      exact finishes.text decodes noEnd atMarkup

omit lawful in
theorem of_parseComment {content : Text} (opens : reader.input = "<!--".toList ++ content)
    (parses : parseComment reader = some next)
    (completes : Completes IsMisc next root) : Completes IsMisc reader root := by
  obtain ⟨remark, rest, noEnd, rfl, rfl⟩ := (parseComment_eq_some_iff opens).mp parses
  cases elementsEq : reader.elements with
  | nil =>
      have inputEq : reader.input = ("<!--".toList ++ remark ++ "-->".toList) ++ rest := by
        rw [opens]
        simp only [List.append_assoc]
      refine of_misc elementsEq (Document.MiscWellFormed.cons_comment noEnd) ?_ inputEq completes
      intro miscs
      rw [render_miscComment]
      simp only [List.append_assoc]
  | cons frame outer =>
      apply of_content elementsEq completes elementsEq rfl rfl
      intro after node finishes
      rw [opens]
      exact finishes.comment noEnd

omit lawful in
theorem of_parseCDATA {content : Text} (opens : reader.input = "<![CDATA[".toList ++ content)
    (parses : parseCDATA reader = some next)
    (completes : Completes IsMisc next root) : Completes IsMisc reader root := by
  cases elementsEq : reader.elements with
  | nil =>
      rw [parseCDATA, elementsEq] at parses
      contradiction
  | cons frame outer =>
      obtain ⟨data, rest, noEnd, rfl, rfl⟩ :=
        (parseCDATA_eq_some_iff (by simp [elementsEq]) opens).mp parses
      rw [appendText_inside elementsEq] at completes
      apply of_content elementsEq completes rfl rfl rfl
      intro after node finishes
      rw [opens]
      exact finishes.cdata noEnd

omit lawful in
theorem of_parseEndElement {content : Text} (opens : reader.input = "</".toList ++ content)
    (parses : parseEndElement reader = some next)
    (completes : Completes IsMisc next root) : Completes IsMisc reader root := by
  cases elementsEq : reader.elements with
  | nil =>
      rw [parseEndElement, elementsEq] at parses
      contradiction
  | cons frame outer =>
      obtain ⟨blank, rest, valid, isBlank, rfl, closes⟩ :=
        (parseEndElement_eq_some_iff elementsEq opens).mp parses
      apply inside (by simp [elementsEq])
      rw [elementsEq, opens]
      cases outer with
      | nil =>
          rw [closeElement_root (by exact elementsEq)] at closes
          cases closes
          cases completes with
          | closed _ _ tail => exact .root tail (.ends valid isBlank)
          | before _ _ notClosed => contradiction
          | inside isInside => contradiction
      | cons parent outer =>
          rw [closeElement_inner (by exact elementsEq)] at closes
          cases closes
          cases completes with
          | closed outside => contradiction
          | before outside => contradiction
          | inside _ remains => exact .inner (.ends valid isBlank) remains

theorem of_parseStartElement {content : Text} (opens : reader.input = '<' :: content)
    (parses : parseStartElement utf8Proc reader = some next)
    (completes : Completes IsMisc next root) : Completes IsMisc reader root := by
  obtain ⟨notClosed, shallow, onlyRoot, tag, uri, selfClosing, rest, wellFormed, resolves, rfl,
    ends⟩ := (parseStartElement_eq_some_iff lawful opens).mp parses
  cases elementsEq : reader.elements with
  | nil =>
      apply before elementsEq (onlyRoot elementsEq) notClosed Document.miscWellFormed_nil opens
      cases selfClosing with
      | true =>
          rw [if_pos rfl, closeElement_root (by simp only [opened, elementsEq]; rfl)] at ends
          cases ends
          cases completes with
          | closed _ _ after =>
              refine ⟨⟨.empty tag, rest, ⟨wellFormed, trivial⟩,
                Nat.max_le.mpr ⟨by decide, Nat.zero_le _⟩,
                .empty resolves .nil, after, ?_⟩⟩
              simp [RootSyntax.content, tagEnd]
          | before _ notSeen => contradiction
          | inside isInside => contradiction
      | false =>
          rw [if_neg (by decide)] at ends
          cases ends
          cases completes with
          | closed outside => contradiction
          | before outside => contradiction
          | inside _ remains =>
              simp only [opened, elementsEq] at remains
              cases remains with
              | root after finishes =>
                  obtain ⟨inner, text, children, blank, innerWellFormed, depthBound, denotes,
                    -, isBlank, rfl, rfl⟩ := finishes.exists_content
                  refine ⟨⟨.element tag inner blank, _,
                    ⟨wellFormed, innerWellFormed, isBlank, trivial⟩, ?_,
                    .element resolves denotes .nil, after, ?_⟩⟩
                  · have bound : inner.depth ≤ 255 := depthBound
                    exact Nat.max_le.mpr ⟨Nat.succ_le_succ bound, Nat.zero_le _⟩
                  · simp [RootSyntax.content, tagEnd]
  | cons frame outer =>
      have shallow : outer.length + 1 < maxNestingDepth := by simpa [elementsEq] using shallow
      cases selfClosing with
      | true =>
          rw [if_pos rfl, closeElement_opened elementsEq] at ends
          cases ends
          apply of_content elementsEq completes rfl rfl rfl
          intro after node finishes
          rw [opens]
          exact finishes.empty wellFormed resolves shallow
      | false =>
          rw [if_neg (by decide)] at ends
          cases ends
          cases completes with
          | closed outside => contradiction
          | before outside => contradiction
          | inside _ remains =>
              simp only [opened, elementsEq] at remains
              cases remains with
              | inner finishes later =>
                  rw [drop_scope] at later
                  apply inside (by simp [elementsEq])
                  rw [elementsEq]
                  refine @Remains.of_head _ frame _ _ _ _ _ _ later rfl ?_
                  intro after node ends
                  rw [opens]
                  exact .element wellFormed resolves shallow ⟨rfl, rfl, rfl, rfl⟩ finishes ends

/-- One step takes what completes the state behind it back to the state before it. -/
theorem of_parseMarkup (parses : parseMarkup utf8Proc reader = some next)
    (completes : Completes IsMisc next root) : Completes IsMisc reader root := by
  unfold parseMarkup at parses
  split at parses
  · exact of_parseText lawful parses completes
  rename_i isMarkup
  split at parses
  · rename_i isComment
    obtain ⟨content, opens⟩ := List.isPrefixOf_iff_prefix.mp isComment
    exact of_parseComment opens.symm parses completes
  split at parses
  · rename_i isCDATA
    obtain ⟨content, opens⟩ := List.isPrefixOf_iff_prefix.mp isCDATA
    exact of_parseCDATA opens.symm parses completes
  split at parses
  · rename_i isEnd
    obtain ⟨content, opens⟩ := List.isPrefixOf_iff_prefix.mp isEnd
    exact of_parseEndElement opens.symm parses completes
  split at parses
  · contradiction
  · obtain ⟨content, opens⟩ := List.head?_eq_some_iff.mp (not_not.mp isMarkup)
    exact of_parseStartElement lawful opens parses completes

/-- A run that closes the root has read what completes its first state. -/
theorem of_parseMarkups {fuel : Nat} (parses : parseMarkups utf8Proc fuel reader = some next)
    (outside : next.elements = []) (rootClosed : next.rootClosed = true) :
    Completes IsMisc reader next.root := by
  induction fuel generalizing reader with
  | zero => contradiction
  | succ fuel inductionHypothesis =>
      rw [parseMarkups] at parses
      split at parses
      · rename_i ended
        cases parses
        exact closed outside rootClosed
          ⟨[], Document.miscWellFormed_nil, List.isEmpty_iff.mp ended⟩
      · obtain ⟨middle, parsesFirst, parsesLater⟩ := Option.bind_eq_some_iff.mp parses
        exact of_parseMarkup lawful parsesFirst (inductionHypothesis parsesLater)

end Completes

end Httpfs.S3.Xml
