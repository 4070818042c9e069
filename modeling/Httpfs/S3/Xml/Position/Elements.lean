import Httpfs.S3.Xml.Position.Attributes

/-!
# Elements by position

The namespace stack of the reader: the binding of `xml` and what the start tags of the open
elements declare.  Opening and closing an element keep it so.
-/

namespace Httpfs.S3.Xml.Position

open Text Cursor

variable {utf8Proc : Utf8Proc} {input : Text} {fuel : Nat}

/-! ## The namespace stack -/

def xmlBinding : S3XMLNamespaceBinding :=
  ⟨"xml".toList, xmlNamespace⟩

/-- The binding of `xml`, below what the open elements declare. -/
def bindings (elements : List OpenElement) : List S3XMLNamespaceBinding :=
  (elements.flatMap fun element => (declarations element.attributes).reverse) ++ [xmlBinding]

theorem bindings_cons (element : OpenElement) (outer : List OpenElement) :
    bindings (element :: outer) = (declarations element.attributes).reverse ++ bindings outer := by
  rw [bindings, List.flatMap_cons, List.append_assoc]
  rfl

/-- Each open element remembers how many bindings there were before it. -/
def Counted : List OpenElement → Prop
  | [] => True
  | element :: outer =>
      element.frame.namespaceCount = (bindings outer).length ∧ Counted outer

structure InScope (reader : Reader) : Prop where
  namespaces : reader.namespaces = bindings reader.elements
  counted : Counted reader.elements

theorem inScope_start (position : Nat) : InScope { position } where
  namespaces := rfl
  counted := trivial

theorem resize_append (inner outer : List S3XMLNamespaceBinding) :
    resize (inner ++ outer) outer.length = outer := by
  have noneAdded : outer.length - (inner ++ outer).length = 0 := by
    rw [List.length_append]
    omega
  have cut : (inner ++ outer).length - outer.length = inner.length := by
    rw [List.length_append]
    omega
  rw [resize, noneAdded, cut, List.drop_left]
  rfl

/-! ## What the reader shows -/

/-- The reader that holds what is left of the input. -/
def Reader.view (input : Text) (reader : Reader) : S3XMLReader where
  input := input.drop reader.position
  rootSeen := reader.rootSeen
  rootClosed := reader.rootClosed
  root := reader.root
  namespaces := reader.namespaces
  elements := reader.elements.map OpenElement.frame

theorem view_moved (reader : Reader) {position : Nat} {rest : Text}
    (stands : Stands input position rest) :
    ({ reader with position } : Reader).view input = { reader.view input with input := rest } := by
  rw [← stands.left]
  rfl

/-- Both readers, with the namespace stack in order. -/
structure Views (input : Text) (least : Nat) (reader : Reader) (specified : S3XMLReader) :
    Prop where
  advances : least ≤ reader.position
  inRange : reader.position ≤ input.length
  view : specified = reader.view input
  inScope : InScope reader

theorem Views.mono {least later : Nat} {reader : Reader} {specified : S3XMLReader}
    (views : Views input later reader specified) (earlier : least ≤ later) :
    Views input least reader specified :=
  { views with advances := earlier.trans views.advances }

/-- The innermost element with other text or other children. -/
theorem InScope.setBack {reader : Reader} {element : OpenElement} {outer : List OpenElement}
    (inScope : InScope reader) (inside : reader.elements = element :: outer)
    (frame : S3XMLElementFrame) (sameCount : frame.namespaceCount = element.frame.namespaceCount)
    (position : Nat) :
    InScope { setBack reader { element with frame } with position } := by
  obtain ⟨namespaces, counted⟩ := inScope
  rw [inside] at namespaces counted
  constructor
  · simp only [Position.setBack, inside, List.tail_cons]
    rw [namespaces, bindings_cons, bindings_cons]
  · simp only [Position.setBack, inside, List.tail_cons]
    exact ⟨sameCount.trans counted.1, counted.2⟩

/-! ## Closing -/

theorem closeElement_refines {reader : Reader} (inScope : InScope reader)
    (inRange : reader.position ≤ input.length) (inside : reader.elements ≠ []) :
    Refines (Views input reader.position) (closeElement reader)
      (Xml.closeElement (reader.view input)) := by
  obtain ⟨namespaces, counted⟩ := inScope
  cases elements : reader.elements with
  | nil => exact absurd elements inside
  | cons element outer =>
      rw [elements] at namespaces counted
      have cut : resize reader.namespaces element.frame.namespaceCount = bindings outer := by
        rw [namespaces, bindings_cons, counted.1, resize_append]
      have cutView : reader.namespaces.drop
          (reader.namespaces.length - element.frame.namespaceCount) = bindings outer := by
        rw [namespaces, bindings_cons, counted.1, List.length_append, Nat.add_sub_cancel,
          List.drop_left]
      cases outer with
      | nil =>
          have closes : closeElement reader = .ok { reader with
              elements := []
              namespaces := bindings []
              root := .mk element.frame.name.localName element.frame.namespaceUri
                element.frame.text element.frame.children
              rootClosed := true } := by
            rw [closeElement, back, elements]
            change Except.ok _ = _
            rw [cut]
            rfl
          rw [closes]
          simp only [Xml.closeElement, Reader.view, elements, List.map_cons, List.map_nil, cutView]
          exact refines_ok ⟨le_rfl, inRange, rfl, rfl, trivial⟩
      | cons parent outer =>
          have closes : closeElement reader = .ok { reader with
              namespaces := bindings (parent :: outer)
              elements := { parent with frame := { parent.frame with
                children := parent.frame.children ++ [.mk element.frame.name.localName
                  element.frame.namespaceUri element.frame.text element.frame.children] } } ::
                    outer } := by
            rw [closeElement, back, elements]
            change Except.ok _ = _
            rw [cut]
            rfl
          rw [closes]
          simp only [Xml.closeElement, Reader.view, elements, List.map_cons, cutView]
          refine refines_ok ⟨le_rfl, inRange, rfl, ?_, counted.2⟩
          rw [bindings_cons, bindings_cons]

/-! ## Opening -/

variable (utf8Proc) in
/-- A start tag up to the open element, and whether the tag closes it. -/
def openedElement (reader : S3XMLReader) : Option (S3XMLReader × Bool) :=
  if reader.rootClosed || maxNestingDepth ≤ reader.elements.length then none
  else do
    let (name, input) ← Xml.parseQualifiedName (reader.input.drop 1)
    if name.namePrefix = "xmlns".toList then none
    let (attributes, selfClosing, input) ← tagAttributes utf8Proc (input.length + 1) input []
    let namespaces ← applyNamespaceDeclarations attributes reader.namespaces
    let namespaceUri ← resolveNamespace namespaces name .elementName
    if !validateAttributes namespaces attributes [] then none
    if reader.elements.isEmpty && reader.rootSeen then none
    some ({ reader with
      input
      namespaces
      rootSeen := true
      elements :=
        { name, namespaceUri, text := [], namespaceCount := reader.namespaces.length,
          children := [] } :: reader.elements }, selfClosing)

theorem parseStartElement_eq (reader : S3XMLReader) :
    Xml.parseStartElement utf8Proc reader =
      (openedElement utf8Proc reader).bind fun opened =>
        if opened.2 then Xml.closeElement opened.1 else some opened.1 := by
  rw [Xml.parseStartElement, openedElement]
  split
  · rfl
  · change Option.bind _ _ = Option.bind (Option.bind _ _) _
    rw [Option.bind_assoc]
    congr 1
    funext named
    dsimp only
    split
    · rfl
    · change Option.bind _ _ = Option.bind (Option.bind _ _) _
      rw [Option.bind_assoc]
      congr 1
      funext tag
      change Option.bind _ _ = Option.bind (Option.bind _ _) _
      rw [Option.bind_assoc]
      congr 1
      funext namespaces
      change Option.bind _ _ = Option.bind (Option.bind _ _) _
      rw [Option.bind_assoc]
      congr 1
      funext namespaceUri
      split
      · rfl
      · split <;> rfl

variable (enough : input.length < fuel)
include enough

/-- Opened elements that correspond. -/
def Opens (input : Text) (least : Nat) (opened : Reader × Bool) (specified : S3XMLReader × Bool) :
    Prop :=
  Views input least opened.1 specified.1 ∧ opened.2 = specified.2 ∧ opened.1.elements ≠ []

theorem openElement_refines {reader : Reader} (inScope : InScope reader) {after : Text}
    (stands : Stands input reader.position ('<' :: after)) :
    Refines (Opens input (reader.position + 1)) (openElement utf8Proc input fuel reader)
      (openedElement utf8Proc (reader.view input)) := by
  have dropped : (reader.view input).input.drop 1 = after := by
    have left : (reader.view input).input = '<' :: after := stands.left
    rw [left]
    rfl
  have depth : (reader.view input).elements.length = reader.elements.length := List.length_map _
  rw [openElement, openedElement, dropped, depth]
  change Refines _ _
    (if (reader.rootClosed || maxNestingDepth ≤ reader.elements.length) = true then none else _)
  apply Refines.require
  · intro refused
    rw [Bool.not_eq_false'] at refused
    exact if_pos refused
  · intro accepted
    have goesOn : ¬ (reader.rootClosed || maxNestingDepth ≤ reader.elements.length) = true := by
      rw [Bool.not_eq_true'] at accepted
      rw [accepted]
      exact Bool.false_ne_true
    rw [if_neg goesOn, stands.isAt_eq]
    change Refines _ (moved input (reader.position + 1) >>= _) _
    rw [stands.tail.moved_eq]
    apply (parseQualifiedName_refines enough stands.tail).bind
    rintro ⟨name, position⟩ ⟨_, left⟩ ⟨rfl, advances, standsName⟩
    dsimp only at advances standsName ⊢
    apply Refines.require
    · intro reserved
      have isXmlns : name.namePrefix = "xmlns".toList := by simpa using reserved
      rw [if_pos isXmlns]
      rfl
    · intro free
      have notXmlns : ¬ name.namePrefix = "xmlns".toList := by simpa using free
      rw [if_neg notXmlns]
      have body := @tagAttribute_refines utf8Proc input fuel enough position
      have loop := @iterate_refines input _ _ _ _ _ _ tagAttributes_succ position body fuel
        (left.length + 1) { position } left standsName le_rfl (rest_lt enough standsName)
        (Nat.lt_succ_self _)
      apply loop.bind
      rintro ⟨attributes, selfClosing, next⟩ ⟨_, _, rest⟩ ⟨rfl, rfl, advancesTag, standsTag⟩
      dsimp only at advancesTag standsTag ⊢
      have sameBindings : (reader.view input).namespaces = reader.namespaces := rfl
      rw [sameBindings]
      cases declares : applyNamespaceDeclarations attributes reader.namespaces with
      | none => exact refines_reject
      | some namespaces =>
          dsimp only [Option.bind_eq_bind, Option.bind_some]
          generalize resolveNamespace namespaces name .elementName = resolved
          cases resolved with
          | none => exact refines_reject
          | some namespaceUri =>
              apply Refines.require
              · intro invalid
                change (if (!validateAttributes namespaces attributes []) = true then _ else _) = _
                rw [invalid]
                rfl
              · intro valid
                change Refines _ _
                  (if (!validateAttributes namespaces attributes []) = true then _ else _)
                have isValid : ¬ (!validateAttributes namespaces attributes []) = true := by
                  rw [valid]
                  exact Bool.false_ne_true
                have sameEmpty : (reader.view input).elements.isEmpty = reader.elements.isEmpty :=
                  List.isEmpty_map
                rw [if_neg isValid, sameEmpty]
                change Refines _ _
                  (if (reader.elements.isEmpty && reader.rootSeen) = true then _ else _)
                apply Refines.require
                · intro second
                  rw [Bool.not_eq_false'] at second
                  rw [if_pos second]
                  rfl
                · intro only
                  have isOnly : ¬ (reader.elements.isEmpty && reader.rootSeen) = true := by
                    rw [Bool.not_eq_true'] at only
                    rw [only]
                    exact Bool.false_ne_true
                  rw [if_neg isOnly]
                  apply refines_ok
                  constructor
                  · refine ⟨?_, standsTag.inRange, ?_, ?_⟩
                    · exact (Nat.le_succ _).trans (advances.trans advancesTag)
                    · rw [← standsTag.left]
                      rfl
                    · obtain ⟨_, rfl⟩ := applyNamespaceDeclarations_eq_some_iff.mp declares
                      refine ⟨?_, ?_, inScope.counted⟩
                      · rw [bindings_cons, inScope.namespaces]
                      · rw [← inScope.namespaces]
                  · exact ⟨rfl, List.cons_ne_nil _ _⟩

theorem parseStartElement_refines {reader : Reader} (inScope : InScope reader) {after : Text}
    (stands : Stands input reader.position ('<' :: after)) :
    Refines (Views input (reader.position + 1)) (parseStartElement utf8Proc input fuel reader)
      (Xml.parseStartElement utf8Proc (reader.view input)) := by
  rw [parseStartElement, parseStartElement_eq]
  apply (openElement_refines enough inScope stands).bind
  rintro ⟨opened, selfClosing⟩ ⟨specified, _⟩ ⟨views, rfl, inside⟩
  dsimp only at views inside ⊢
  cases selfClosing with
  | false => exact refines_ok views
  | true =>
      obtain ⟨advances, inRange, rfl, openedInScope⟩ := views
      apply (closeElement_refines openedInScope inRange inside).mono
      exact fun closed _ viewsClosed => viewsClosed.mono advances

theorem parseEndElement_refines {reader : Reader} (inScope : InScope reader) {after : Text}
    (stands : Stands input reader.position ("</".toList ++ after)) :
    Refines (Views input (reader.position + 1)) (parseEndElement input fuel reader)
      (Xml.parseEndElement (reader.view input)) := by
  have dropped : (reader.view input).input.drop 2 = after := by
    have left : (reader.view input).input = "</".toList ++ after := stands.left
    rw [left]
    rfl
  have standsName : Stands input (reader.position + 2) after := stands.append
  cases elements : reader.elements with
  | nil =>
      have outside : (reader.view input).elements = [] := by
        rw [Reader.view, elements]
        rfl
      rw [parseEndElement, Xml.parseEndElement, outside, elements]
      exact refines_reject
  | cons element outer =>
      have inside : (reader.view input).elements =
          element.frame :: outer.map OpenElement.frame := by
        rw [Reader.view, elements]
        rfl
      rw [parseEndElement, Xml.parseEndElement, inside, elements, dropped]
      change Refines _ (moved input (reader.position + 2) >>= _) (Option.bind _ _)
      rw [standsName.moved_eq]
      apply (parseQualifiedName_refines enough standsName).bind
      rintro ⟨name, position⟩ ⟨_, left⟩ ⟨rfl, advances, standsSpace⟩
      dsimp only at advances standsSpace ⊢
      obtain ⟨next, skips, advancesSpace, standsEnd⟩ := skipWhitespace_eq enough standsSpace
      rw [skips]
      change Refines _ (isAt input next (· == '>') >>= _) _
      rw [standsEnd.isAt_eq]
      cases ends : Xml.skipWhitespace left with
      | nil => exact refines_reject
      | cons byte rest =>
          rw [ends] at standsEnd
          change Refines _ (require (byte == '>') >>= _) _
          apply Refines.require
          · intro other
            split
            · rename_i isEnd
              cases isEnd
              cases other
            · rfl
          · intro isEnd
            obtain rfl := eq_of_beq isEnd
            rw [standsEnd.tail.moved_eq, back, elements]
            change Refines _ (require (element.frame.name == name) >>= _)
              (if element.frame.name ≠ name then none else _)
            apply Refines.require
            · intro other
              have differs : element.frame.name ≠ name := by simpa using other
              exact if_pos differs
            · intro same
              have isSame : ¬ element.frame.name ≠ name := not_not_intro (eq_of_beq same)
              have closes := @closeElement_refines input
                { reader with position := next + 1, elements := element :: outer }
                { namespaces := elements ▸ inScope.namespaces
                  counted := elements ▸ inScope.counted }
                standsEnd.tail.inRange (List.cons_ne_nil _ _)
              rw [if_neg isSame, ← standsEnd.tail.left]
              apply closes.mono
              exact fun closed _ viewsClosed => viewsClosed.mono (by dsimp only; omega)

end Httpfs.S3.Xml.Position
