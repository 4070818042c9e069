import Httpfs.S3.Xml.Position.Markups

/-!
# The reader is safe

The reader by position has no fault: it never reads or moves behind the end of the input,
looks at the innermost element only if there is one and comes to its end.  It accepts what
the reader that holds what is left accepts.
-/

namespace Httpfs.S3.Xml.Position

open Text Cursor

variable {utf8Proc : Utf8Proc} {input : Text} {fuel : Nat}

/-! ## Characters -/

theorem validateCodepoints_utf8 (lawful : utf8Proc.Lawful) {loopFuel position : Nat}
    (chars : List Char) (stands : Stands input position (utf8 chars))
    (loopEnough : (utf8 chars).length < loopFuel) :
    validateCodepoints utf8Proc input loopFuel position =
      if chars.all (fun char => isXMLCharacter char.toNat) then .ok ⟨⟩ else reject := by
  induction loopFuel generalizing position chars with
  | zero => contradiction
  | succ loopFuel inductionHypothesis =>
      rw [validateCodepoints]
      cases chars with
      | nil =>
          have atEnd : ¬ position < input.length := fun before => stands.lt_iff.mp before rfl
          rw [if_neg atEnd]
          rfl
      | cons char chars =>
          have positive := List.length_pos_iff.mpr (utf8Bytes_ne_nil char)
          rw [utf8_cons] at stands loopEnough
          rw [List.length_append] at loopEnough
          have someBytes : utf8Bytes char ++ utf8 chars ≠ [] := by
            simp [utf8Bytes_ne_nil]
          rw [if_pos (stands.lt_iff.mpr someBytes), stands.left, lawful.utf8ToCodepoint_eq]
          change (require (isXMLCharacter char.toNat) >>= _) = _
          rw [List.all_cons]
          cases isXMLCharacter char.toNat with
          | false => rfl
          | true => exact inductionHypothesis chars stands.append (by omega)

theorem validateCharacters_eq (lawful : utf8Proc.Lawful) (enough : input.length < fuel) :
    validateCharacters utf8Proc input fuel =
      require (Xml.validateCharacters utf8Proc input) := by
  rw [validateCharacters]
  cases valid : utf8Proc.isValid input with
  | false =>
      have refused : Xml.validateCharacters utf8Proc input = false := by
        rw [Xml.validateCharacters, valid]
        rfl
      rw [refused]
      rfl
  | true =>
      obtain ⟨chars, rfl⟩ := (lawful.isValid_iff input).mp valid
      have stands := Stands.start (utf8 chars)
      change validateCodepoints utf8Proc (utf8 chars) fuel 0 = _
      rw [validateCodepoints_utf8 lawful chars stands enough]
      have same : Xml.validateCharacters utf8Proc (utf8 chars) =
          chars.all fun char => isXMLCharacter char.toNat := by
        rw [Xml.validateCharacters, valid, Bool.true_and]
        exact Xml.validateCodepoints_utf8 lawful chars le_rfl
      rw [same]
      rfl

/-! ## Markup -/

section Markup

variable (enough : input.length < fuel)
include enough

/-- An iteration does the same, and ends at a later position. -/
theorem parseMarkup_refines {reader : Reader} (inScope : InScope reader) {byte : Char}
    {rest : Text} (stands : Stands input reader.position (byte :: rest)) :
    Refines (Views input (reader.position + 1)) (parseMarkup utf8Proc input fuel reader)
      (Xml.parseMarkup utf8Proc (reader.view input)) := by
  have left : (reader.view input).input = byte :: rest := stands.left
  rw [parseMarkup, Xml.parseMarkup, left, stands.charAt_eq, stands.hasPrefixAt_eq,
    stands.hasPrefixAt_eq, stands.hasPrefixAt_eq, stands.hasPrefixAt_eq, stands.hasPrefixAt_eq]
  change Refines _ (if byte ≠ '<' then _ else _) (if some byte ≠ some '<' then _ else _)
  by_cases isText : byte ≠ '<'
  · have notMarkup : some byte ≠ some '<' := fun same => isText (Option.some.inj same)
    rw [if_pos isText, if_pos notMarkup]
    exact parseText_refines enough inScope stands isText
  · obtain rfl := not_not.mp isText
    rw [if_neg isText, if_neg (not_not_intro rfl)]
    change Refines _ (if "<!--".toList.isPrefixOf ('<' :: rest) = true then _ else _) _
    by_cases comment : "<!--".toList.isPrefixOf ('<' :: rest) = true
    · obtain ⟨content, opens⟩ := List.isPrefixOf_iff_prefix.mp comment
      rw [if_pos comment, if_pos comment]
      exact parseComment_refines inScope (opens ▸ stands)
    · rw [if_neg comment, if_neg comment]
      change Refines _ (if "<![CDATA[".toList.isPrefixOf ('<' :: rest) = true then _ else _) _
      by_cases cdata : "<![CDATA[".toList.isPrefixOf ('<' :: rest) = true
      · obtain ⟨content, opens⟩ := List.isPrefixOf_iff_prefix.mp cdata
        rw [if_pos cdata, if_pos cdata]
        exact parseCDATA_refines inScope (opens ▸ stands)
      · rw [if_neg cdata, if_neg cdata]
        change Refines _ (if "</".toList.isPrefixOf ('<' :: rest) = true then _ else _) _
        by_cases closing : "</".toList.isPrefixOf ('<' :: rest) = true
        · obtain ⟨after, opens⟩ := List.isPrefixOf_iff_prefix.mp closing
          rw [if_pos closing, if_pos closing]
          exact parseEndElement_refines enough inScope (opens ▸ stands)
        · rw [if_neg closing, if_neg closing]
          change Refines _ (if ("<!".toList.isPrefixOf ('<' :: rest) ||
            "<?".toList.isPrefixOf ('<' :: rest)) = true then _ else _) _
          split
          · exact refines_reject
          · exact parseStartElement_refines enough inScope stands

/-- The iterations over a document come to its end. -/
theorem parseMarkups_refines {loopFuel specified : Nat} {reader : Reader} {rest : Text}
    (inScope : InScope reader) (stands : Stands input reader.position rest)
    (loopEnough : rest.length < loopFuel) (specifiedEnough : rest.length < specified) :
    Refines (Views input reader.position)
      (iterate (documentIteration utf8Proc input fuel) loopFuel reader)
      (parseMarkups utf8Proc specified (reader.view input)) := by
  induction loopFuel generalizing specified reader rest with
  | zero => contradiction
  | succ loopFuel inductionHypothesis =>
      obtain ⟨specified, rfl⟩ :=
        Nat.exists_eq_add_one_of_ne_zero (Nat.ne_zero_of_lt specifiedEnough)
      have left : (reader.view input).input = rest := stands.left
      rw [iterate, documentIteration, parseMarkups, left]
      cases rest with
      | nil =>
          have atEnd : ¬ reader.position < input.length := fun before =>
            stands.lt_iff.mp before rfl
          rw [if_neg atEnd]
          exact refines_ok ⟨le_rfl, stands.inRange, rfl, inScope⟩
      | cons byte rest =>
          rw [if_pos (stands.lt_iff.mpr (List.cons_ne_nil _ _)), bind_assoc]
          apply (parseMarkup_refines enough inScope stands).bind
          rintro next specifiedNext ⟨advances, inRange, rfl, nextInScope⟩
          have standsNext : Stands input next.position (input.drop next.position) :=
            ⟨inRange, rfl⟩
          have shorter : (input.drop next.position).length < (byte :: rest).length := by
            have length := stands.length_eq
            have lengthNext := standsNext.length_eq
            omega
          have later := inductionHypothesis nextInScope standsNext
            (Nat.lt_of_lt_of_le shorter (Nat.le_of_lt_succ loopEnough))
            (Nat.lt_of_lt_of_le shorter (Nat.le_of_lt_succ specifiedEnough))
          apply later.mono
          exact fun last _ views => views.mono ((Nat.le_succ _).trans advances)

/-! ## Documents -/

theorem parseProlog_refines :
    Refines (Stands input) (parseProlog input fuel) (Xml.parseProlog input) := by
  have stands := Stands.start input
  have declared : ∀ {position : Nat} {rest : Text}, Stands input position rest →
      Refines (Stands input)
        (do
          if ← hasPrefixAt input "<?xml".toList position then
            parseXMLDeclaration input fuel position
          else pure position)
        (if "<?xml".toList.isPrefixOf rest then Xml.parseXMLDeclaration rest else some rest) := by
    intro position rest stands
    rw [stands.hasPrefixAt_eq]
    change Refines _ (if "<?xml".toList.isPrefixOf rest = true then _ else _) _
    by_cases opens : "<?xml".toList.isPrefixOf rest = true
    · rw [if_pos opens, if_pos opens]
      exact (parseXMLDeclaration_refines enough stands opens).mono fun _ _ reads => reads.2
    · rw [if_neg opens, if_neg opens]
      exact refines_ok stands
  rw [parseProlog, Xml.parseProlog, stands.hasPrefixAt_eq]
  dsimp only
  by_cases bom : utf8Bom.isPrefixOf input = true
  · obtain ⟨rest, isBom⟩ := List.isPrefixOf_iff_prefix.mp bom
    have standsRest : Stands input 3 rest := by
      have begins : Stands input 0 (utf8Bom ++ rest) := isBom ▸ stands
      exact begins.append
    have dropped : input.drop 3 = rest := standsRest.left
    rw [if_pos bom, dropped, bom]
    change Refines _ (moved input 3 >>= _) _
    rw [standsRest.moved_eq]
    exact declared standsRest
  · rw [if_neg bom, eq_false_of_ne_true bom]
    exact declared stands

/-- The reader by position accepts what the reader that holds what is left accepts. -/
theorem parseDocument_refines (lawful : utf8Proc.Lawful) :
    Refines (fun root specified => root = specified) (parseDocument utf8Proc input fuel)
      (Xml.parseDocument utf8Proc input) := by
  rw [parseDocument, validateCharacters_eq lawful enough, Xml.parseDocument]
  apply Refines.require
  · intro refused
    rw [refused]
    rfl
  · intro valid
    have accepted : ¬ (!Xml.validateCharacters utf8Proc input) = true := by
      rw [valid]
      exact Bool.false_ne_true
    rw [if_neg accepted]
    apply (parseProlog_refines enough).bind
    intro position body stands
    have view : ({ position } : Reader).view input = { input := body } := by
      rw [Reader.view, stands.left]
      rfl
    have loop := @parseMarkups_refines utf8Proc input fuel enough fuel (body.length + 1)
      { position } body (inScope_start position) stands (rest_lt enough stands)
      (Nat.lt_succ_self _)
    rw [view] at loop
    apply loop.bind
    rintro last _ ⟨_, _, rfl, _⟩
    have sameEmpty : (last.view input).elements.isEmpty = last.elements.isEmpty :=
      List.isEmpty_map
    change Refines _ (require (!(!last.rootSeen || !last.rootClosed || !last.elements.isEmpty))
        >>= _)
      (if (!last.rootSeen || !last.rootClosed || !(last.view input).elements.isEmpty) = true then _
        else _)
    rw [sameEmpty]
    apply Refines.require
    · intro incomplete
      rw [Bool.not_eq_false'] at incomplete
      rw [if_pos incomplete]
      rfl
    · intro complete
      rw [Bool.not_eq_true'] at complete
      rw [complete, if_neg Bool.false_ne_true]
      exact refines_ok rfl

end Markup

/-! ## Parsing -/

section Parsing

variable (enough : input.length < fuel) (lawful : utf8Proc.Lawful)
include enough lawful

theorem outcome_parseDocument :
    outcome (parseDocument utf8Proc input fuel) = .ok (Xml.parseDocument utf8Proc input) :=
  (parseDocument_refines enough lawful).outcome_eq

theorem tryParse_eq : tryParse utf8Proc input fuel = .ok (Xml.tryParse utf8Proc input) := by
  have document := outcome_parseDocument enough lawful
  rw [tryParse, Xml.tryParse]
  cases parsed : parseDocument utf8Proc input fuel with
  | ok root =>
      rw [parsed] at document
      have accepted : some root = Xml.parseDocument utf8Proc input := Except.ok.inj document
      rw [← accepted]
      rfl
  | error stop =>
      rw [parsed] at document
      cases stop with
      | fault fault => cases document
      | rejected =>
          have refused : none = Xml.parseDocument utf8Proc input := Except.ok.inj document
          rw [← refused]
          rfl

theorem tryParseError_eq :
    tryParseError utf8Proc input fuel = .ok (Xml.tryParseError utf8Proc input) := by
  rw [tryParseError, tryParse_eq enough lawful, Xml.tryParseError]
  cases Xml.tryParse utf8Proc input with
  | none => rfl
  | some response =>
      change (if response.type ≠ .error then _ else _) = Except.ok (if _ then _ else _)
      split <;> rfl

theorem tryParseListObjectsV2_eq :
    tryParseListObjectsV2 utf8Proc input fuel =
      .ok (Xml.tryParseListObjectsV2 utf8Proc input) := by
  rw [tryParseListObjectsV2, outcome_parseDocument enough lawful, Xml.tryParseListObjectsV2]
  cases Xml.parseDocument utf8Proc input <;> rfl

theorem tryParseDeleteObjects_eq :
    tryParseDeleteObjects utf8Proc input fuel =
      .ok (Xml.tryParseDeleteObjects utf8Proc input) := by
  rw [tryParseDeleteObjects, outcome_parseDocument enough lawful, Xml.tryParseDeleteObjects]
  cases Xml.parseDocument utf8Proc input <;> rfl

end Parsing

/-! ## Progress -/

/-- An iteration has no fault, and goes on only further in the input. -/
def Progresses {α β : Type} (input : Text) (position : α → Nat)
    (body : α → Except Stop (Iteration α β)) (state : α) : Prop :=
  (∀ fault, body state ≠ fail fault) ∧
    ∀ next, body state = .ok (.again next) →
      position state < position next ∧ position next ≤ input.length

theorem progresses_of_refines {β δ : Type} {Done : β → δ → Prop} {state : AttributesState}
    {body : AttributesState → Except Stop (Iteration AttributesState β)}
    {parsed : Option (Iteration (List S3XMLAttribute × Text) δ)}
    (refines : Refines (Proceeds input (state.position + 1) Done) (body state) parsed) :
    Progresses input AttributesState.position body state := by
  cases parsed with
  | none =>
      have rejects : body state = reject := refines
      constructor
      · intro fault fails
        cases rejects.symm.trans fails
      · intro next goesOn
        cases rejects.symm.trans goesOn
  | some specified =>
      obtain ⟨iterated, returns, proceeds⟩ := refines
      constructor
      · intro fault fails
        cases returns.symm.trans fails
      · intro next goesOn
        cases returns.symm.trans goesOn
        cases specified with
        | done result => exact proceeds.elim
        | again specified => exact ⟨proceeds.2.1, proceeds.2.2.inRange⟩

/-- Where `ParseDocument` begins an iteration. -/
inductive Boundary (utf8Proc : Utf8Proc) (input : Text) (fuel : Nat) : Reader → Prop
  | start {position : Nat} (prolog : parseProlog input fuel = .ok position) :
      Boundary utf8Proc input fuel { position }
  | again {reader next : Reader} (boundary : Boundary utf8Proc input fuel reader)
      (goesOn : documentIteration utf8Proc input fuel reader = .ok (.again next)) :
      Boundary utf8Proc input fuel next

section Progress

variable (enough : input.length < fuel)
include enough

theorem documentIteration_progresses {reader : Reader} (inScope : InScope reader)
    (inRange : reader.position ≤ input.length) :
    Progresses input Reader.position (documentIteration utf8Proc input fuel) reader ∧
      ∀ next, documentIteration utf8Proc input fuel reader = .ok (.again next) →
        InScope next := by
  cases left : input.drop reader.position with
  | nil =>
      have stands : Stands input reader.position [] := ⟨inRange, left⟩
      have atEnd : ¬ reader.position < input.length := fun before => stands.lt_iff.mp before rfl
      have done : documentIteration utf8Proc input fuel reader = .ok (.done reader) := by
        rw [documentIteration, if_neg atEnd]
        rfl
      refine ⟨⟨?_, ?_⟩, ?_⟩
      · intro fault fails
        cases done.symm.trans fails
      · intro next goesOn
        cases done.symm.trans goesOn
      · intro next goesOn
        cases done.symm.trans goesOn
  | cons byte rest =>
      have stands : Stands input reader.position (byte :: rest) := ⟨inRange, left⟩
      have before : reader.position < input.length := stands.lt_iff.mpr (List.cons_ne_nil _ _)
      have refines := @parseMarkup_refines utf8Proc input fuel enough reader inScope byte rest stands
      have iterated : documentIteration utf8Proc input fuel reader =
          parseMarkup utf8Proc input fuel reader >>= fun next => pure (.again next) :=
        if_pos before
      cases parsed : Xml.parseMarkup utf8Proc (reader.view input) with
      | none =>
          rw [parsed] at refines
          have rejects : documentIteration utf8Proc input fuel reader = reject := by
            rw [iterated, (refines : parseMarkup utf8Proc input fuel reader = reject)]
            rfl
          refine ⟨⟨?_, ?_⟩, ?_⟩
          · intro fault fails
            cases rejects.symm.trans fails
          · intro next goesOn
            cases rejects.symm.trans goesOn
          · intro next goesOn
            cases rejects.symm.trans goesOn
      | some specified =>
          rw [parsed] at refines
          obtain ⟨moved, returns, views⟩ := refines
          have goes : documentIteration utf8Proc input fuel reader = .ok (.again moved) := by
            rw [iterated, returns]
            rfl
          refine ⟨⟨?_, ?_⟩, ?_⟩
          · intro fault fails
            cases goes.symm.trans fails
          · intro next goesOn
            cases goes.symm.trans goesOn
            exact ⟨views.advances, views.inRange⟩
          · intro next goesOn
            cases goes.symm.trans goesOn
            exact views.inScope

theorem Boundary.inScope {reader : Reader} (boundary : Boundary utf8Proc input fuel reader) :
    reader.position ≤ input.length ∧ InScope reader := by
  induction boundary with
  | start prolog =>
      have refines := parseProlog_refines enough
      rw [prolog] at refines
      cases parsed : Xml.parseProlog input with
      | none =>
          rw [parsed] at refines
          cases refines
      | some body =>
          rw [parsed] at refines
          obtain ⟨_, same, stands⟩ := refines
          cases same
          exact ⟨stands.inRange, inScope_start _⟩
  | again _ goesOn inductionHypothesis =>
      have progresses := @documentIteration_progresses utf8Proc input fuel enough _
        inductionHypothesis.2 inductionHypothesis.1
      exact ⟨(progresses.1.2 _ goesOn).2, progresses.2 _ goesOn⟩

/-- The state between the opening of an element and its end in the same tag. -/
theorem openElement_inScope {reader opened : Reader} {selfClosing : Bool}
    (inScope : InScope reader) (inRange : reader.position ≤ input.length)
    (opens : openElement utf8Proc input fuel reader = .ok (opened, selfClosing)) :
    opened.position ≤ input.length ∧ InScope opened := by
  have stands : Stands input reader.position (input.drop reader.position) := ⟨inRange, rfl⟩
  by_cases isTag : (input.drop reader.position).head?.any (· == '<') = true
  · cases left : input.drop reader.position with
    | nil =>
        rw [left] at isTag
        cases isTag
    | cons byte after =>
        rw [left] at isTag stands
        obtain rfl : byte = '<' := eq_of_beq isTag
        have refines := @openElement_refines utf8Proc input fuel enough reader inScope after stands
        rw [opens] at refines
        cases parsed : openedElement utf8Proc (reader.view input) with
        | none =>
            rw [parsed] at refines
            cases refines
        | some specified =>
            rw [parsed] at refines
            obtain ⟨_, same, views, _⟩ := refines
            cases same
            exact ⟨views.inRange, views.inScope⟩
  · rw [openElement, stands.isAt_eq, eq_false_of_ne_true isTag] at opens
    cases accepted : !(reader.rootClosed || decide (maxNestingDepth ≤ reader.elements.length)) with
    | false =>
        rw [accepted] at opens
        cases opens
    | true =>
        rw [accepted] at opens
        cases opens

end Progress

/-! ## Safety -/

/-- The reader is safe.  With fuel for the input, each way to parse returns what the reader
of what is left returns, without a fault.  Every iteration over attributes or markup ends
the loop or goes on further in the input.  Where an iteration over the document begins,
and where an element is open, the namespace stack is the binding of `xml` and what the start
tags of the open elements declare. -/
theorem reader_safe (lawful : utf8Proc.Lawful) (input : Text) {fuel : Nat}
    (enough : input.length < fuel) :
    (tryParse utf8Proc input fuel = .ok (Xml.tryParse utf8Proc input) ∧
      tryParseError utf8Proc input fuel = .ok (Xml.tryParseError utf8Proc input) ∧
      tryParseListObjectsV2 utf8Proc input fuel =
        .ok (Xml.tryParseListObjectsV2 utf8Proc input) ∧
      tryParseDeleteObjects utf8Proc input fuel =
        .ok (Xml.tryParseDeleteObjects utf8Proc input)) ∧
      (∀ state : AttributesState, state.position ≤ input.length →
        Progresses input AttributesState.position (declarationAttribute input fuel) state ∧
          Progresses input AttributesState.position (tagAttribute utf8Proc input fuel) state) ∧
      ∀ reader, Boundary utf8Proc input fuel reader →
        reader.position ≤ input.length ∧
          Progresses input Reader.position (documentIteration utf8Proc input fuel) reader ∧
          reader.namespaces = bindings reader.elements ∧
          ∀ opened selfClosing,
            openElement utf8Proc input fuel reader = .ok (opened, selfClosing) →
              opened.position ≤ input.length ∧
                opened.namespaces = bindings opened.elements := by
  refine ⟨⟨tryParse_eq enough lawful, tryParseError_eq enough lawful,
    tryParseListObjectsV2_eq enough lawful, tryParseDeleteObjects_eq enough lawful⟩, ?_, ?_⟩
  · intro state inRange
    have stands : Stands input state.position (input.drop state.position) := ⟨inRange, rfl⟩
    constructor
    · exact progresses_of_refines
        (declarationAttribute_refines enough state _ stands (Nat.zero_le _))
    · exact progresses_of_refines
        (tagAttribute_refines enough state _ stands (Nat.zero_le _))
  · intro reader boundary
    obtain ⟨inRange, inScope⟩ := boundary.inScope enough
    refine ⟨inRange, (documentIteration_progresses enough inScope inRange).1,
      inScope.namespaces, ?_⟩
    intro opened selfClosing opens
    have openedInScope := openElement_inScope enough inScope inRange opens
    exact ⟨openedInScope.1, openedInScope.2.namespaces⟩

/-- A response with tags that do not match. -/
def mismatched : Text :=
  "<a><b x='&#65;'></a>".toList

theorem reader_safe_mismatched :
    tryParse Utf8Proc.standard mismatched 32 = .ok (Xml.tryParse Utf8Proc.standard mismatched) ∧
      Xml.tryParse Utf8Proc.standard mismatched = none := by
  constructor
  · exact (reader_safe Utf8Proc.standard_lawful mismatched (by decide)).1.1
  · decide

end Httpfs.S3.Xml.Position
