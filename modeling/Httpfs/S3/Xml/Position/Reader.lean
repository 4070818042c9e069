import Httpfs.S3.Xml.Response
import Httpfs.Text.Cursor

/-!
# The reader by position

The reader as the program has it: with a position in the input, which every step checks.
Loops run on fuel, and to be out of it is a fault.

What does not depend on the position (references between their delimiters, namespaces, the
attributes of a declaration, the interpretation of a root) is the same as in the reader
that holds what is left of the input.
-/

namespace Httpfs.S3.Xml.Position

open Text Cursor

/-! ## Names and references -/

variable (utf8Proc : Utf8Proc) (input : Text) (fuel : Nat)

/-- The loop of `ValidateCharacters`. -/
def validateCodepoints : Nat → Nat → Except Stop PUnit
  | 0, _ => fail .endless
  | fuel + 1, codepointPosition =>
      if codepointPosition < input.length then do
        let (codepoint, codepointSize) :=
          utf8Proc.utf8ToCodepoint (input.drop codepointPosition)
        require (isXMLCharacter codepoint)
        validateCodepoints fuel (codepointPosition + codepointSize)
      else .ok ⟨⟩

def validateCharacters : Except Stop PUnit := do
  require (utf8Proc.isValid input)
  validateCodepoints utf8Proc input fuel 0

def skipWhitespace (position : Nat) : Except Stop Nat :=
  skipWhile input isXMLWhitespace fuel position

/-- A name without a colon. -/
def parseName (position : Nat) : Except Stop (Text × Nat) := do
  require (← isAt input position isNameStart)
  let nameBegin := position
  let position ← moved input (position + 1)
  let position ← skipWhile input isNameCharacter fuel position
  pure (← substrAt input nameBegin (position - nameBegin), position)

def parseQualifiedName (position : Nat) : Except Stop (S3XMLQualifiedName × Nat) := do
  let (first, position) ← parseName input fuel position
  if ← isAt input position (· == ':') then
    let position ← moved input (position + 1)
    let (localName, position) ← parseName input fuel position
    require !(← isAt input position (· == ':'))
    pure (⟨first, localName⟩, position)
  else pure (⟨[], first⟩, position)

/-- A reference, from its `&` on. -/
def parseReference (position : Nat) : Except Stop (Text × Nat) := do
  require (← isAt input position (· == '&'))
  match findAt input [';'] (position + 1) with
  | none => reject
  | some referenceEnd =>
      let reference ← substrAt input (position + 1) (referenceEnd - position - 1)
      let position ← moved input (referenceEnd + 1)
      match decodeReference utf8Proc reference with
      | none => reject
      | some decoded => pure (decoded, position)

/-! ## Attribute values -/

/-- The loop over the characters of a value. -/
def attributeCharacters (quote : Char) : Nat → Text → Nat → Except Stop (Text × Nat)
  | 0, _, _ => fail .endless
  | fuel + 1, value, position =>
      if position < input.length then do
        let current ← charAt input position
        if current = quote then pure (value, ← moved input (position + 1))
        else if current = '<' then reject
        else if current = '&' then
          let (decoded, position) ← parseReference utf8Proc input position
          attributeCharacters quote fuel (value ++ decoded) position
        else
          attributeCharacters quote fuel
            (value ++ [if isXMLWhitespace current then ' ' else current])
            (← moved input (position + 1))
      else reject

/-- The quote that opens a value. -/
def parseQuote (position : Nat) : Except Stop (Char × Nat) := do
  require (← isAt input position fun quote => quote == '\'' || quote == '"')
  pure (← charAt input position, ← moved input (position + 1))

def parseAttributeValue (position : Nat) : Except Stop (Text × Nat) := do
  let (quote, position) ← parseQuote input position
  attributeCharacters utf8Proc input quote fuel [] position

/-- The loop over the characters of a value of the declaration. -/
def declarationCharacters (quote : Char) : Nat → Text → Nat → Except Stop (Text × Nat)
  | 0, _, _ => fail .endless
  | fuel + 1, value, position =>
      if position < input.length then do
        let current ← charAt input position
        if current = quote then pure (value, ← moved input (position + 1))
        else
          require !(current == '<' || current == '&' || !isNameCharacter current)
          declarationCharacters quote fuel (value ++ [current]) (← moved input (position + 1))
      else reject

def parseDeclarationValue (position : Nat) : Except Stop (Text × Nat) := do
  let (quote, position) ← parseQuote input position
  declarationCharacters input quote fuel [] position

/-- The equals sign between a name and a value. -/
def parseEquals (position : Nat) : Except Stop Nat := do
  let position ← skipWhitespace input fuel position
  require (← isAt input position (· == '='))
  let position ← moved input (position + 1)
  skipWhitespace input fuel position

/-! ## Loops over attributes -/

/-- The attributes so far, and the position. -/
structure AttributesState where
  attributes : List S3XMLAttribute := []
  position : Nat

/-- An iteration of the loop of `ParseXMLDeclaration`. -/
def declarationAttribute (state : AttributesState) :
    Except Stop (Iteration AttributesState (List S3XMLAttribute × Nat)) := do
  let position ← skipWhitespace input fuel state.position
  if ← hasPrefixAt input "?>".toList position then
    pure (.done (state.attributes, ← moved input (position + 2)))
  else
    let (name, position) ← parseQualifiedName input fuel position
    require name.namePrefix.isEmpty
    let position ← parseEquals input fuel position
    let (value, position) ← parseDeclarationValue input fuel position
    let closes ← hasPrefixAt input "?>".toList position
    require (closes || (← isAt input position isXMLWhitespace))
    pure (.again ⟨state.attributes ++ [⟨name, value⟩], position⟩)

def parseXMLDeclaration (position : Nat) : Except Stop Nat := do
  let position ← moved input (position + "<?xml".toList.length)
  require (← isAt input position isXMLWhitespace)
  let (attributes, position) ← iterate (declarationAttribute input fuel) fuel { position }
  require (declarationIsValid attributes)
  pure position

/-- The end of an iteration of the loop of `ParseStartElement`: an attribute, if there is
one after the white space. -/
def attributeAfterSpace (state : AttributesState) :
    Except Stop (Iteration AttributesState (List S3XMLAttribute × Bool × Nat)) := do
  if ← isAt input state.position fun next => !(next == '>' || next == '/') then
    let (name, position) ← parseQualifiedName input fuel state.position
    require !(state.attributes.any (·.name == name))
    let position ← parseEquals input fuel position
    let (value, position) ← parseAttributeValue utf8Proc input fuel position
    pure (.again ⟨state.attributes ++ [⟨name, value⟩], position⟩)
  else pure (.again state)

/-- An iteration of the loop of `ParseStartElement`. -/
def tagAttribute (state : AttributesState) :
    Except Stop (Iteration AttributesState (List S3XMLAttribute × Bool × Nat)) := do
  let position := state.position
  require (position < input.length)
  let current ← charAt input position
  if current = '>' then pure (.done (state.attributes, false, ← moved input (position + 1)))
  else if current == '/' && (← isAt input (position + 1) (· == '>')) then
    pure (.done (state.attributes, true, ← moved input (position + 2)))
  else
    require (isXMLWhitespace current)
    let position ← skipWhitespace input fuel position
    attributeAfterSpace utf8Proc input fuel { state with position }

/-! ## Elements -/

/-- An open element.  The program does not keep the attributes of its start tag. -/
structure OpenElement where
  frame : S3XMLElementFrame
  attributes : List S3XMLAttribute

structure Reader where
  position : Nat := 0
  rootSeen : Bool := false
  rootClosed : Bool := false
  root : S3XMLNode := .mk [] [] [] []
  namespaces : List S3XMLNamespaceBinding := [⟨"xml".toList, xmlNamespace⟩]
  elements : List OpenElement := []

/-- `namespaces.resize`. -/
def resize (namespaces : List S3XMLNamespaceBinding) (count : Nat) :
    List S3XMLNamespaceBinding :=
  List.replicate (count - namespaces.length) ⟨[], []⟩ ++
    namespaces.drop (namespaces.length - count)

/-- `elements.back()`. -/
def back (reader : Reader) : Except Stop OpenElement :=
  match reader.elements with
  | [] => fail .noEntry
  | element :: _ => .ok element

/-- The reader with another innermost element. -/
def setBack (reader : Reader) (element : OpenElement) : Reader :=
  { reader with elements := element :: reader.elements.tail }

/-- Append to the text of the innermost element. -/
def appendText (reader : Reader) (text : Text) : Except Stop Reader := do
  let element ← back reader
  pure (setBack reader
    { element with frame := { element.frame with text := element.frame.text ++ text } })

def closeElement (reader : Reader) : Except Stop Reader := do
  let element ← back reader
  let frame := element.frame
  let reader := { reader with
    elements := reader.elements.tail
    namespaces := resize reader.namespaces frame.namespaceCount }
  let node : S3XMLNode := .mk frame.name.localName frame.namespaceUri frame.text frame.children
  if reader.elements.isEmpty then pure { reader with root := node, rootClosed := true }
  else
    let parent ← back reader
    pure (setBack reader
      { parent with frame := { parent.frame with children := parent.frame.children ++ [node] } })

/-- `ParseStartElement` up to the open element, and whether the tag closes it. -/
def openElement (reader : Reader) : Except Stop (Reader × Bool) := do
  require !(reader.rootClosed || maxNestingDepth ≤ reader.elements.length)
  require (← isAt input reader.position (· == '<'))
  let position ← moved input (reader.position + 1)
  let (name, position) ← parseQualifiedName input fuel position
  require !(name.namePrefix == "xmlns".toList)
  let (attributes, selfClosing, position) ←
    iterate (tagAttribute utf8Proc input fuel) fuel { position }
  let namespaceCount := reader.namespaces.length
  match applyNamespaceDeclarations attributes reader.namespaces with
  | none => reject
  | some namespaces =>
      match resolveNamespace namespaces name .elementName with
      | none => reject
      | some namespaceUri =>
          require (validateAttributes namespaces attributes [])
          require !(reader.elements.isEmpty && reader.rootSeen)
          pure ({ reader with
            position
            namespaces
            rootSeen := true
            elements :=
              { frame := { name, namespaceUri, text := [], namespaceCount, children := [] }
                attributes } :: reader.elements }, selfClosing)

def parseStartElement (reader : Reader) : Except Stop Reader := do
  let (reader, selfClosing) ← openElement utf8Proc input fuel reader
  if selfClosing then closeElement reader else pure reader

def parseEndElement (reader : Reader) : Except Stop Reader := do
  require !reader.elements.isEmpty
  let position ← moved input (reader.position + 2)
  let (name, position) ← parseQualifiedName input fuel position
  let position ← skipWhitespace input fuel position
  require (← isAt input position (· == '>'))
  let position ← moved input (position + 1)
  let element ← back reader
  require (element.frame.name == name)
  closeElement { reader with position }

/-! ## Comments, character data and text -/

def parseComment (reader : Reader) : Except Stop Reader := do
  let commentBegin := reader.position + "<!--".toList.length
  match findAt input "-->".toList commentBegin with
  | none => reject
  | some commentEnd =>
      let invalid := findAt input "--".toList commentBegin
      require (invalid == some commentEnd)
      pure { reader with position := ← moved input (commentEnd + "-->".toList.length) }

def parseCDATA (reader : Reader) : Except Stop Reader := do
  require !reader.elements.isEmpty
  let contentBegin := reader.position + "<![CDATA[".toList.length
  match findAt input "]]>".toList contentBegin with
  | none => reject
  | some contentEnd =>
      let reader ← appendText reader
        (← substrAt input contentBegin (contentEnd - contentBegin))
      pure { reader with position := ← moved input (contentEnd + "]]>".toList.length) }

/-- The loop over text outside the root. -/
def blankText (textEnd : Nat) : Nat → Nat → Except Stop Nat
  | 0, _ => fail .endless
  | fuel + 1, position =>
      if position < textEnd then do
        require (isXMLWhitespace (← charAt input position))
        blankText textEnd fuel (← moved input (position + 1))
      else pure position

/-- The loop over text in an element. -/
def elementText (textEnd : Nat) : Nat → Reader → Except Stop Reader
  | 0, _ => fail .endless
  | fuel + 1, reader =>
      if reader.position < textEnd then do
        let current ← charAt input reader.position
        if current = '&' then
          let (decoded, position) ← parseReference utf8Proc input reader.position
          let reader ← appendText reader decoded
          require !(textEnd < position)
          elementText textEnd fuel { reader with position }
        else
          let reader ← appendText reader [current]
          elementText textEnd fuel
            { reader with position := ← moved input (reader.position + 1) }
      else pure reader

def parseText (reader : Reader) : Except Stop Reader := do
  let textEnd := (findAt input ['<'] reader.position).getD input.length
  if reader.elements.isEmpty then
    pure { reader with position := ← blankText input textEnd fuel reader.position }
  else
    require !((findAt input "]]>".toList reader.position).any (· < textEnd))
    elementText utf8Proc input textEnd fuel reader

/-! ## Documents -/

/-- An iteration of the loop of `ParseDocument` that goes on. -/
def parseMarkup (reader : Reader) : Except Stop Reader := do
  let current ← charAt input reader.position
  if current ≠ '<' then parseText utf8Proc input fuel reader
  else if ← hasPrefixAt input "<!--".toList reader.position then parseComment input reader
  else if ← hasPrefixAt input "<![CDATA[".toList reader.position then parseCDATA input reader
  else if ← hasPrefixAt input "</".toList reader.position then
    parseEndElement input fuel reader
  else if (← hasPrefixAt input "<!".toList reader.position) ||
      (← hasPrefixAt input "<?".toList reader.position) then reject
  else parseStartElement utf8Proc input fuel reader

/-- An iteration of the loop of `ParseDocument`. -/
def documentIteration (reader : Reader) : Except Stop (Iteration Reader Reader) :=
  if reader.position < input.length then do
    pure (.again (← parseMarkup utf8Proc input fuel reader))
  else pure (.done reader)

/-- What precedes the root: the byte order mark and the declaration. -/
def parseProlog : Except Stop Nat := do
  let position ← if ← hasPrefixAt input utf8Bom 0 then moved input 3 else pure 0
  if ← hasPrefixAt input "<?xml".toList position then parseXMLDeclaration input fuel position
  else pure position

def parseDocument : Except Stop S3XMLNode := do
  validateCharacters utf8Proc input fuel
  let position ← parseProlog input fuel
  let reader ← iterate (documentIteration utf8Proc input fuel) fuel { position }
  require !(!reader.rootSeen || !reader.rootClosed || !reader.elements.isEmpty)
  pure reader.root

/-! ## Parsing -/

/-- The root of the document as the result makes of it, or none. -/
def tryParse : Except Fault (Option S3XMLResponse) :=
  outcome (interpretResponse <$> parseDocument utf8Proc input fuel)

def tryParseError : Except Fault (Option S3XMLError) := do
  match ← tryParse utf8Proc input fuel with
  | none => pure none
  | some response =>
      if response.type ≠ .error then pure none
      else pure (some ⟨response.errorCode, response.errorMessage, response.errorAccessKeyId⟩)

def tryParseListObjectsV2 : Except Fault (Option S3ListObjectsV2Result) := do
  match ← outcome (parseDocument utf8Proc input fuel) with
  | none => pure none
  | some root => pure (interpretListObjectsV2 root)

def tryParseDeleteObjects : Except Fault (Option S3DeleteObjectsResult) := do
  match ← outcome (parseDocument utf8Proc input fuel) with
  | none => pure none
  | some root => pure (interpretDeleteObjects root)

end Httpfs.S3.Xml.Position
