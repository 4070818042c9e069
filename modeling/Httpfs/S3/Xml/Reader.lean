import Httpfs.Text.Core

/-!
# The XML reader

A one-pass reader for the XML documents of an S3 service.  Its position is
held as the input that is left; the stacks of open elements and of namespace
bindings have their innermost entry first.  Loops run on fuel that the length
of the input always covers.
-/

namespace Httpfs.S3.Xml

open Text

/-- The UTF-8 functions of the host system. -/
structure Utf8Proc where
  isValid : Text → Bool
  /-- Code point at the start of a text, and the length of its encoding. -/
  utf8ToCodepoint : Text → Nat × Nat
  codepointToUtf8 : Nat → Option Text

inductive S3XMLNameType
  | elementName
  | attributeName
  deriving DecidableEq, Repr

structure S3XMLQualifiedName where
  namePrefix : Text := []
  localName : Text
  deriving DecidableEq, Repr

structure S3XMLAttribute where
  name : S3XMLQualifiedName
  value : Text
  deriving DecidableEq, Repr

structure S3XMLNamespaceBinding where
  boundPrefix : Text
  uri : Text
  deriving DecidableEq, Repr

inductive S3XMLNode
  | mk (localName namespaceUri text : Text) (children : List S3XMLNode)

namespace S3XMLNode

def localName : S3XMLNode → Text
  | mk localName _ _ _ => localName

def namespaceUri : S3XMLNode → Text
  | mk _ namespaceUri _ _ => namespaceUri

def text : S3XMLNode → Text
  | mk _ _ text _ => text

def children : S3XMLNode → List S3XMLNode
  | mk _ _ _ children => children

end S3XMLNode

structure S3XMLElementFrame where
  name : S3XMLQualifiedName
  namespaceUri : Text
  text : Text
  namespaceCount : Nat
  children : List S3XMLNode

def utf8Bom : Text :=
  ['\xef', '\xbb', '\xbf']

def xmlNamespace : Text :=
  "http://www.w3.org/XML/1998/namespace".toList

def xmlnsNamespace : Text :=
  "http://www.w3.org/2000/xmlns/".toList

def maxNestingDepth : Nat :=
  256

structure S3XMLReader where
  input : Text
  rootSeen : Bool := false
  rootClosed : Bool := false
  root : S3XMLNode := .mk [] [] [] []
  namespaces : List S3XMLNamespaceBinding := [⟨"xml".toList, xmlNamespace⟩]
  elements : List S3XMLElementFrame := []

/-! ## Characters -/

def isXMLWhitespace (value : Char) : Bool :=
  value == ' ' || value == '\t' || value == '\r' || value == '\n'

def isNameStart (value : Char) : Bool :=
  ('A' ≤ value && value ≤ 'Z') || ('a' ≤ value && value ≤ 'z') || value == '_'

def isNameCharacter (value : Char) : Bool :=
  isNameStart value || ('0' ≤ value && value ≤ '9') || value == '.' || value == '-'

def isXMLCharacter (codepoint : Nat) : Bool :=
  codepoint == 0x9 || codepoint == 0xA || codepoint == 0xD ||
    (0x20 ≤ codepoint && codepoint ≤ 0xD7FF) || (0xE000 ≤ codepoint && codepoint ≤ 0xFFFD) ||
    (0x10000 ≤ codepoint && codepoint ≤ 0x10FFFF)

variable (utf8Proc : Utf8Proc)

/-- The loop of `ValidateCharacters` over the code points. -/
def validateCodepoints : Nat → Text → Bool
  | 0, input => input.isEmpty
  | fuel + 1, input =>
      if input.isEmpty then true
      else
        let (codepoint, codepointSize) := utf8Proc.utf8ToCodepoint input
        isXMLCharacter codepoint && validateCodepoints fuel (input.drop codepointSize)

def validateCharacters (input : Text) : Bool :=
  utf8Proc.isValid input && validateCodepoints utf8Proc input.length input

def skipWhitespace (input : Text) : Text :=
  input.dropWhile isXMLWhitespace

/-! ## Names and references -/

/-- A name without a colon. -/
def parseName (input : Text) : Option (Text × Text) :=
  match input with
  | [] => none
  | first :: _ =>
      if isNameStart first then
        some (input.takeWhile isNameCharacter, input.dropWhile isNameCharacter)
      else none

def parseQualifiedName (input : Text) : Option (S3XMLQualifiedName × Text) := do
  let (first, input) ← parseName input
  match input with
  | ':' :: input =>
      let (localName, input) ← parseName input
      if input.head? = some ':' then none
      else some (⟨first, localName⟩, input)
  | _ => some (⟨[], first⟩, input)

/-- The value of a digit, whatever the base. -/
def digitValue (base : Nat) (digit : Char) : Option Nat :=
  if '0' ≤ digit ∧ digit ≤ '9' then some (digit.toNat - '0'.toNat)
  else if base = 16 ∧ 'a' ≤ digit ∧ digit ≤ 'f' then some (digit.toNat - 'a'.toNat + 10)
  else if base = 16 ∧ 'A' ≤ digit ∧ digit ≤ 'F' then some (digit.toNat - 'A'.toNat + 10)
  else none

def accumulateDigits (base codepoint : Nat) : Text → Option Nat
  | [] => some codepoint
  | current :: rest => do
      let digit ← digitValue base current
      if base ≤ digit ∨ (0x10FFFF - digit) / base < codepoint then none
      else accumulateDigits base (codepoint * base + digit) rest

def decodeCharacterReference (base : Nat) (digits : Text) : Option Text :=
  if digits.isEmpty then none
  else do
    let codepoint ← accumulateDigits base 0 digits
    if isXMLCharacter codepoint then utf8Proc.codepointToUtf8 codepoint else none

/-- The bytes a reference stands for, from the text between `&` and `;`. -/
def decodeReference (reference : Text) : Option Text :=
  if reference = "lt".toList then some ['<']
  else if reference = "gt".toList then some ['>']
  else if reference = "amp".toList then some ['&']
  else if reference = "apos".toList then some ['\'']
  else if reference = "quot".toList then some ['"']
  else
    match reference with
    | '#' :: 'x' :: digits => decodeCharacterReference utf8Proc 16 digits
    | '#' :: digits => decodeCharacterReference utf8Proc 10 digits
    | _ => none

/-- A reference, from its `&` on. -/
def parseReference (input : Text) : Option (Text × Text) :=
  match input with
  | '&' :: input =>
      match input.dropWhile (· ≠ ';') with
      | [] => none
      | _ :: rest => do
          let decoded ← decodeReference utf8Proc (input.takeWhile (· ≠ ';'))
          some (decoded, rest)
  | _ => none

/-! ## Attribute values -/

def attributeCharacters (quote : Char) : Nat → Text → Option (Text × Text)
  | 0, _ => none
  | fuel + 1, input =>
      match input with
      | [] => none
      | current :: rest =>
          if current = quote then some ([], rest)
          else if current = '<' then none
          else if current = '&' then do
            let (decoded, rest) ← parseReference utf8Proc input
            let (value, rest) ← attributeCharacters quote fuel rest
            some (decoded ++ value, rest)
          else do
            let (value, rest) ← attributeCharacters quote fuel rest
            some ((if isXMLWhitespace current then ' ' else current) :: value, rest)

def parseAttributeValue (input : Text) : Option (Text × Text) :=
  match input with
  | [] => none
  | quote :: input =>
      if quote = '\'' ∨ quote = '"' then attributeCharacters utf8Proc quote (input.length + 1) input
      else none

def declarationCharacters (quote : Char) : Text → Option (Text × Text)
  | [] => none
  | current :: rest =>
      if current = quote then some ([], rest)
      else if isNameCharacter current then do
        let (value, rest) ← declarationCharacters quote rest
        some (current :: value, rest)
      else none

def parseDeclarationValue (input : Text) : Option (Text × Text) :=
  match input with
  | [] => none
  | quote :: input =>
      if quote = '\'' ∨ quote = '"' then declarationCharacters quote input else none

/-- The equals sign between a name and a value. -/
def parseEquals (input : Text) : Option Text :=
  match skipWhitespace input with
  | '=' :: input => some (skipWhitespace input)
  | _ => none

/-! ## The XML declaration -/

/-- The loop over the attributes of the declaration. -/
def declarationAttributes : Nat → Text → List S3XMLAttribute → Option (List S3XMLAttribute × Text)
  | 0, _, _ => none
  | fuel + 1, input, attributes =>
      let input := skipWhitespace input
      if "?>".toList.isPrefixOf input then some (attributes, input.drop 2)
      else do
        let (name, input) ← parseQualifiedName input
        if !name.namePrefix.isEmpty then none
        let input ← parseEquals input
        let (value, input) ← parseDeclarationValue input
        if !"?>".toList.isPrefixOf input && !(input.head?.any isXMLWhitespace) then none
        declarationAttributes fuel input (attributes ++ [⟨name, value⟩])

/-- Version 1.0, then encoding UTF-8 if any, then standalone if any, and nothing else. -/
def declarationIsValid (attributes : List S3XMLAttribute) : Bool :=
  match attributes with
  | [] => false
  | version :: rest =>
      if version.name.localName ≠ "version".toList ∨ version.value ≠ "1.0".toList then false
      else
        let afterEncoding : Option (List S3XMLAttribute) :=
          match rest with
          | encoding :: others =>
              if encoding.name.localName = "encoding".toList then
                if lower encoding.value = "utf-8".toList then some others else none
              else some rest
          | [] => some []
        match afterEncoding with
        | none => false
        | some [] => true
        | some (standalone :: others) =>
            standalone.name.localName = "standalone".toList &&
              (standalone.value = "yes".toList || standalone.value = "no".toList) &&
              others.isEmpty

def parseXMLDeclaration (input : Text) : Option Text :=
  let input := input.drop "<?xml".toList.length
  if !(input.head?.any isXMLWhitespace) then none
  else do
    let (attributes, input) ← declarationAttributes (input.length + 1) input []
    if declarationIsValid attributes then some input else none

/-! ## Namespaces -/

/-- The prefix an attribute declares. -/
def declaredPrefix? (name : S3XMLQualifiedName) : Option Text :=
  if name.namePrefix.isEmpty ∧ name.localName = "xmlns".toList then some []
  else if name.namePrefix = "xmlns".toList then some name.localName
  else none

def applyNamespaceDeclarations :
    List S3XMLAttribute → List S3XMLNamespaceBinding → Option (List S3XMLNamespaceBinding)
  | [], namespaces => some namespaces
  | declaration :: rest, namespaces =>
      match declaredPrefix? declaration.name with
      | none => applyNamespaceDeclarations rest namespaces
      | some declared =>
          if declared = "xmlns".toList ∨ declaration.value = xmlnsNamespace then none
          else if declared = "xml".toList then
            if declaration.value ≠ xmlNamespace then none
            else applyNamespaceDeclarations rest (⟨declared, declaration.value⟩ :: namespaces)
          else if declaration.value = xmlNamespace ∨
              (declared ≠ [] ∧ declaration.value = []) then none
          else applyNamespaceDeclarations rest (⟨declared, declaration.value⟩ :: namespaces)

def resolveNamespace (namespaces : List S3XMLNamespaceBinding) (name : S3XMLQualifiedName)
    (nameType : S3XMLNameType) : Option Text :=
  if name.namePrefix = "xmlns".toList then none
  else if name.namePrefix.isEmpty ∧ nameType = .attributeName then some []
  else
    match namespaces.find? fun binding => binding.boundPrefix == name.namePrefix with
    | some binding => some binding.uri
    | none => if name.namePrefix.isEmpty then some [] else none

/-- Every attribute that declares nothing resolves, to distinct expanded names. -/
def validateAttributes (namespaces : List S3XMLNamespaceBinding) :
    List S3XMLAttribute → List (Text × Text) → Bool
  | [], _ => true
  | current :: rest, expandedNames =>
      if (declaredPrefix? current.name).isSome then
        validateAttributes namespaces rest expandedNames
      else
        match resolveNamespace namespaces current.name .attributeName with
        | none => false
        | some namespaceUri =>
            if expandedNames.contains (namespaceUri, current.name.localName) then false
            else
              validateAttributes namespaces rest
                (expandedNames ++ [(namespaceUri, current.name.localName)])

/-! ## Tags -/

/-- The loop over the attributes of a start tag: the attributes, whether the
tag closes its element, and what is left. -/
def tagAttributes : Nat → Text → List S3XMLAttribute → Option (List S3XMLAttribute × Bool × Text)
  | 0, _, _ => none
  | fuel + 1, input, attributes =>
      match input with
      | [] => none
      | '>' :: rest => some (attributes, false, rest)
      | current :: rest =>
          if current = '/' ∧ rest.head? = some '>' then some (attributes, true, rest.drop 1)
          else if !isXMLWhitespace current then none
          else
            let input := skipWhitespace input
            match input with
            | [] => tagAttributes fuel input attributes
            | next :: _ =>
                if next = '>' ∨ next = '/' then tagAttributes fuel input attributes
                else do
                  let (name, input) ← parseQualifiedName input
                  if attributes.any (·.name == name) then none
                  let input ← parseEquals input
                  let (value, input) ← parseAttributeValue utf8Proc input
                  tagAttributes fuel input (attributes ++ [⟨name, value⟩])

def closeElement (reader : S3XMLReader) : Option S3XMLReader :=
  match reader.elements with
  | [] => none
  | frame :: elements =>
      let namespaces := reader.namespaces.drop (reader.namespaces.length - frame.namespaceCount)
      let node : S3XMLNode :=
        .mk frame.name.localName frame.namespaceUri frame.text frame.children
      match elements with
      | [] => some { reader with elements := [], namespaces, root := node, rootClosed := true }
      | parent :: outer =>
          some { reader with
            namespaces
            elements := { parent with children := parent.children ++ [node] } :: outer }

def parseStartElement (reader : S3XMLReader) : Option S3XMLReader :=
  if reader.rootClosed || maxNestingDepth ≤ reader.elements.length then none
  else do
    let (name, input) ← parseQualifiedName (reader.input.drop 1)
    if name.namePrefix = "xmlns".toList then none
    let (attributes, selfClosing, input) ← tagAttributes utf8Proc (input.length + 1) input []
    let namespaces ← applyNamespaceDeclarations attributes reader.namespaces
    let namespaceUri ← resolveNamespace namespaces name .elementName
    if !validateAttributes namespaces attributes [] then none
    if reader.elements.isEmpty && reader.rootSeen then none
    let reader := { reader with
      input
      namespaces
      rootSeen := true
      elements :=
        { name, namespaceUri, text := [], namespaceCount := reader.namespaces.length,
          children := [] } :: reader.elements }
    if selfClosing then closeElement reader else some reader

def parseEndElement (reader : S3XMLReader) : Option S3XMLReader :=
  match reader.elements with
  | [] => none
  | frame :: _ => do
      let (name, input) ← parseQualifiedName (reader.input.drop 2)
      match skipWhitespace input with
      | '>' :: input =>
          if frame.name ≠ name then none else closeElement { reader with input }
      | _ => none

/-! ## Comments, character data and text -/

/-- Append to the text of the innermost element. -/
def appendText (reader : S3XMLReader) (text : Text) : S3XMLReader :=
  match reader.elements with
  | [] => reader
  | frame :: outer => { reader with elements := { frame with text := frame.text ++ text } :: outer }

def parseComment (reader : S3XMLReader) : Option S3XMLReader :=
  let content := reader.input.drop "<!--".toList.length
  match find "-->".toList content with
  | none => none
  | some commentEnd =>
      if find "--".toList content = some commentEnd then
        some { reader with input := content.drop (commentEnd + 3) }
      else none

def parseCDATA (reader : S3XMLReader) : Option S3XMLReader :=
  if reader.elements.isEmpty then none
  else
    let content := reader.input.drop "<![CDATA[".toList.length
    match find "]]>".toList content with
    | none => none
    | some contentEnd =>
        some { appendText reader (content.take contentEnd) with
          input := content.drop (contentEnd + 3) }

/-- The loop of `ParseText`, up to the position with `afterText` bytes left. -/
def textCharacters (afterText : Nat) : Nat → Text → Option (Text × Text)
  | 0, _ => none
  | fuel + 1, input =>
      if input.length ≤ afterText then some ([], input)
      else
        match input with
        | [] => some ([], [])
        | current :: rest =>
            if current = '&' then do
              let (decoded, rest) ← parseReference utf8Proc input
              if rest.length < afterText then none
              let (text, rest) ← textCharacters afterText fuel rest
              some (decoded ++ text, rest)
            else do
              let (text, rest) ← textCharacters afterText fuel rest
              some (current :: text, rest)

def parseText (reader : S3XMLReader) : Option S3XMLReader :=
  let text := reader.input.takeWhile (· ≠ '<')
  let afterText := reader.input.dropWhile (· ≠ '<')
  if reader.elements.isEmpty then
    if text.all isXMLWhitespace then some { reader with input := afterText } else none
  else if (find "]]>".toList reader.input).any (· < text.length) then none
  else do
    let (decoded, rest) ←
      textCharacters utf8Proc afterText.length (reader.input.length + 1) reader.input
    some { appendText reader decoded with input := rest }

/-! ## Documents -/

/-- The body of the loop of `ParseDocument`. -/
def parseMarkup (reader : S3XMLReader) : Option S3XMLReader :=
  if reader.input.head? ≠ some '<' then parseText utf8Proc reader
  else if "<!--".toList.isPrefixOf reader.input then parseComment reader
  else if "<![CDATA[".toList.isPrefixOf reader.input then parseCDATA reader
  else if "</".toList.isPrefixOf reader.input then parseEndElement reader
  else if "<!".toList.isPrefixOf reader.input || "<?".toList.isPrefixOf reader.input then none
  else parseStartElement utf8Proc reader

def parseMarkups : Nat → S3XMLReader → Option S3XMLReader
  | 0, _ => none
  | fuel + 1, reader =>
      if reader.input.isEmpty then some reader
      else do
        let reader ← parseMarkup utf8Proc reader
        parseMarkups fuel reader

/-- What precedes the root: the byte order mark and the declaration. -/
def parseProlog (input : Text) : Option Text :=
  let input := if utf8Bom.isPrefixOf input then input.drop 3 else input
  if "<?xml".toList.isPrefixOf input then parseXMLDeclaration input else some input

/-- `ParseDocument`: the root of an accepted document. -/
def parseDocument (input : Text) : Option S3XMLNode :=
  if !validateCharacters utf8Proc input then none
  else do
    let input ← parseProlog input
    let reader ← parseMarkups utf8Proc (input.length + 1) { input }
    if !reader.rootSeen || !reader.rootClosed || !reader.elements.isEmpty then none
    some reader.root

end Httpfs.S3.Xml
