import Httpfs.S3.Xml.Reader
import Httpfs.Text.Utf8

/-!
# The grammar of the documents

Documents as syntax trees that keep every byte of their text, what makes one
well formed, and the element tree it stands for.  Nothing here refers to how
the reader scans its input.
-/

namespace Httpfs.S3.Xml

open Text

/-! ## Names -/

def Blank (text : Text) : Prop :=
  ∀ byte ∈ text, isXMLWhitespace byte = true

/-- A name without a colon. -/
def IsName : Text → Prop
  | [] => False
  | first :: rest => isNameStart first = true ∧ ∀ byte ∈ rest, isNameCharacter byte = true

namespace S3XMLQualifiedName

def render (name : S3XMLQualifiedName) : Text :=
  if name.namePrefix.isEmpty then name.localName
  else name.namePrefix ++ ':' :: name.localName

def IsValid (name : S3XMLQualifiedName) : Prop :=
  (name.namePrefix = [] ∨ IsName name.namePrefix) ∧ IsName name.localName

end S3XMLQualifiedName

/-! ## References -/

inductive PredefinedEntity
  | lt
  | gt
  | amp
  | apos
  | quot
  deriving DecidableEq, Repr

namespace PredefinedEntity

def name : PredefinedEntity → Text
  | lt => "lt".toList
  | gt => "gt".toList
  | amp => "amp".toList
  | apos => "apos".toList
  | quot => "quot".toList

def char : PredefinedEntity → Char
  | lt => '<'
  | gt => '>'
  | amp => '&'
  | apos => '\''
  | quot => '"'

end PredefinedEntity

/-- The number a string of digits denotes. -/
def digitsValue (base : Nat) (digits : Text) : Nat :=
  digits.foldl (fun value digit => value * base + (digitValue base digit).getD 0) 0

inductive Reference
  | predefined (entity : PredefinedEntity)
  | decimal (digits : Text)
  | hexadecimal (digits : Text)
  deriving DecidableEq, Repr

namespace Reference

def body : Reference → Text
  | predefined entity => entity.name
  | decimal digits => '#' :: digits
  | hexadecimal digits => '#' :: 'x' :: digits

def render (reference : Reference) : Text :=
  '&' :: (reference.body ++ [';'])

/-- The digits are digits of the base and denote an XML character. -/
def DigitsWellFormed (base : Nat) (digits : Text) : Prop :=
  digits ≠ [] ∧ (∀ digit ∈ digits, (digitValue base digit).isSome = true) ∧
    isXMLCharacter (digitsValue base digits) = true

def WellFormed : Reference → Prop
  | predefined _ => True
  | decimal digits => DigitsWellFormed 10 digits
  | hexadecimal digits => DigitsWellFormed 16 digits

/-- The bytes the reference stands for. -/
def decoded : Reference → Text
  | predefined entity => [entity.char]
  | decimal digits => utf8Bytes (Char.ofNat (digitsValue 10 digits))
  | hexadecimal digits => utf8Bytes (Char.ofNat (digitsValue 16 digits))

end Reference

/-! ## Attributes -/

inductive ValuePiece
  | byte (value : Char)
  | reference (ref : Reference)
  deriving DecidableEq, Repr

namespace ValuePiece

def render : ValuePiece → Text
  | byte value => [value]
  | reference ref => ref.render

/-- The value of a piece; a white space byte counts as a space. -/
def value : ValuePiece → Text
  | byte value => [if isXMLWhitespace value then ' ' else value]
  | reference ref => ref.decoded

def WellFormed (quote : Char) : ValuePiece → Prop
  | byte value => value ≠ quote ∧ value ≠ '<' ∧ value ≠ '&'
  | reference ref => ref.WellFormed

end ValuePiece

structure AttributeSyntax where
  blank : Text
  name : S3XMLQualifiedName
  beforeEquals : Text
  afterEquals : Text
  quote : Char
  pieces : List ValuePiece

namespace AttributeSyntax

def render (attr : AttributeSyntax) : Text :=
  attr.blank ++ attr.name.render ++ attr.beforeEquals ++
    '=' :: (attr.afterEquals ++
      attr.quote :: (attr.pieces.flatMap ValuePiece.render ++ [attr.quote]))

structure WellFormed (attr : AttributeSyntax) : Prop where
  separated : attr.blank ≠ []
  blank : Blank attr.blank
  name : attr.name.IsValid
  before : Blank attr.beforeEquals
  after : Blank attr.afterEquals
  quote : attr.quote = '\'' ∨ attr.quote = '"'
  pieces : ∀ piece ∈ attr.pieces, piece.WellFormed attr.quote

def meaning (attr : AttributeSyntax) : S3XMLAttribute :=
  ⟨attr.name, attr.pieces.flatMap ValuePiece.value⟩

end AttributeSyntax

/-- What stands between `<` and the end of a start tag. -/
structure TagSyntax where
  name : S3XMLQualifiedName
  attributes : List AttributeSyntax
  trailing : Text

namespace TagSyntax

def render (tag : TagSyntax) : Text :=
  tag.name.render ++ tag.attributes.flatMap AttributeSyntax.render ++ tag.trailing

def meanings (tag : TagSyntax) : List S3XMLAttribute :=
  tag.attributes.map AttributeSyntax.meaning

/-- The qualified names of the attributes differ. -/
structure WellFormed (tag : TagSyntax) : Prop where
  name : tag.name.IsValid
  attributes : ∀ attr ∈ tag.attributes, attr.WellFormed
  distinct : (tag.attributes.map AttributeSyntax.name).Nodup
  trailing : Blank tag.trailing

end TagSyntax

/-! ## Namespaces -/

/-- The bindings in force, the innermost first. -/
abbrev Scope := List S3XMLNamespaceBinding

/-- The URI a prefix is bound to. -/
def Scope.lookup (scope : Scope) (bound : Text) : Option Text :=
  (scope.find? fun binding => binding.boundPrefix == bound).map (·.uri)

/-- The bindings a list of attributes declares, in order. -/
def declarations (attributes : List S3XMLAttribute) : List S3XMLNamespaceBinding :=
  attributes.filterMap fun attr =>
    (declaredPrefix? attr.name).map fun declared => ⟨declared, attr.value⟩

/-- The namespace rules for a declaration: `xmlns` and its URI are not
declared, `xml` goes with its own URI only, and no prefix is undeclared. -/
structure DeclarationAllowed (binding : S3XMLNamespaceBinding) : Prop where
  noXmlns : binding.boundPrefix ≠ "xmlns".toList
  noXmlnsUri : binding.uri ≠ xmlnsNamespace
  xml : binding.boundPrefix = "xml".toList ↔ binding.uri = xmlNamespace
  noUndeclaring : binding.boundPrefix ≠ [] → binding.uri ≠ []

/-- The namespace of an element name. -/
def elementNamespace (scope : Scope) (name : S3XMLQualifiedName) : Option Text :=
  if name.namePrefix = "xmlns".toList then none
  else if name.namePrefix = [] then some ((scope.lookup []).getD [])
  else scope.lookup name.namePrefix

/-- The namespace of an attribute name; without a prefix it has none. -/
def attributeNamespace (scope : Scope) (name : S3XMLQualifiedName) : Option Text :=
  if name.namePrefix = "xmlns".toList then none
  else if name.namePrefix = [] then some []
  else scope.lookup name.namePrefix

/-- The attributes that declare no namespace. -/
def plainAttributes (attributes : List S3XMLAttribute) : List S3XMLAttribute :=
  attributes.filter fun attr => (declaredPrefix? attr.name).isNone

/-- The scope inside a start tag. -/
def TagSyntax.scope (tag : TagSyntax) (outer : Scope) : Scope :=
  (declarations tag.meanings).reverse ++ outer

/-- The names of a start tag are in scope and its attributes have distinct
expanded names; `uri` is the namespace of the element. -/
structure TagResolves (outer : Scope) (tag : TagSyntax) (uri : Text) : Prop where
  allowed : ∀ binding ∈ declarations tag.meanings, DeclarationAllowed binding
  element : elementNamespace (tag.scope outer) tag.name = some uri
  attributes : ∀ attr ∈ plainAttributes tag.meanings,
    (attributeNamespace (tag.scope outer) attr.name).isSome = true
  distinct : ((plainAttributes tag.meanings).map fun attr =>
    (attributeNamespace (tag.scope outer) attr.name, attr.name.localName)).Nodup

/-! ## Content -/

/-- What stands between a start tag and an end tag. -/
inductive Content
  | nil
  | byte (value : Char) (rest : Content)
  | reference (ref : Reference) (rest : Content)
  | cdata (text : Text) (rest : Content)
  | comment (text : Text) (rest : Content)
  | empty (tag : TagSyntax) (rest : Content)
  | element (tag : TagSyntax) (inner : Content) (closing : Text) (rest : Content)

namespace Content

def render : Content → Text
  | nil => []
  | byte value rest => value :: rest.render
  | reference ref rest => ref.render ++ rest.render
  | cdata text rest => "<![CDATA[".toList ++ text ++ "]]>".toList ++ rest.render
  | comment text rest => "<!--".toList ++ text ++ "-->".toList ++ rest.render
  | empty tag rest => '<' :: (tag.render ++ "/>".toList ++ rest.render)
  | element tag inner closing rest =>
      '<' :: (tag.render ++ ">".toList ++ inner.render ++
        "</".toList ++ tag.name.render ++ closing ++ ">".toList ++ rest.render)

@[simp]
theorem render_nil : nil.render = [] :=
  rfl

@[simp]
theorem render_byte (value : Char) (rest : Content) :
    (byte value rest).render = value :: rest.render :=
  rfl

@[simp]
theorem render_reference (ref : Reference) (rest : Content) :
    (reference ref rest).render = ref.render ++ rest.render :=
  rfl

@[simp]
theorem render_cdata (text : Text) (rest : Content) :
    (cdata text rest).render =
      "<![CDATA[".toList ++ (text ++ ("]]>".toList ++ rest.render)) := by
  rw [← List.append_assoc, ← List.append_assoc]
  rfl

@[simp]
theorem render_comment (text : Text) (rest : Content) :
    (comment text rest).render = "<!--".toList ++ (text ++ ("-->".toList ++ rest.render)) := by
  rw [← List.append_assoc, ← List.append_assoc]
  rfl

@[simp]
theorem render_empty (tag : TagSyntax) (rest : Content) :
    (empty tag rest).render = '<' :: (tag.render ++ ("/>".toList ++ rest.render)) := by
  rw [← List.append_assoc]
  rfl

@[simp]
theorem render_element (tag : TagSyntax) (inner : Content) (closing : Text) (rest : Content) :
    (element tag inner closing rest).render =
      '<' :: (tag.render ++ (">".toList ++ (inner.render ++ ("</".toList ++
        (tag.name.render ++ (closing ++ '>' :: rest.render)))))) := by
  have split : '>' :: rest.render = ">".toList ++ rest.render := rfl
  rw [split]
  simp only [← List.append_assoc]
  rfl

/-- The text before the first markup. -/
def leadingText : Content → Text
  | byte value rest => value :: rest.leadingText
  | reference ref rest => ref.render ++ rest.leadingText
  | _ => []

/-- The number of elements on the deepest path. -/
def depth : Content → Nat
  | nil => 0
  | byte _ rest | reference _ rest | cdata _ rest | comment _ rest => rest.depth
  | empty _ rest => max 1 rest.depth
  | element _ inner _ rest => max (inner.depth + 1) rest.depth

def WellFormed : Content → Prop
  | nil => True
  | byte value rest =>
      value ≠ '<' ∧ value ≠ '&' ∧ ¬ "]]>".toList <+: value :: rest.leadingText ∧ rest.WellFormed
  | reference ref rest => ref.WellFormed ∧ rest.WellFormed
  | cdata text rest => ¬ "]]>".toList <:+: text ∧ rest.WellFormed
  | comment text rest => ¬ "--".toList <:+: text ++ "-".toList ∧ rest.WellFormed
  | empty tag rest => tag.WellFormed ∧ rest.WellFormed
  | element tag inner closing rest =>
      tag.WellFormed ∧ inner.WellFormed ∧ Blank closing ∧ rest.WellFormed

/-- The text and the child elements content stands for. -/
inductive Denotes : Scope → Content → Text → List S3XMLNode → Prop
  | nil {scope : Scope} : Denotes scope nil [] []
  | byte {scope : Scope} {value : Char} {rest : Content} {text : Text}
      {children : List S3XMLNode} (later : Denotes scope rest text children) :
      Denotes scope (byte value rest) (value :: text) children
  | reference {scope : Scope} {ref : Reference} {rest : Content} {text : Text}
      {children : List S3XMLNode} (later : Denotes scope rest text children) :
      Denotes scope (reference ref rest) (ref.decoded ++ text) children
  | cdata {scope : Scope} {data : Text} {rest : Content} {text : Text}
      {children : List S3XMLNode} (later : Denotes scope rest text children) :
      Denotes scope (cdata data rest) (data ++ text) children
  | comment {scope : Scope} {remark : Text} {rest : Content} {text : Text}
      {children : List S3XMLNode} (later : Denotes scope rest text children) :
      Denotes scope (comment remark rest) text children
  | empty {scope : Scope} {tag : TagSyntax} {uri : Text} {rest : Content} {text : Text}
      {children : List S3XMLNode} (resolves : TagResolves scope tag uri)
      (later : Denotes scope rest text children) :
      Denotes scope (empty tag rest) text (.mk tag.name.localName uri [] [] :: children)
  | element {scope : Scope} {tag : TagSyntax} {uri : Text} {inner : Content} {closing : Text}
      {innerText : Text} {innerChildren : List S3XMLNode} {rest : Content} {text : Text}
      {children : List S3XMLNode} (resolves : TagResolves scope tag uri)
      (inside : Denotes (tag.scope scope) inner innerText innerChildren)
      (later : Denotes scope rest text children) :
      Denotes scope (element tag inner closing rest) text
        (.mk tag.name.localName uri innerText innerChildren :: children)

end Content

/-! ## Documents -/

/-- The root element. -/
inductive RootSyntax
  | empty (tag : TagSyntax)
  | element (tag : TagSyntax) (inner : Content) (closing : Text)

def RootSyntax.content : RootSyntax → Content
  | empty tag => .empty tag .nil
  | element tag inner closing => .element tag inner closing .nil

/-- What may stand around the root. -/
inductive Misc
  | blank (value : Char)
  | comment (text : Text)
  deriving DecidableEq, Repr

/-- Misc as content, for its text and its rules. -/
def Misc.content (misc : Misc) (rest : Content) : Content :=
  match misc with
  | blank value => .byte value rest
  | comment text => .comment text rest

def miscContent (miscs : List Misc) : Content :=
  miscs.foldr Misc.content .nil

structure DeclarationItem where
  blank : Text
  name : Text
  beforeEquals : Text
  afterEquals : Text
  quote : Char
  value : Text
  deriving DecidableEq, Repr

namespace DeclarationItem

def render (item : DeclarationItem) : Text :=
  item.blank ++ item.name ++ item.beforeEquals ++
    '=' :: (item.afterEquals ++ item.quote :: (item.value ++ [item.quote]))

structure WellFormed (item : DeclarationItem) (name : Text) (allowed : Text → Prop) : Prop where
  separated : item.blank ≠ []
  blank : Blank item.blank
  name : item.name = name
  before : Blank item.beforeEquals
  after : Blank item.afterEquals
  quote : item.quote = '\'' ∨ item.quote = '"'
  value : allowed item.value

end DeclarationItem

/-- The XML declaration. -/
structure DeclarationSyntax where
  version : DeclarationItem
  encoding : Option DeclarationItem
  standalone : Option DeclarationItem
  trailing : Text

namespace DeclarationSyntax

def items (declaration : DeclarationSyntax) : List DeclarationItem :=
  declaration.version :: (declaration.encoding.toList ++ declaration.standalone.toList)

def render (declaration : DeclarationSyntax) : Text :=
  "<?xml".toList ++ declaration.items.flatMap DeclarationItem.render ++ declaration.trailing ++
    "?>".toList

theorem render_eq (declaration : DeclarationSyntax) :
    declaration.render = "<?xml".toList ++ declaration.items.flatMap DeclarationItem.render ++
      declaration.trailing ++ "?>".toList :=
  rfl

structure WellFormed (declaration : DeclarationSyntax) : Prop where
  version : declaration.version.WellFormed "version".toList (· = "1.0".toList)
  encoding : ∀ item ∈ declaration.encoding,
    item.WellFormed "encoding".toList (lower · = "utf-8".toList)
  standalone : ∀ item ∈ declaration.standalone,
    item.WellFormed "standalone".toList fun value => value = "yes".toList ∨ value = "no".toList
  trailing : Blank declaration.trailing

end DeclarationSyntax

structure Document where
  bom : Bool
  declaration : Option DeclarationSyntax
  before : List Misc
  root : RootSyntax
  after : List Misc

/-- The scope outside of the root. -/
def rootScope : Scope :=
  [⟨"xml".toList, xmlNamespace⟩]

namespace Document

/-- What precedes the root and the misc around it. -/
def prolog (document : Document) : Text :=
  (if document.bom then utf8Bom else []) ++ (document.declaration.map (·.render)).getD []

def render (document : Document) : Text :=
  document.prolog ++ (miscContent document.before).render ++ document.root.content.render ++
    (miscContent document.after).render

structure MiscWellFormed (miscs : List Misc) : Prop where
  blanks : ∀ value, Misc.blank value ∈ miscs → isXMLWhitespace value = true
  content : (miscContent miscs).WellFormed

structure WellFormed (document : Document) : Prop where
  declaration : ∀ declaration ∈ document.declaration, declaration.WellFormed
  before : MiscWellFormed document.before
  root : document.root.content.WellFormed
  depth : document.root.content.depth ≤ maxNestingDepth
  after : MiscWellFormed document.after

/-- The document stands for the element tree. -/
def Denotes (document : Document) (node : S3XMLNode) : Prop :=
  document.root.content.Denotes rootScope [] [node]

end Document

end Httpfs.S3.Xml
