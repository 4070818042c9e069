import Mathlib.Logic.Equiv.Basic
import Httpfs.S3.Xml.Document

/-!
# Renaming prefixes

A prefix is a local name for a namespace: a renaming of the prefixes of a
document, the same for every declaration and use, leaves its tree unchanged.
-/

namespace Httpfs.S3.Xml

open Text

/-- A renaming keeps prefixes apart and keeps the ones with a fixed meaning. -/
structure PrefixRenaming where
  rename : Text → Text
  injective : Function.Injective rename
  empty : rename [] = []
  xml : rename "xml".toList = "xml".toList
  xmlns : rename "xmlns".toList = "xmlns".toList
  isName : ∀ {name : Text}, IsName name → IsName (rename name)

namespace PrefixRenaming

variable (renamer : PrefixRenaming)

/-! ## Names and scopes -/

theorem rename_eq_xmlns_iff {name : Text} :
    renamer.rename name = "xmlns".toList ↔ name = "xmlns".toList := by
  constructor
  · intro same
    exact renamer.injective (same.trans renamer.xmlns.symm)
  · rintro rfl
    exact renamer.xmlns

theorem rename_eq_xml_iff {name : Text} :
    renamer.rename name = "xml".toList ↔ name = "xml".toList := by
  constructor
  · intro same
    exact renamer.injective (same.trans renamer.xml.symm)
  · rintro rfl
    exact renamer.xml

theorem rename_eq_nil_iff {name : Text} : renamer.rename name = [] ↔ name = [] := by
  constructor
  · intro same
    exact renamer.injective (same.trans renamer.empty.symm)
  · rintro rfl
    exact renamer.empty

def elementName (name : S3XMLQualifiedName) : S3XMLQualifiedName :=
  { name with namePrefix := renamer.rename name.namePrefix }

/-- A declaration renames the prefix it declares. -/
def attributeName (name : S3XMLQualifiedName) : S3XMLQualifiedName :=
  if name.namePrefix = "xmlns".toList then
    { name with localName := renamer.rename name.localName }
  else { name with namePrefix := renamer.rename name.namePrefix }

def meaning (attr : S3XMLAttribute) : S3XMLAttribute :=
  { attr with name := renamer.attributeName attr.name }

def binding (bound : S3XMLNamespaceBinding) : S3XMLNamespaceBinding :=
  { bound with boundPrefix := renamer.rename bound.boundPrefix }

def scope (outer : Scope) : Scope :=
  outer.map renamer.binding

theorem elementName_isValid {name : S3XMLQualifiedName} (valid : name.IsValid) :
    (renamer.elementName name).IsValid := by
  obtain ⟨unprefixed | isPrefix, isLocal⟩ := valid
  · exact ⟨.inl (renamer.rename_eq_nil_iff.mpr unprefixed), isLocal⟩
  · exact ⟨.inr (renamer.isName isPrefix), isLocal⟩

theorem attributeName_isValid {name : S3XMLQualifiedName} (valid : name.IsValid) :
    (renamer.attributeName name).IsValid := by
  unfold attributeName
  split
  · exact ⟨valid.1, renamer.isName valid.2⟩
  · exact renamer.elementName_isValid valid

theorem attributeName_injective : Function.Injective renamer.attributeName := by
  intro left right same
  obtain ⟨leftPrefix, leftLocal⟩ := left
  obtain ⟨rightPrefix, rightLocal⟩ := right
  unfold attributeName at same
  dsimp only at same
  split at same <;> split at same <;> rename_i leftIs rightIs <;>
    obtain ⟨prefixEq, localEq⟩ := S3XMLQualifiedName.mk.inj same
  · rw [prefixEq, renamer.injective localEq]
  · exact absurd (renamer.rename_eq_xmlns_iff.mp (prefixEq.symm.trans leftIs)) rightIs
  · exact absurd (renamer.rename_eq_xmlns_iff.mp (prefixEq.trans rightIs)) leftIs
  · rw [renamer.injective prefixEq, localEq]

theorem declaredPrefix?_attributeName (name : S3XMLQualifiedName) :
    declaredPrefix? (renamer.attributeName name) =
      (declaredPrefix? name).map renamer.rename := by
  obtain ⟨namePrefix, localName⟩ := name
  unfold attributeName declaredPrefix?
  by_cases isXmlns : namePrefix = "xmlns".toList
  · subst isXmlns
    simp
  · have renamed := mt renamer.rename_eq_xmlns_iff.mp isXmlns
    by_cases unprefixed : namePrefix = []
    · subst unprefixed
      by_cases isDefault : localName = "xmlns".toList
      · simp [isDefault, renamer.empty]
      · simp [renamer.empty]
    · have prefixed := mt renamer.rename_eq_nil_iff.mp unprefixed
      simp only [if_neg isXmlns, List.isEmpty_iff, unprefixed, prefixed, false_and, if_false,
        if_neg renamed]
      rfl

theorem declarations_map (attributes : List S3XMLAttribute) :
    declarations (attributes.map renamer.meaning) =
      renamer.scope (declarations attributes) := by
  unfold declarations scope
  rw [List.filterMap_map, List.map_filterMap]
  apply List.filterMap_congr
  intro attr _
  rw [Function.comp_apply, meaning, renamer.declaredPrefix?_attributeName]
  cases declaredPrefix? attr.name <;> rfl

theorem plainAttributes_map (attributes : List S3XMLAttribute) :
    plainAttributes (attributes.map renamer.meaning) =
      (plainAttributes attributes).map renamer.meaning := by
  unfold plainAttributes
  rw [List.filter_map]
  congr 1
  apply List.filter_congr
  intro attr _
  rw [Function.comp_apply, meaning, renamer.declaredPrefix?_attributeName, Option.isNone_map]

theorem lookup_scope (outer : Scope) (bound : Text) :
    (renamer.scope outer).lookup (renamer.rename bound) = outer.lookup bound := by
  induction outer with
  | nil => rfl
  | cons first outer inductionHypothesis =>
      unfold Scope.lookup scope at inductionHypothesis ⊢
      rw [List.map_cons, List.find?_cons, List.find?_cons]
      have same : ((renamer.binding first).boundPrefix == renamer.rename bound) =
          (first.boundPrefix == bound) := by
        rw [Bool.eq_iff_iff, beq_iff_eq, beq_iff_eq]
        exact renamer.injective.eq_iff
      rw [same]
      cases first.boundPrefix == bound
      · exact inductionHypothesis
      · rfl

theorem declarationAllowed {bound : S3XMLNamespaceBinding} (allowed : DeclarationAllowed bound) :
    DeclarationAllowed (renamer.binding bound) := by
  obtain ⟨noXmlns, noXmlnsUri, xml, noUndeclaring⟩ := allowed
  constructor
  · exact mt renamer.rename_eq_xmlns_iff.mp noXmlns
  · exact noXmlnsUri
  · exact renamer.rename_eq_xml_iff.trans xml
  · exact fun prefixed => noUndeclaring (mt renamer.rename_eq_nil_iff.mpr prefixed)

theorem elementNamespace_eq (outer : Scope) (name : S3XMLQualifiedName) :
    elementNamespace (renamer.scope outer) (renamer.elementName name) =
      elementNamespace outer name := by
  unfold elementNamespace elementName
  have default := renamer.lookup_scope outer []
  rw [renamer.empty] at default
  simp only [renamer.rename_eq_xmlns_iff, renamer.rename_eq_nil_iff, default,
    renamer.lookup_scope]

theorem attributeNamespace_eq (outer : Scope) (name : S3XMLQualifiedName) :
    attributeNamespace (renamer.scope outer) (renamer.attributeName name) =
      attributeNamespace outer name := by
  unfold attributeNamespace attributeName
  by_cases isXmlns : name.namePrefix = "xmlns".toList
  · rw [if_pos isXmlns, if_pos isXmlns]
    exact (if_pos isXmlns).symm
  · simp only [if_neg isXmlns, renamer.rename_eq_xmlns_iff, renamer.rename_eq_nil_iff,
      renamer.lookup_scope]

/-- The local name of an attribute that declares nothing stays. -/
theorem attributeName_localName {name : S3XMLQualifiedName}
    (declares : declaredPrefix? name = none) :
    (renamer.attributeName name).localName = name.localName := by
  unfold attributeName
  rw [if_neg]
  rintro isXmlns
  unfold declaredPrefix? at declares
  rw [if_neg (by simp [isXmlns]), if_pos isXmlns] at declares
  contradiction

/-! ## Syntax trees -/

def attributeSyntax (attr : AttributeSyntax) : AttributeSyntax :=
  { attr with name := renamer.attributeName attr.name }

def tag (original : TagSyntax) : TagSyntax :=
  { original with
    name := renamer.elementName original.name
    attributes := original.attributes.map renamer.attributeSyntax }

def content : Content → Content
  | .nil => .nil
  | .byte value rest => .byte value (content rest)
  | .reference ref rest => .reference ref (content rest)
  | .cdata text rest => .cdata text (content rest)
  | .comment text rest => .comment text (content rest)
  | .empty original rest => .empty (renamer.tag original) (content rest)
  | .element original inner closing rest =>
      .element (renamer.tag original) (content inner) closing (content rest)

def root : RootSyntax → RootSyntax
  | .empty original => .empty (renamer.tag original)
  | .element original inner closing =>
      .element (renamer.tag original) (renamer.content inner) closing

def document (original : Document) : Document :=
  { original with root := renamer.root original.root }

theorem meanings_tag (original : TagSyntax) :
    (renamer.tag original).meanings = original.meanings.map renamer.meaning := by
  simp only [TagSyntax.meanings, tag, List.map_map]
  rfl

theorem scope_tag (original : TagSyntax) (outer : Scope) :
    (renamer.tag original).scope (renamer.scope outer) =
      renamer.scope (original.scope outer) := by
  unfold TagSyntax.scope
  rw [renamer.meanings_tag, renamer.declarations_map, scope, scope, scope, List.map_append,
    List.map_reverse]

theorem tag_wellFormed {original : TagSyntax} (wellFormed : original.WellFormed) :
    (renamer.tag original).WellFormed := by
  obtain ⟨name, attributes, distinct, trailing⟩ := wellFormed
  constructor
  · exact renamer.elementName_isValid name
  · intro attr member
    obtain ⟨before, isBefore, rfl⟩ := List.mem_map.mp member
    obtain ⟨separated, blank, attrName, beforeBlank, after, quote, pieces⟩ :=
      attributes before isBefore
    exact ⟨separated, blank, renamer.attributeName_isValid attrName, beforeBlank, after, quote,
      pieces⟩
  · have renamed := distinct.map renamer.attributeName_injective
    simp only [tag, List.map_map] at renamed ⊢
    exact renamed
  · exact trailing

theorem tagResolves {outer : Scope} {original : TagSyntax} {uri : Text}
    (resolves : TagResolves outer original uri) :
    TagResolves (renamer.scope outer) (renamer.tag original) uri := by
  obtain ⟨allowed, element, attributes, distinct⟩ := resolves
  constructor
  · rw [renamer.meanings_tag, renamer.declarations_map]
    intro bound member
    obtain ⟨before, isBefore, rfl⟩ := List.mem_map.mp member
    exact renamer.declarationAllowed (allowed before isBefore)
  · rw [renamer.scope_tag]
    exact (renamer.elementNamespace_eq _ _).trans element
  · rw [renamer.scope_tag, renamer.meanings_tag, renamer.plainAttributes_map]
    intro attr member
    obtain ⟨before, isBefore, rfl⟩ := List.mem_map.mp member
    rw [meaning, renamer.attributeNamespace_eq]
    exact attributes before isBefore
  · rw [renamer.scope_tag, renamer.meanings_tag, renamer.plainAttributes_map, List.map_map]
    convert distinct using 1
    apply List.map_congr_left
    intro attr member
    have plain : declaredPrefix? attr.name = none := by
      simpa [plainAttributes] using (List.mem_filter.mp member).2
    rw [Function.comp_apply, meaning, renamer.attributeNamespace_eq,
      renamer.attributeName_localName plain]

theorem content_denotes {outer : Scope} {original : Content} {text : Text}
    {children : List S3XMLNode} (denotes : original.Denotes outer text children) :
    (renamer.content original).Denotes (renamer.scope outer) text children := by
  induction denotes with
  | nil => exact .nil
  | byte _ inductionHypothesis => exact .byte inductionHypothesis
  | reference _ inductionHypothesis => exact .reference inductionHypothesis
  | cdata _ inductionHypothesis => exact .cdata inductionHypothesis
  | comment _ inductionHypothesis => exact .comment inductionHypothesis
  | empty resolves _ inductionHypothesis =>
      exact .empty (renamer.tagResolves resolves) inductionHypothesis
  | element resolves _ _ innerHypothesis inductionHypothesis =>
      rw [← renamer.scope_tag] at innerHypothesis
      exact .element (renamer.tagResolves resolves) innerHypothesis inductionHypothesis

theorem leadingText_content (original : Content) :
    (renamer.content original).leadingText = original.leadingText := by
  induction original with
  | byte value rest inductionHypothesis =>
      rw [content, Content.leadingText, Content.leadingText, inductionHypothesis]
  | reference ref rest inductionHypothesis =>
      rw [content, Content.leadingText, Content.leadingText, inductionHypothesis]
  | _ => rfl

theorem depth_content (original : Content) :
    (renamer.content original).depth = original.depth := by
  induction original with
  | nil => rfl
  | byte value rest inductionHypothesis => exact inductionHypothesis
  | reference ref rest inductionHypothesis => exact inductionHypothesis
  | cdata text rest inductionHypothesis => exact inductionHypothesis
  | comment text rest inductionHypothesis => exact inductionHypothesis
  | empty original rest inductionHypothesis =>
      exact congrArg (max 1) inductionHypothesis
  | element original inner closing rest innerHypothesis inductionHypothesis =>
      exact congrArg₂ max (congrArg (· + 1) innerHypothesis) inductionHypothesis

theorem content_wellFormed {original : Content} (wellFormed : original.WellFormed) :
    (renamer.content original).WellFormed := by
  induction original with
  | nil => trivial
  | byte value rest inductionHypothesis =>
      obtain ⟨noMarkup, noReference, noEnd, restWellFormed⟩ := wellFormed
      rw [← renamer.leadingText_content] at noEnd
      exact ⟨noMarkup, noReference, noEnd, inductionHypothesis restWellFormed⟩
  | reference ref rest inductionHypothesis =>
      exact ⟨wellFormed.1, inductionHypothesis wellFormed.2⟩
  | cdata text rest inductionHypothesis => exact ⟨wellFormed.1, inductionHypothesis wellFormed.2⟩
  | comment text rest inductionHypothesis =>
      exact ⟨wellFormed.1, inductionHypothesis wellFormed.2⟩
  | empty original rest inductionHypothesis =>
      exact ⟨renamer.tag_wellFormed wellFormed.1, inductionHypothesis wellFormed.2⟩
  | element original inner closing rest innerHypothesis inductionHypothesis =>
      obtain ⟨tagWellFormed, innerWellFormed, isBlank, restWellFormed⟩ := wellFormed
      exact ⟨renamer.tag_wellFormed tagWellFormed, innerHypothesis innerWellFormed, isBlank,
        inductionHypothesis restWellFormed⟩

theorem content_root (original : RootSyntax) :
    (renamer.root original).content = renamer.content original.content := by
  cases original <;> rfl

theorem scope_rootScope : renamer.scope rootScope = rootScope := by
  simp only [scope, rootScope, List.map_cons, List.map_nil, binding, renamer.xml]

theorem document_wellFormed {original : Document} (wellFormed : original.WellFormed) :
    (renamer.document original).WellFormed := by
  obtain ⟨declaration, before, rootWellFormed, depthBound, after⟩ := wellFormed
  constructor
  · exact declaration
  · exact before
  · simp only [document, renamer.content_root]
    exact renamer.content_wellFormed rootWellFormed
  · simp only [document, renamer.content_root, renamer.depth_content]
    exact depthBound
  · exact after

theorem document_denotes {original : Document} {node : S3XMLNode}
    (denotes : original.Denotes node) : (renamer.document original).Denotes node := by
  have renamed := renamer.content_denotes denotes
  rw [renamer.scope_rootScope, ← renamer.content_root] at renamed
  exact renamed

/-! ## Bytes -/

omit renamer in
private theorem ascii_render {name : S3XMLQualifiedName} (valid : name.IsValid) :
    Ascii name.render := by
  obtain ⟨unprefixed | isPrefix, isLocal⟩ := valid
  · rw [S3XMLQualifiedName.render, if_pos (by simp [unprefixed])]
    exact isLocal.ascii
  · rw [S3XMLQualifiedName.render, if_neg (by simpa using isPrefix.ne_nil)]
    intro byte member
    rcases List.mem_append.mp member with first | second
    · exact isPrefix.ascii byte first
    · rcases List.mem_cons.mp second with rfl | later
      · decide
      · exact isLocal.ascii byte later

omit renamer in
/-- Of an attribute only the bytes of its value matter. -/
private theorem xmlText_attribute_iff {attr : AttributeSyntax} (wellFormed : attr.WellFormed)
    (rest : Text) :
    XmlText (attr.render ++ rest) ↔
      XmlText (attr.pieces.flatMap ValuePiece.render) ∧ XmlText rest := by
  have split : attr.render ++ rest = attr.blank ++ (attr.name.render ++ (attr.beforeEquals ++
      ("=".toList ++ (attr.afterEquals ++ ([attr.quote] ++
        (attr.pieces.flatMap ValuePiece.render ++ attr.quote :: rest)))))) := by
    simp [AttributeSyntax.render]
  have quoteAscii : Ascii [attr.quote] := by
    intro byte member
    rw [List.mem_singleton.mp member]
    rcases wellFormed.quote with same | same <;> rw [same] <;> decide
  have equalsAscii : Ascii "=".toList := by
    intro byte member
    rw [show byte = '=' by simpa using member]
    decide
  obtain ⟨isAscii, character⟩ := quoteAscii attr.quote List.mem_cons_self
  rw [split, xmlText_ascii_append_iff (ascii_of_blank wellFormed.blank),
    xmlText_ascii_append_iff (ascii_render wellFormed.name),
    xmlText_ascii_append_iff (ascii_of_blank wellFormed.before), xmlText_ascii_append_iff equalsAscii,
    xmlText_ascii_append_iff (ascii_of_blank wellFormed.after), xmlText_ascii_append_iff quoteAscii,
    xmlText_append_cons_iff isAscii character]

omit renamer in
private theorem xmlText_tag_iff {tag : TagSyntax} (wellFormed : tag.WellFormed) :
    XmlText tag.render ↔
      ∀ attr ∈ tag.attributes, XmlText (attr.pieces.flatMap ValuePiece.render) := by
  have attributesIff : ∀ {attributes : List AttributeSyntax},
      (∀ attr ∈ attributes, attr.WellFormed) →
      (XmlText (attributes.flatMap AttributeSyntax.render ++ tag.trailing) ↔
        ∀ attr ∈ attributes, XmlText (attr.pieces.flatMap ValuePiece.render)) := by
    intro attributes every
    induction attributes with
    | nil =>
        have ascii : XmlText (tag.trailing ++ []) :=
          (xmlText_ascii_append_iff (ascii_of_blank wellFormed.trailing)).mpr encodes_nil
        rw [List.append_nil] at ascii
        exact iff_of_true ascii (by simp)
    | cons attr attributes inductionHypothesis =>
        rw [List.flatMap_cons, List.append_assoc,
          xmlText_attribute_iff (every attr List.mem_cons_self),
          inductionHypothesis fun other member => every other (List.mem_cons_of_mem _ member),
          List.forall_mem_cons]
  rw [TagSyntax.render, List.append_assoc, xmlText_ascii_append_iff (ascii_render wellFormed.name),
    attributesIff wellFormed.attributes]

private theorem xmlText_renamed_tag {original : TagSyntax} (wellFormed : original.WellFormed) :
    XmlText (renamer.tag original).render ↔ XmlText original.render := by
  rw [xmlText_tag_iff (renamer.tag_wellFormed wellFormed), xmlText_tag_iff wellFormed, tag]
  simp only [List.forall_mem_map]
  rfl

/-- Renaming keeps a text a text of XML characters. -/
private theorem xmlText_renamed_content {original : Content} (wellFormed : original.WellFormed)
    {front back : Text} (valid : XmlText (front ++ (original.render ++ back))) :
    XmlText (front ++ ((renamer.content original).render ++ back)) := by
  induction original generalizing front back with
  | nil => exact valid
  | byte value rest inductionHypothesis =>
      obtain ⟨-, -, -, restWellFormed⟩ := wellFormed
      have longer := @inductionHypothesis restWellFormed (front ++ [value]) back (by
        simpa using valid)
      simpa [content] using longer
  | reference ref rest inductionHypothesis =>
      have longer := @inductionHypothesis wellFormed.2 (front ++ ref.render) back (by
        simpa using valid)
      simpa [content] using longer
  | cdata text rest inductionHypothesis =>
      have longer := @inductionHypothesis wellFormed.2
        (front ++ ("<![CDATA[".toList ++ (text ++ "]]>".toList))) back (by simpa using valid)
      simpa [content] using longer
  | comment text rest inductionHypothesis =>
      have longer := @inductionHypothesis wellFormed.2
        (front ++ ("<!--".toList ++ (text ++ "-->".toList))) back (by simpa using valid)
      simpa [content] using longer
  | empty original rest inductionHypothesis =>
      obtain ⟨tagWellFormed, restWellFormed⟩ := wellFormed
      have cut : ∀ {text tail : Text},
          XmlText (front ++ ('<' :: (text ++ ("/>".toList ++ tail)))) ↔
            XmlText front ∧ XmlText text ∧ XmlText ([] ++ tail) := by
        intro text tail
        rw [xmlText_append_cons_iff (by decide) (by decide)]
        refine and_congr_right fun _ => ?_
        refine (@xmlText_append_cons_iff text ('>' :: tail) '/' (by decide) (by decide)).trans ?_
        refine and_congr_right fun _ => ?_
        exact (@xmlText_append_cons_iff [] tail '>' (by decide) (by decide)).trans
          (and_iff_right encodes_nil)
      rw [Content.render_empty, List.cons_append, List.append_assoc, List.append_assoc, cut]
        at valid
      obtain ⟨frontValid, tagValid, restValid⟩ := valid
      rw [content, Content.render_empty, List.cons_append, List.append_assoc, List.append_assoc,
        cut]
      exact ⟨frontValid, (renamer.xmlText_renamed_tag tagWellFormed).mpr tagValid,
        inductionHypothesis restWellFormed restValid⟩
  | element original inner closing rest innerHypothesis inductionHypothesis =>
      obtain ⟨tagWellFormed, innerWellFormed, closingBlank, restWellFormed⟩ := wellFormed
      have cut : ∀ {text innerText tail : Text} {name : S3XMLQualifiedName}, name.IsValid →
          (XmlText (front ++ ('<' :: (text ++ (">".toList ++ (innerText ++ ("</".toList ++
            (name.render ++ (closing ++ '>' :: tail)))))))) ↔
            XmlText front ∧ XmlText text ∧ XmlText ([] ++ (innerText ++ [])) ∧
              XmlText ([] ++ tail)) := by
        intro text innerText tail name valid
        rw [xmlText_append_cons_iff (by decide) (by decide)]
        refine and_congr_right fun _ => ?_
        refine (@xmlText_append_cons_iff text _ '>' (by decide) (by decide)).trans ?_
        refine and_congr_right fun _ => ?_
        refine (@xmlText_append_cons_iff innerText _ '<' (by decide) (by decide)).trans ?_
        rw [List.append_nil, List.nil_append]
        refine and_congr_right fun _ => ?_
        refine (@xmlText_append_cons_iff [] _ '/' (by decide) (by decide)).trans ?_
        refine (and_iff_right encodes_nil).trans ?_
        refine (xmlText_ascii_append_iff (ascii_render valid)).trans ?_
        refine (xmlText_ascii_append_iff (ascii_of_blank closingBlank)).trans ?_
        exact (@xmlText_append_cons_iff [] tail '>' (by decide) (by decide)).trans
          (and_iff_right encodes_nil)
      simp only [Content.render_element, List.cons_append, List.append_assoc] at valid
      rw [cut tagWellFormed.name] at valid
      obtain ⟨frontValid, tagValid, innerValid, restValid⟩ := valid
      simp only [content, Content.render_element, List.cons_append, List.append_assoc]
      rw [cut (renamer.tag_wellFormed tagWellFormed).name]
      exact ⟨frontValid, (renamer.xmlText_renamed_tag tagWellFormed).mpr tagValid,
        innerHypothesis innerWellFormed innerValid, inductionHypothesis restWellFormed restValid⟩

theorem document_xmlText {original : Document} (wellFormed : original.WellFormed)
    (valid : XmlText original.render) : XmlText (renamer.document original).render := by
  simp only [Document.render, List.append_assoc] at valid
  rw [← List.append_assoc] at valid
  have renamed := renamer.xmlText_renamed_content wellFormed.root valid
  rw [← renamer.content_root, List.append_assoc] at renamed
  simp only [Document.render, List.append_assoc]
  exact renamed

end PrefixRenaming

/-! ## The reader and its grammar -/

/-- The reader accepts exactly the texts of XML characters that render a well
formed document and returns its tree, whatever its prefixes are called. -/
theorem parseDocument_grammar {utf8Proc : Utf8Proc} (lawful : utf8Proc.Lawful) :
    (∀ (input : Text) (node : S3XMLNode), parseDocument utf8Proc input = some node ↔
      XmlText input ∧ ∃ document : Document, document.WellFormed ∧ input = document.render ∧
        document.Denotes node) ∧
    ∀ (renamer : PrefixRenaming) (document : Document) (node : S3XMLNode), document.WellFormed →
      document.Denotes node → XmlText document.render →
        parseDocument utf8Proc document.render = some node ∧
          parseDocument utf8Proc (renamer.document document).render = some node := by
  constructor
  · exact fun input node => parseDocument_eq_some_iff lawful
  · intro renamer document node wellFormed denotes valid
    constructor
    · exact (parseDocument_eq_some_iff lawful).mpr ⟨valid, document, wellFormed, rfl, denotes⟩
    · exact (parseDocument_eq_some_iff lawful).mpr
        ⟨renamer.document_xmlText wellFormed valid, renamer.document document,
          renamer.document_wellFormed wellFormed, rfl, renamer.document_denotes denotes⟩

/-- The prefixes `p` and `q` change places. -/
private def swapPrefixes : PrefixRenaming where
  rename := Equiv.swap "p".toList "q".toList
  injective := (Equiv.swap "p".toList "q".toList).injective
  empty := by decide
  xml := by decide
  xmlns := by decide
  isName := by
    intro name isName
    rw [Equiv.swap_apply_def]
    split
    · exact ⟨by decide, by decide⟩
    · split
      · exact ⟨by decide, by decide⟩
      · exact isName

private def prefixedTag : TagSyntax where
  name := ⟨"p".toList, "a".toList⟩
  attributes := [⟨" ".toList, ⟨"xmlns".toList, "p".toList⟩, [], [], '\'', [.byte 'u']⟩]
  trailing := []

private def prefixedDocument : Document where
  bom := false
  declaration := none
  before := []
  root := .element prefixedTag (.byte 'x' .nil) []
  after := []

private theorem prefixedTag_wellFormed : prefixedTag.WellFormed := by
  have isName : ∀ name ∈ ["p", "a", "xmlns"], IsName name.toList := by
    simp only [List.mem_cons, List.not_mem_nil, or_false]
    rintro name (rfl | rfl | rfl) <;> exact ⟨by decide, by decide⟩
  constructor
  · exact ⟨.inr (isName "p" (by decide)), isName "a" (by decide)⟩
  · intro attr member
    rw [List.mem_singleton.mp member]
    exact ⟨by decide, by simp [Blank, isXMLWhitespace], ⟨.inr (isName "xmlns" (by decide)),
      isName "p" (by decide)⟩, blank_nil, blank_nil, .inl rfl, by
        simp [ValuePiece.WellFormed]⟩
  · decide
  · exact blank_nil

private theorem prefixedTag_resolves : TagResolves rootScope prefixedTag "u".toList := by
  constructor
  · intro bound member
    rw [List.mem_singleton.mp member]
    exact ⟨by decide, by decide, by decide, by decide⟩
  · decide
  · decide
  · decide

theorem parseDocument_grammar_swapPrefixes :
    parseDocument .standard "<p:a xmlns:p='u'>x</p:a>".toList =
        some (.mk "a".toList "u".toList "x".toList []) ∧
      parseDocument .standard "<q:a xmlns:q='u'>x</q:a>".toList =
        some (.mk "a".toList "u".toList "x".toList []) :=
  (parseDocument_grammar Utf8Proc.standard_lawful).2 swapPrefixes prefixedDocument
    (.mk "a".toList "u".toList "x".toList [])
    ⟨by rintro _ ⟨⟩, Document.miscWellFormed_nil,
      ⟨prefixedTag_wellFormed, ⟨by decide, by decide, by decide, trivial⟩, blank_nil, trivial⟩,
      by decide, Document.miscWellFormed_nil⟩
    (.element prefixedTag_resolves (.byte .nil) .nil)
    (encodes_ascii (by decide))

end Httpfs.S3.Xml
