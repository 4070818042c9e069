import Httpfs.S3.Xml.Document

/-!
# Request bodies

The bodies of the requests that delete objects and complete an upload, and
what the reader makes of them: it gives back every key and every etag byte for
byte, and refuses a body only for bytes that no XML text can hold.
-/

namespace Httpfs.S3.Xml

open Text

def s3Namespace : Text :=
  "http://s3.amazonaws.com/doc/2006-03-01/".toList

def escapeByte (value : Char) : Text :=
  if value = '&' then "&amp;".toList
  else if value = '<' then "&lt;".toList
  else if value = '>' then "&gt;".toList
  else if value = '\r' then "&#13;".toList
  else [value]

def escapeText (text : Text) : Text :=
  text.flatMap escapeByte

def deleteRequestStart : Text :=
  "<?xml version=\"1.0\" encoding=\"UTF-8\"?>".toList ++
    "<Delete xmlns=\"http://s3.amazonaws.com/doc/2006-03-01/\">".toList

/-- The body that deletes the keys at `beginIndex` and behind it, up to `endIndex`. -/
def writeDeleteObjectsRequest (keys : List Text) (beginIndex endIndex : Nat) : Text :=
  deleteRequestStart ++
    ((keys.drop beginIndex).take (endIndex - beginIndex)).flatMap (fun key =>
      "<Object><Key>".toList ++ escapeText key ++ "</Key></Object>".toList) ++
    "<Quiet>true</Quiet></Delete>".toList

/-- The parts from an index on. -/
def writeParts (partIndex : Nat) : List Text → Text
  | [] => []
  | etag :: etags =>
      "<Part><ETag>".toList ++ escapeText etag ++ "</ETag><PartNumber>".toList ++
        Nat.toDigits 10 (partIndex + 1) ++ "</PartNumber></Part>".toList ++
        writeParts (partIndex + 1) etags

theorem writeParts_cons (partIndex : Nat) (etag : Text) (etags : List Text) :
    writeParts partIndex (etag :: etags) =
      "<Part><ETag>".toList ++ escapeText etag ++ "</ETag><PartNumber>".toList ++
        Nat.toDigits 10 (partIndex + 1) ++ "</PartNumber></Part>".toList ++
        writeParts (partIndex + 1) etags :=
  rfl

def completionRequestStart : Text :=
  "<CompleteMultipartUpload xmlns=\"http://s3.amazonaws.com/doc/2006-03-01/\">".toList

def writeCompleteMultipartUploadRequest (etags : List Text) : Text :=
  completionRequestStart ++ writeParts 0 etags ++ "</CompleteMultipartUpload>".toList

/-! ## What a body names -/

private theorem escapeByte_append_inj {left right : Char} {back rest : Text}
    (same : escapeByte left ++ back = escapeByte right ++ rest) :
    left = right ∧ back = rest := by
  unfold escapeByte at same
  split_ifs at same <;> simp_all <;> grind

private theorem escapeByte_ne_nil (value : Char) : escapeByte value ≠ [] := by
  unfold escapeByte
  split_ifs <;> simp

theorem escapeText_injective : Function.Injective escapeText := by
  intro text
  induction text with
  | nil =>
      intro other same
      cases other with
      | nil => rfl
      | cons value other => exact absurd (List.append_eq_nil_iff.mp same.symm).1 (escapeByte_ne_nil _)
  | cons value text ih =>
      intro other same
      cases other with
      | nil => exact absurd (List.append_eq_nil_iff.mp same).1 (escapeByte_ne_nil _)
      | cons otherValue other =>
          rcases escapeByte_append_inj same with ⟨rfl, rest⟩
          rw [ih rest]

private theorem lt_not_mem_escapeText (text : Text) : '<' ∉ escapeText text := by
  intro member
  rcases List.mem_flatMap.mp member with ⟨value, -, escaped⟩
  unfold escapeByte at escaped
  split_ifs at escaped <;> simp_all
  grind

private def objectMarkup (key : Text) : Text :=
  "<Object><Key>".toList ++ escapeText key ++ "</Key></Object>".toList

private def objectStart : Text :=
  "bject><Key>".toList

private def objectEnd : Text :=
  "/Key></Object>".toList

private def quietMarkup : Text :=
  "<Quiet>true</Quiet></Delete>".toList

private theorem quietMarkup_eq : ∃ rest, quietMarkup = '<' :: 'Q' :: rest :=
  ⟨quietMarkup.drop 2, by decide⟩

private theorem objectMarkup_append (key rest : Text) :
    objectMarkup key ++ rest =
      '<' :: 'O' :: (objectStart ++ (escapeText key ++ '<' :: (objectEnd ++ rest))) := by
  have start : "<Object><Key>".toList = '<' :: 'O' :: objectStart := by
    decide
  have ending : "</Key></Object>".toList = '<' :: objectEnd := by
    decide
  have unfolded : objectMarkup key =
      "<Object><Key>".toList ++ escapeText key ++ "</Key></Object>".toList :=
    rfl
  rw [unfolded, start, ending]
  simp only [List.append_assoc, List.cons_append]

private theorem objects_inj {keys others : List Text}
    (same : keys.flatMap objectMarkup ++ quietMarkup =
      others.flatMap objectMarkup ++ quietMarkup) : keys = others := by
  induction keys generalizing others with
  | nil =>
      cases others with
      | nil => rfl
      | cons other others =>
          rcases quietMarkup_eq with ⟨rest, quiet⟩
          rw [List.flatMap_cons, List.append_assoc, objectMarkup_append, List.flatMap_nil,
            List.nil_append, quiet] at same
          exact absurd (List.cons.inj (List.cons.inj same).2).1 (by decide)
  | cons key keys ih =>
      cases others with
      | nil =>
          rcases quietMarkup_eq with ⟨rest, quiet⟩
          rw [List.flatMap_cons, List.append_assoc, objectMarkup_append, List.flatMap_nil,
            List.nil_append, quiet] at same
          exact absurd (List.cons.inj (List.cons.inj same).2).1 (by decide)
      | cons other others =>
          rw [List.flatMap_cons, List.flatMap_cons, List.append_assoc, List.append_assoc,
            objectMarkup_append, objectMarkup_append] at same
          have escaped := List.append_cancel_left (List.cons.inj (List.cons.inj same).2).2
          rcases (append_cons_inj (lt_not_mem_escapeText key) (lt_not_mem_escapeText other)).mp
            escaped with ⟨keyEq, rest⟩
          rw [escapeText_injective keyEq, ih (List.append_cancel_left rest)]

/-- The body of a delete request names one list of keys. -/
theorem writeDeleteObjectsRequest_inj {keys others : List Text}
    (same : writeDeleteObjectsRequest keys 0 keys.length =
      writeDeleteObjectsRequest others 0 others.length) : keys = others := by
  rw [writeDeleteObjectsRequest, writeDeleteObjectsRequest, List.append_assoc,
    List.append_assoc] at same
  simp only [List.drop_zero, Nat.sub_zero, List.take_length] at same
  exact objects_inj (List.append_cancel_left same)

/-! ## Escaped text -/

/-- What the escaped form of a byte is read as. -/
def escapedContent (text : Text) (rest : Content) : Content :=
  text.foldr (fun value rest =>
    if value = '&' then .reference (.predefined .amp) rest
    else if value = '<' then .reference (.predefined .lt) rest
    else if value = '>' then .reference (.predefined .gt) rest
    else if value = '\r' then .reference (.decimal "13".toList) rest
    else .byte value rest) rest

/-- The cases of the escaping: a reference or the byte itself. -/
private theorem escape_cases {motive : Char → Prop} (value : Char) (amp : motive '&')
    (lt : motive '<') (gt : motive '>') (cr : motive '\r')
    (plain : value ≠ '&' → value ≠ '<' → value ≠ '>' → value ≠ '\r' → motive value) :
    motive value := by
  by_cases isAmp : value = '&'
  · exact isAmp ▸ amp
  by_cases isLt : value = '<'
  · exact isLt ▸ lt
  by_cases isGt : value = '>'
  · exact isGt ▸ gt
  by_cases isCr : value = '\r'
  · exact isCr ▸ cr
  exact plain isAmp isLt isGt isCr

private theorem escapedContent_cons (value : Char) (text : Text) (rest : Content) :
    escapedContent (value :: text) rest =
      if value = '&' then .reference (.predefined .amp) (escapedContent text rest)
      else if value = '<' then .reference (.predefined .lt) (escapedContent text rest)
      else if value = '>' then .reference (.predefined .gt) (escapedContent text rest)
      else if value = '\r' then .reference (.decimal "13".toList) (escapedContent text rest)
      else .byte value (escapedContent text rest) :=
  rfl

private theorem escapedContent_plain {value : Char} (notAmp : value ≠ '&') (notLt : value ≠ '<')
    (notGt : value ≠ '>') (notCr : value ≠ '\r') (text : Text) (rest : Content) :
    escapedContent (value :: text) rest = .byte value (escapedContent text rest) := by
  rw [escapedContent_cons, if_neg notAmp, if_neg notLt, if_neg notGt, if_neg notCr]

private theorem escapeByte_plain {value : Char} (notAmp : value ≠ '&') (notLt : value ≠ '<')
    (notGt : value ≠ '>') (notCr : value ≠ '\r') : escapeByte value = [value] := by
  rw [escapeByte, if_neg notAmp, if_neg notLt, if_neg notGt, if_neg notCr]

theorem render_escapedContent (text : Text) (rest : Content) :
    (escapedContent text rest).render = escapeText text ++ rest.render := by
  induction text with
  | nil => rfl
  | cons value text inductionHypothesis =>
      rw [escapeText, List.flatMap_cons, List.append_assoc, ← escapeText, ← inductionHypothesis]
      apply escape_cases value
      · rfl
      · rfl
      · rfl
      · rfl
      · intro notAmp notLt notGt notCr
        rw [escapedContent_plain notAmp notLt notGt notCr,
          escapeByte_plain notAmp notLt notGt notCr]
        rfl

private theorem gt_not_mem_name (entity : PredefinedEntity) : '>' ∉ entity.name := by
  cases entity <;> decide

/-- Escaped text holds no `>`, so no end of character data either. -/
private theorem escapedContent_leadingText {text : Text} {rest : Content}
    (noText : rest.leadingText = []) : '>' ∉ (escapedContent text rest).leadingText := by
  induction text with
  | nil =>
      rw [show escapedContent [] rest = rest from rfl, noText]
      exact List.not_mem_nil
  | cons value text inductionHypothesis =>
      apply escape_cases value
      · exact fun member => inductionHypothesis (by
          simpa [escapedContent_cons, Content.leadingText, Reference.render, Reference.body,
            gt_not_mem_name] using member)
      · exact fun member => inductionHypothesis (by
          simpa [escapedContent_cons, Content.leadingText, Reference.render, Reference.body,
            gt_not_mem_name] using member)
      · exact fun member => inductionHypothesis (by
          simpa [escapedContent_cons, Content.leadingText, Reference.render, Reference.body,
            gt_not_mem_name] using member)
      · exact fun member => inductionHypothesis (by
          simpa [escapedContent_cons, Content.leadingText, Reference.render, Reference.body]
            using member)
      · intro notAmp notLt notGt notCr
        rw [escapedContent_plain notAmp notLt notGt notCr, Content.leadingText]
        simp [inductionHypothesis, notGt.symm]

theorem escapedContent_wellFormed {rest : Content} (wellFormed : rest.WellFormed)
    (noText : rest.leadingText = []) (text : Text) : (escapedContent text rest).WellFormed := by
  induction text with
  | nil => exact wellFormed
  | cons value text inductionHypothesis =>
      apply escape_cases value
      · exact ⟨trivial, inductionHypothesis⟩
      · exact ⟨trivial, inductionHypothesis⟩
      · exact ⟨trivial, inductionHypothesis⟩
      · refine ⟨⟨by decide, ?_, by decide⟩, inductionHypothesis⟩
        simp [digitValue]
      · intro notAmp notLt notGt notCr
        rw [escapedContent_plain notAmp notLt notGt notCr]
        refine ⟨notLt, notAmp, ?_, inductionHypothesis⟩
        intro ends
        have member : '>' ∈ value :: (escapedContent text rest).leadingText :=
          ends.subset (by decide)
        rcases List.mem_cons.mp member with same | later
        · exact notGt same.symm
        · exact escapedContent_leadingText noText later

theorem depth_escapedContent (text : Text) (rest : Content) :
    (escapedContent text rest).depth = rest.depth := by
  induction text with
  | nil => rfl
  | cons value text inductionHypothesis =>
      apply escape_cases value
      · exact inductionHypothesis
      · exact inductionHypothesis
      · exact inductionHypothesis
      · exact inductionHypothesis
      · intro notAmp notLt notGt notCr
        rw [escapedContent_plain notAmp notLt notGt notCr]
        exact inductionHypothesis

/-- Escaped text stands for the text. -/
theorem escapedContent_denotes {scope : Scope} {rest : Content} {restText : Text}
    {children : List S3XMLNode} (denotes : rest.Denotes scope restText children) (text : Text) :
    (escapedContent text rest).Denotes scope (text ++ restText) children := by
  induction text with
  | nil => exact denotes
  | cons value text inductionHypothesis =>
      apply escape_cases value
      · exact .reference inductionHypothesis
      · exact .reference inductionHypothesis
      · exact .reference inductionHypothesis
      · exact .reference inductionHypothesis
      · intro notAmp notLt notGt notCr
        rw [escapedContent_plain notAmp notLt notGt notCr]
        exact .byte inductionHypothesis

private theorem ascii_of_forall {text : Text}
    (every : (text.all fun byte => byte.toNat < 128 && isXMLCharacter byte.toNat) = true) :
    Ascii text := by
  intro byte member
  simpa using List.all_eq_true.mp every byte member

/-- Escaping changes ASCII bytes to ASCII bytes only. -/
theorem xmlText_escapeText_iff {front text : Text} :
    XmlText (front ++ escapeText text) ↔ XmlText (front ++ text) := by
  induction text generalizing front with
  | nil => rfl
  | cons value text inductionHypothesis =>
      have inner := @inductionHypothesis []
      -- An escaped byte cuts the text, and so does what replaces it.
      have escaped : ∀ {first byte : Char} {more : Text}, first.toNat < 128 →
          isXMLCharacter first.toNat = true → Ascii more → byte.toNat < 128 →
          isXMLCharacter byte.toNat = true →
          (XmlText (front ++ (first :: more ++ escapeText text)) ↔
            XmlText (front ++ byte :: text)) := by
        intro first byte more isAscii character moreAscii byteAscii byteCharacter
        rw [List.cons_append, xmlText_append_cons_iff isAscii character,
          xmlText_append_cons_iff byteAscii byteCharacter, xmlText_ascii_append_iff moreAscii]
        exact and_congr_right fun _ => inner
      rw [escapeText, List.flatMap_cons, ← escapeText]
      apply escape_cases value
      · exact escaped (by decide) (by decide) (ascii_of_forall (by decide)) (by decide) (by decide)
      · exact escaped (by decide) (by decide) (ascii_of_forall (by decide)) (by decide) (by decide)
      · exact escaped (by decide) (by decide) (ascii_of_forall (by decide)) (by decide) (by decide)
      · exact escaped (by decide) (by decide) (ascii_of_forall (by decide)) (by decide) (by decide)
      · intro notAmp notLt notGt notCr
        have longer := @inductionHypothesis (front ++ [value])
        rw [escapeByte_plain notAmp notLt notGt notCr]
        simpa using longer

/-! ## Elements -/

def plainTag (name : Text) : TagSyntax :=
  ⟨⟨[], name⟩, [], []⟩

/-- A tag that makes the namespace of the service the default one. -/
def serviceTag (name : Text) : TagSyntax :=
  ⟨⟨[], name⟩, [⟨" ".toList, ⟨[], "xmlns".toList⟩, [], [], '"', s3Namespace.map .byte⟩], []⟩

/-- The scope inside of such a tag at the root. -/
def serviceScope : Scope :=
  ⟨[], s3Namespace⟩ :: rootScope

theorem plainTag_wellFormed {name : Text} (isName : IsName name) :
    (plainTag name).WellFormed :=
  ⟨⟨.inl rfl, isName⟩, by simp [plainTag], List.nodup_nil, blank_nil⟩

theorem plainTag_resolves {name : Text} : TagResolves serviceScope (plainTag name) s3Namespace := by
  constructor
  · rintro bound ⟨⟩
  · rfl
  · rintro attr ⟨⟩
  · exact List.nodup_nil

private theorem serviceTag_meanings (name : Text) :
    (serviceTag name).meanings = [⟨⟨[], "xmlns".toList⟩, s3Namespace⟩] :=
  rfl

theorem serviceTag_scope (name : Text) : (serviceTag name).scope rootScope = serviceScope := by
  rw [TagSyntax.scope, serviceTag_meanings]
  rfl

theorem serviceTag_wellFormed {name : Text} (isName : IsName name) :
    (serviceTag name).WellFormed := by
  constructor
  · exact ⟨.inl rfl, isName⟩
  · intro attr member
    rw [List.mem_singleton.mp member]
    refine ⟨by decide, by simp [Blank, isXMLWhitespace], ⟨.inl rfl, by decide, by decide⟩,
      blank_nil, blank_nil, .inr rfl, ?_⟩
    intro piece isPiece
    obtain ⟨byte, isByte, rfl⟩ := List.mem_map.mp isPiece
    have plain : ∀ byte ∈ s3Namespace, byte ≠ '"' ∧ byte ≠ '<' ∧ byte ≠ '&' := by decide
    exact plain byte isByte
  · exact List.nodup_singleton _
  · exact blank_nil

theorem serviceTag_resolves {name : Text} :
    TagResolves rootScope (serviceTag name) s3Namespace := by
  constructor
  · rw [serviceTag_meanings]
    intro bound member
    rw [List.mem_singleton.mp member]
    exact ⟨by decide, by decide, by decide, by decide⟩
  · rw [serviceTag_scope]
    rfl
  · rw [serviceTag_meanings]
    rintro attr ⟨⟩
  · rw [serviceTag_meanings]
    exact List.nodup_nil

theorem plainElement_wellFormed {name : Text} {inner rest : Content} (isName : IsName name)
    (innerWellFormed : inner.WellFormed) (wellFormed : rest.WellFormed) :
    (Content.element (plainTag name) inner [] rest).WellFormed :=
  ⟨plainTag_wellFormed isName, innerWellFormed, blank_nil, wellFormed⟩

/-- An element with text and no attributes. -/
def textElement (name text : Text) (rest : Content) : Content :=
  .element (plainTag name) (escapedContent text .nil) [] rest

theorem textElement_denotes {name text restText : Text} {rest : Content}
    {children : List S3XMLNode} (later : rest.Denotes serviceScope restText children) :
    (textElement name text rest).Denotes serviceScope restText
      (.mk name s3Namespace text [] :: children) := by
  have inside := escapedContent_denotes (@Content.Denotes.nil serviceScope) text
  rw [List.append_nil] at inside
  exact .element plainTag_resolves inside later

theorem textElement_wellFormed {name text : Text} {rest : Content} (isName : IsName name)
    (wellFormed : rest.WellFormed) : (textElement name text rest).WellFormed :=
  plainElement_wellFormed isName (@escapedContent_wellFormed .nil trivial rfl text) wellFormed

theorem depth_textElement (name text : Text) (rest : Content) :
    (textElement name text rest).depth = max 1 rest.depth := by
  rw [textElement, Content.depth, depth_escapedContent]
  rfl

private theorem render_plainTag (name : Text) : (plainTag name).render = name := by
  simp [TagSyntax.render, plainTag, S3XMLQualifiedName.render]

private theorem render_plainElement (name : Text) (inner rest : Content) :
    (Content.element (plainTag name) inner [] rest).render =
      '<' :: (name ++ '>' :: (inner.render ++ ('<' :: '/' :: (name ++ '>' :: rest.render)))) := by
  rw [Content.render_element, render_plainTag]
  rfl

private theorem render_textElement (name text : Text) (rest : Content) :
    (textElement name text rest).render =
      '<' :: (name ++ '>' :: (escapeText text ++ ('<' :: '/' :: (name ++ '>' :: rest.render)))) := by
  rw [textElement, render_plainElement, render_escapedContent, Content.render_nil,
    List.append_nil]

/-! ## The body of a delete request -/

section Delete

private def objectContents (keys : List Text) : Content :=
  keys.foldr (fun key rest => .element (plainTag "Object".toList)
    (textElement "Key".toList key .nil) [] rest) (textElement "Quiet".toList "true".toList .nil)

/-- The tree of a delete request. -/
def deleteTree (keys : List Text) : S3XMLNode :=
  .mk "Delete".toList s3Namespace []
    (keys.map (fun key => .mk "Object".toList s3Namespace []
      [.mk "Key".toList s3Namespace key []]) ++
      [.mk "Quiet".toList s3Namespace "true".toList []])

private def deleteDeclaration : DeclarationSyntax where
  version := ⟨" ".toList, "version".toList, [], [], '"', "1.0".toList⟩
  encoding := some ⟨" ".toList, "encoding".toList, [], [], '"', "UTF-8".toList⟩
  standalone := none
  trailing := []

private def deleteDocument (keys : List Text) : Document where
  bom := false
  declaration := some deleteDeclaration
  before := []
  root := .element (serviceTag "Delete".toList) (objectContents keys) []
  after := []

private theorem deleteDeclaration_wellFormed : deleteDeclaration.WellFormed := by
  have oneBlank : Blank " ".toList := by simp [Blank, isXMLWhitespace]
  constructor
  · exact ⟨by decide, oneBlank, rfl, blank_nil, blank_nil, .inr rfl, rfl⟩
  · rintro item ⟨⟩
    exact ⟨by decide, oneBlank, rfl, blank_nil, blank_nil, .inr rfl, by decide⟩
  · rintro item ⟨⟩
  · exact blank_nil

private theorem objectContents_wellFormed (keys : List Text) :
    (objectContents keys).WellFormed := by
  induction keys with
  | nil => exact textElement_wellFormed ⟨by decide, by decide⟩ trivial
  | cons key keys inductionHypothesis =>
      exact ⟨plainTag_wellFormed ⟨by decide, by decide⟩,
        textElement_wellFormed ⟨by decide, by decide⟩ trivial, blank_nil, inductionHypothesis⟩

private theorem depth_objectContents (keys : List Text) : (objectContents keys).depth ≤ 2 := by
  induction keys with
  | nil =>
      rw [objectContents, List.foldr_nil, depth_textElement]
      decide
  | cons key keys inductionHypothesis =>
      apply Nat.max_le.mpr
      rw [depth_textElement]
      exact ⟨by decide, inductionHypothesis⟩

private theorem objectContents_denotes (keys : List Text) :
    (objectContents keys).Denotes serviceScope []
      (keys.map (fun key => .mk "Object".toList s3Namespace []
        [.mk "Key".toList s3Namespace key []]) ++
        [.mk "Quiet".toList s3Namespace "true".toList []]) := by
  induction keys with
  | nil => exact textElement_denotes .nil
  | cons key keys inductionHypothesis =>
      exact .element plainTag_resolves (textElement_denotes .nil) inductionHypothesis

private theorem render_objectContents (keys : List Text) :
    (objectContents keys).render =
      keys.flatMap (fun key =>
        "<Object><Key>".toList ++ escapeText key ++ "</Key></Object>".toList) ++
        "<Quiet>true</Quiet>".toList := by
  induction keys with
  | nil => decide
  | cons key keys inductionHypothesis =>
      have step : (objectContents (key :: keys)).render = "<Object><Key>".toList ++
          (escapeText key ++ ("</Key></Object>".toList ++ (objectContents keys).render)) := by
        refine (render_plainElement _ _ _).trans ?_
        rw [render_textElement, Content.render_nil]
        simp [objectContents]
      rw [step, inductionHypothesis, List.flatMap_cons]
      simp only [List.append_assoc]

private theorem render_deleteDocument (keys : List Text) :
    (deleteDocument keys).render = deleteRequestStart ++
        keys.flatMap (fun key =>
          "<Object><Key>".toList ++ escapeText key ++ "</Key></Object>".toList) ++
        "<Quiet>true</Quiet></Delete>".toList := by
  have opening :
      deleteDeclaration.render ++ '<' :: ((serviceTag "Delete".toList).render ++ ">".toList) =
        deleteRequestStart := by
    decide
  have split : (deleteDocument keys).render =
      (deleteDeclaration.render ++ '<' :: ((serviceTag "Delete".toList).render ++ ">".toList)) ++
        ((objectContents keys).render ++ "</Delete>".toList) := by
    simp [Document.render, Document.prolog, deleteDocument, RootSyntax.content, miscContent,
      serviceTag, S3XMLQualifiedName.render]
  rw [split, opening, render_objectContents]
  simp only [List.append_assoc]
  rfl

private theorem xmlText_objects_iff (keys : List Text) (rest : Text) :
    XmlText (keys.flatMap (fun key =>
      "<Object><Key>".toList ++ escapeText key ++ "</Key></Object>".toList) ++ rest) ↔
      (∀ key ∈ keys, XmlText key) ∧ XmlText rest := by
  induction keys with
  | nil => simp
  | cons key keys inductionHypothesis =>
      rw [List.flatMap_cons, List.append_assoc, List.append_assoc, List.append_assoc,
        xmlText_ascii_append_iff (ascii_of_forall (by decide)), List.forall_mem_cons, and_assoc,
        ← inductionHypothesis]
      refine (@xmlText_append_cons_iff (escapeText key) _ '<' (by decide) (by decide)).trans ?_
      apply and_congr (@xmlText_escapeText_iff [] key)
      exact @xmlText_ascii_append_iff "/Key></Object>".toList _ (ascii_of_forall (by decide))

private theorem xmlText_deleteDocument_iff (keys : List Text) :
    XmlText (deleteDocument keys).render ↔ ∀ key ∈ keys, XmlText key := by
  have ending : XmlText ("<Quiet>true</Quiet></Delete>".toList ++ []) :=
    (xmlText_ascii_append_iff (ascii_of_forall (by decide))).mpr encodes_nil
  rw [List.append_nil] at ending
  rw [render_deleteDocument, List.append_assoc,
    xmlText_ascii_append_iff (ascii_of_forall (by decide)), xmlText_objects_iff]
  exact and_iff_left ending

private theorem deleteDocument_wellFormed (keys : List Text) :
    (deleteDocument keys).WellFormed := by
  constructor
  · rintro declaration ⟨⟩
    exact deleteDeclaration_wellFormed
  · exact Document.miscWellFormed_nil
  · exact ⟨serviceTag_wellFormed ⟨by decide, by decide⟩, objectContents_wellFormed keys, blank_nil,
      trivial⟩
  · apply Nat.max_le.mpr
    exact ⟨Nat.succ_le_succ ((depth_objectContents keys).trans (by decide)), Nat.zero_le _⟩
  · exact Document.miscWellFormed_nil

private theorem deleteDocument_denotes (keys : List Text) :
    (deleteDocument keys).Denotes (deleteTree keys) := by
  have inside := objectContents_denotes keys
  rw [← serviceTag_scope "Delete".toList] at inside
  exact .element serviceTag_resolves inside .nil

end Delete

/-! ## The body of a completion -/

section Completion

private def partContents (partIndex : Nat) : List Text → Content
  | [] => .nil
  | etag :: etags =>
      .element (plainTag "Part".toList) (textElement "ETag".toList etag
        (textElement "PartNumber".toList (Nat.toDigits 10 (partIndex + 1)) .nil)) []
        (partContents (partIndex + 1) etags)

private theorem partContents_cons (partIndex : Nat) (etag : Text) (etags : List Text) :
    partContents partIndex (etag :: etags) =
      .element (plainTag "Part".toList) (textElement "ETag".toList etag
        (textElement "PartNumber".toList (Nat.toDigits 10 (partIndex + 1)) .nil)) []
        (partContents (partIndex + 1) etags) :=
  rfl

/-- The node of one part. -/
def partNode (partIndex : Nat) (etag : Text) : S3XMLNode :=
  .mk "Part".toList s3Namespace [] [.mk "ETag".toList s3Namespace etag [],
    .mk "PartNumber".toList s3Namespace (Nat.toDigits 10 (partIndex + 1)) []]

/-- The tree of a completion: the etags with the part numbers from one on. -/
def completionTree (etags : List Text) : S3XMLNode :=
  .mk "CompleteMultipartUpload".toList s3Namespace [] (etags.mapIdx partNode)

private def completionDocument (etags : List Text) : Document where
  bom := false
  declaration := none
  before := []
  root := .element (serviceTag "CompleteMultipartUpload".toList) (partContents 0 etags) []
  after := []

private theorem partContents_wellFormed (etags : List Text) (partIndex : Nat) :
    (partContents partIndex etags).WellFormed := by
  induction etags generalizing partIndex with
  | nil => trivial
  | cons etag etags inductionHypothesis =>
      have numbered := @textElement_wellFormed "PartNumber".toList
        (Nat.toDigits 10 (partIndex + 1)) .nil ⟨by decide, by decide⟩ trivial
      exact ⟨plainTag_wellFormed ⟨by decide, by decide⟩,
        textElement_wellFormed ⟨by decide, by decide⟩ numbered, blank_nil,
        inductionHypothesis (partIndex + 1)⟩

private theorem depth_partContents (etags : List Text) (partIndex : Nat) :
    (partContents partIndex etags).depth ≤ 2 := by
  induction etags generalizing partIndex with
  | nil => exact Nat.zero_le _
  | cons etag etags inductionHypothesis =>
      apply Nat.max_le.mpr
      rw [depth_textElement, depth_textElement]
      exact ⟨by decide, inductionHypothesis (partIndex + 1)⟩

private theorem partContents_denotes (etags : List Text) (partIndex : Nat) :
    (partContents partIndex etags).Denotes serviceScope []
      (etags.mapIdx fun index => partNode (partIndex + index)) := by
  induction etags generalizing partIndex with
  | nil => exact .nil
  | cons etag etags inductionHypothesis =>
      have later := inductionHypothesis (partIndex + 1)
      have shifted : (fun index => partNode (partIndex + 1 + index)) =
          fun index => partNode (partIndex + (index + 1)) := by
        funext index
        rw [Nat.add_assoc, Nat.add_comm 1 index]
      rw [shifted] at later
      rw [List.mapIdx_cons]
      exact .element plainTag_resolves (textElement_denotes (textElement_denotes .nil)) later

/-- Digits are written as they are. -/
private theorem escapeText_digits (number : Nat) :
    escapeText (Nat.toDigits 10 number) = Nat.toDigits 10 number := by
  have plain : ∀ digit ∈ Nat.toDigits 10 number, escapeByte digit = [digit] := by
    intro digit member
    have isDigit := Nat.isDigit_of_mem_toDigits (by decide) (by decide) member
    apply escapeByte_plain <;>
    · rintro rfl
      exact absurd isDigit (by decide)
  rw [escapeText, List.flatMap_congr plain, List.flatMap_singleton']

private theorem ascii_digits (number : Nat) : Ascii (Nat.toDigits 10 number) := by
  intro digit member
  have isDigit := Nat.isDigit_of_mem_toDigits (by decide) (by decide) member
  apply ascii_of_isNameCharacter
  have bounds : '0' ≤ digit ∧ digit ≤ '9' := by
    simpa [Char.isDigit, Char.le_def, UInt32.le_iff_toNat_le] using isDigit
  simp [isNameCharacter, bounds.1, bounds.2]

private theorem render_partContents (etags : List Text) (partIndex : Nat) :
    (partContents partIndex etags).render = writeParts partIndex etags := by
  induction etags generalizing partIndex with
  | nil => rfl
  | cons etag etags inductionHypothesis =>
      rw [partContents_cons, render_plainElement, render_textElement, render_textElement,
        escapeText_digits, inductionHypothesis, writeParts_cons]
      simp

private theorem render_completionDocument (etags : List Text) :
    (completionDocument etags).render = writeCompleteMultipartUploadRequest etags := by
  have opening :
      '<' :: ((serviceTag "CompleteMultipartUpload".toList).render ++ ">".toList) =
        completionRequestStart := by
    decide
  have split : (completionDocument etags).render =
      ('<' :: ((serviceTag "CompleteMultipartUpload".toList).render ++ ">".toList)) ++
        ((partContents 0 etags).render ++ "</CompleteMultipartUpload>".toList) := by
    simp [Document.render, Document.prolog, completionDocument, RootSyntax.content, miscContent,
      serviceTag, S3XMLQualifiedName.render]
  rw [split, opening, render_partContents, writeCompleteMultipartUploadRequest, List.append_assoc]

private theorem xmlText_parts {etags : List Text} (valid : ∀ etag ∈ etags, XmlText etag)
    {rest : Text} (restValid : XmlText rest) (partIndex : Nat) :
    XmlText (writeParts partIndex etags ++ rest) := by
  induction etags generalizing partIndex with
  | nil => exact restValid
  | cons etag etags inductionHypothesis =>
      obtain ⟨etagValid, laterValid⟩ := List.forall_mem_cons.mp valid
      have later := inductionHypothesis laterValid (partIndex + 1)
      have numbered : XmlText ("</ETag><PartNumber>".toList ++ (Nat.toDigits 10 (partIndex + 1) ++
          ("</PartNumber></Part>".toList ++ (writeParts (partIndex + 1) etags ++ rest)))) := by
        rw [xmlText_ascii_append_iff (ascii_of_forall (by decide)),
          xmlText_ascii_append_iff (ascii_digits _),
          xmlText_ascii_append_iff (ascii_of_forall (by decide))]
        exact later
      have escaped : XmlText (escapeText etag) := (@xmlText_escapeText_iff [] etag).mpr etagValid
      have whole := (xmlText_ascii_append_iff
        (@ascii_of_forall "<Part><ETag>".toList (by decide))).mpr (escaped.append numbered)
      simpa [writeParts_cons] using whole

private theorem completionDocument_wellFormed (etags : List Text) :
    (completionDocument etags).WellFormed := by
  constructor
  · rintro declaration ⟨⟩
  · exact Document.miscWellFormed_nil
  · exact ⟨serviceTag_wellFormed ⟨by decide, by decide⟩, partContents_wellFormed etags 0,
      blank_nil, trivial⟩
  · apply Nat.max_le.mpr
    exact ⟨Nat.succ_le_succ ((depth_partContents etags 0).trans (by decide)), Nat.zero_le _⟩
  · exact Document.miscWellFormed_nil

private theorem completionDocument_denotes (etags : List Text) :
    (completionDocument etags).Denotes (completionTree etags) := by
  have inside := partContents_denotes etags 0
  simp only [Nat.zero_add] at inside
  rw [← serviceTag_scope "CompleteMultipartUpload".toList] at inside
  exact .element serviceTag_resolves inside .nil

end Completion

/-! ## Round trips -/

/-- The reader gives back the keys and the etags of a request body, and refuses
a body of keys only where a key is no text of XML characters. -/
theorem parseDocument_requests {utf8Proc : Utf8Proc} (lawful : utf8Proc.Lawful) :
    (∀ (keys : List Text) (beginIndex endIndex : Nat), beginIndex ≤ endIndex →
      endIndex ≤ keys.length →
      ((parseDocument utf8Proc (writeDeleteObjectsRequest keys beginIndex endIndex)).isSome = true ↔
        ∀ key ∈ (keys.drop beginIndex).take (endIndex - beginIndex), XmlText key) ∧
      ∀ node, parseDocument utf8Proc (writeDeleteObjectsRequest keys beginIndex endIndex) =
          some node →
        node = deleteTree ((keys.drop beginIndex).take (endIndex - beginIndex))) ∧
    ∀ etags : List Text, (∀ etag ∈ etags, XmlText etag) →
      parseDocument utf8Proc (writeCompleteMultipartUploadRequest etags) =
        some (completionTree etags) := by
  constructor
  · intro keys beginIndex endIndex _ _
    generalize selectedEq : (keys.drop beginIndex).take (endIndex - beginIndex) = selected
    have rendered : writeDeleteObjectsRequest keys beginIndex endIndex =
        (deleteDocument selected).render := by
      rw [writeDeleteObjectsRequest, selectedEq, render_deleteDocument]
    rw [rendered]
    have accepts : XmlText (deleteDocument selected).render →
        parseDocument utf8Proc (deleteDocument selected).render = some (deleteTree selected) := by
      intro valid
      exact (parseDocument_eq_some_iff lawful).mpr ⟨valid, deleteDocument selected,
        deleteDocument_wellFormed selected, rfl, deleteDocument_denotes selected⟩
    have accepted : ∀ {node}, parseDocument utf8Proc (deleteDocument selected).render = some node →
        XmlText (deleteDocument selected).render :=
      fun parses => ((parseDocument_eq_some_iff lawful).mp parses).1
    constructor
    · rw [← xmlText_deleteDocument_iff]
      constructor
      · intro isSome
        obtain ⟨node, parses⟩ := Option.isSome_iff_exists.mp isSome
        exact accepted parses
      · intro valid
        rw [accepts valid]
        rfl
    · intro node parses
      rw [accepts (accepted parses)] at parses
      exact (Option.some.inj parses).symm
  · intro etags valid
    have ending : XmlText ("</CompleteMultipartUpload>".toList ++ []) :=
      (xmlText_ascii_append_iff (ascii_of_forall (by decide))).mpr encodes_nil
    rw [List.append_nil] at ending
    have xmlText : XmlText (completionDocument etags).render := by
      rw [render_completionDocument, writeCompleteMultipartUploadRequest, List.append_assoc,
        xmlText_ascii_append_iff (ascii_of_forall (by decide))]
      exact xmlText_parts valid ending 0
    rw [← render_completionDocument]
    exact (parseDocument_eq_some_iff lawful).mpr ⟨xmlText, completionDocument etags,
      completionDocument_wellFormed etags, rfl, completionDocument_denotes etags⟩

theorem parseDocument_requests_markupKey :
    (parseDocument .standard (writeDeleteObjectsRequest
        ["skipped".toList, "]]> &<\r ".toList, []] 1 3)).isSome = true ∧
      parseDocument .standard (writeCompleteMultipartUploadRequest ["\"e\"".toList]) =
        some (completionTree ["\"e\"".toList]) := by
  have valid : ∀ key ∈ (["skipped".toList, "]]> &<\r ".toList, ([] : Text)].drop 1).take (3 - 1),
      XmlText key := by
    intro key member
    have isKey : key = "]]> &<\r ".toList ∨ key = [] := by simpa using member
    rcases isKey with rfl | rfl
    · exact encodes_ascii (by decide)
    · exact encodes_nil
  obtain ⟨deletes, completes⟩ := parseDocument_requests Utf8Proc.standard_lawful
  constructor
  · exact (deletes _ 1 3 (by decide) (by decide)).1.mpr valid
  · refine completes _ ?_
    intro etag member
    rw [List.mem_singleton.mp member]
    exact encodes_ascii (by decide)

end Httpfs.S3.Xml
