import Httpfs.S3.Xml.Document
import Httpfs.S3.Xml.Response

/-!
# Listings and delete results

When an element tree presents a listing, in the terms of the service and not of
the loops that read it: which children are fields, which are entries, and which
are somebody else's.
-/

namespace Httpfs.S3.Xml

open Text

/-! ## Fields -/

namespace S3XMLNode

def isNamed (namespaceUri localName : Text) (node : S3XMLNode) : Bool :=
  node.localName = localName && node.namespaceUri = namespaceUri

theorem isNamed_iff {namespaceUri localName : Text} {node : S3XMLNode} :
    node.isNamed namespaceUri localName = true ↔
      node.localName = localName ∧ node.namespaceUri = namespaceUri := by
  simp [isNamed]

/-- The children of a name in a namespace. -/
def childrenNamed (node : S3XMLNode) (namespaceUri localName : Text) : List S3XMLNode :=
  node.children.filter (isNamed namespaceUri localName)

/-- The node has the field at most once, and then as plain text. -/
def HasField (node : S3XMLNode) (namespaceUri localName : Text) (value : Option Text) : Prop :=
  node.childrenNamed namespaceUri localName =
    value.toList.map fun text => .mk localName namespaceUri text []

/-- The field occurs twice or has element children. -/
def IllFormedField (node : S3XMLNode) (namespaceUri localName : Text) : Prop :=
  2 ≤ (node.childrenNamed namespaceUri localName).length ∨
    ∃ child ∈ node.childrenNamed namespaceUri localName, child.children ≠ []

end S3XMLNode

open S3XMLNode

section Fields

variable {namespaceUri localName : Text}

private theorem childTextLoop_named {child : S3XMLNode}
    (named : child.isNamed namespaceUri localName = true) (rest : List S3XMLNode) (count : Nat)
    (result : Text) :
    childTextLoop namespaceUri localName (child :: rest) count result =
      if !child.children.isEmpty then (.invalid, result)
      else childTextLoop namespaceUri localName rest (count + 1) child.text := by
  have reads : ¬ (child.localName ≠ localName ∨ child.namespaceUri ≠ namespaceUri) := by
    simp [isNamed_iff.mp named]
  rw [childTextLoop, if_neg reads]

private theorem childTextLoop_skips {child : S3XMLNode}
    (other : ¬ child.isNamed namespaceUri localName = true) (rest : List S3XMLNode) (count : Nat)
    (result : Text) :
    childTextLoop namespaceUri localName (child :: rest) count result =
      childTextLoop namespaceUri localName rest count result := by
  have skips : child.localName ≠ localName ∨ child.namespaceUri ≠ namespaceUri := by
    rw [isNamed_iff] at other
    tauto
  rw [childTextLoop, if_pos skips]

/-- The loop looks only at the children of the name. -/
private theorem childTextLoop_filter (children : List S3XMLNode) (count : Nat) (result : Text) :
    childTextLoop namespaceUri localName children count result =
      childTextLoop namespaceUri localName (children.filter (isNamed namespaceUri localName))
        count result := by
  induction children generalizing count result with
  | nil => rfl
  | cons child rest ih =>
      by_cases named : child.isNamed namespaceUri localName = true
      · rw [List.filter_cons_of_pos named, childTextLoop_named named, childTextLoop_named named, ih]
      · rw [List.filter_cons_of_neg named, childTextLoop_skips named, ih]

private theorem childTextLoop_invalid {children : List S3XMLNode} {count : Nat} {result : Text}
    (named : ∀ child ∈ children, child.isNamed namespaceUri localName = true)
    (illFormed : 2 ≤ count + children.length ∨ ∃ child ∈ children, child.children ≠ []) :
    (childTextLoop namespaceUri localName children count result).1 = .invalid := by
  induction children generalizing count result with
  | nil =>
      have many : 1 < count := by simpa [Nat.succ_le_iff] using illFormed
      rw [childTextLoop, if_pos many]
  | cons child rest ih =>
      rw [childTextLoop_named (named child List.mem_cons_self)]
      split
      · rfl
      · rename_i leaf
        apply ih (fun child member => named child (List.mem_cons_of_mem _ member))
        rcases illFormed with many | ⟨other, member, nested⟩
        · left
          rw [List.length_cons] at many
          omega
        · rcases List.mem_cons.mp member with rfl | later
          · simp only [Bool.not_eq_true', Bool.not_eq_false, List.isEmpty_iff] at leaf
            contradiction
          · exact .inr ⟨other, later, nested⟩

variable {node : S3XMLNode}

theorem getChildText_field {value : Option Text}
    (hasField : node.HasField namespaceUri localName value) :
    getChildText node namespaceUri localName =
      (if value.isSome then .found else .missing, value.getD []) := by
  rw [getChildText, childTextLoop_filter]
  change childTextLoop _ _ (node.childrenNamed namespaceUri localName) _ _ = _
  rw [hasField]
  cases value with
  | none => rfl
  | some text =>
      have named : isNamed namespaceUri localName (.mk localName namespaceUri text []) = true :=
        isNamed_iff.mpr ⟨rfl, rfl⟩
      rw [Option.toList_some, List.map_cons, List.map_nil, childTextLoop_named named]
      rfl

theorem getOptionalChildText_field {value : Option Text}
    (hasField : node.HasField namespaceUri localName value) :
    getOptionalChildText node namespaceUri localName = some (value.getD []) := by
  rw [getOptionalChildText, getChildText_field hasField]
  cases value <;> rfl

theorem getChildText_illFormed (illFormed : node.IllFormedField namespaceUri localName) :
    ∃ result, getChildText node namespaceUri localName = (.invalid, result) := by
  have invalid : (getChildText node namespaceUri localName).1 = .invalid := by
    rw [getChildText, childTextLoop_filter]
    apply childTextLoop_invalid
    · intro child member
      exact (List.mem_filter.mp member).2
    · rcases illFormed with many | nested
      · exact .inl (by simpa [childrenNamed] using many)
      · exact .inr nested
  exact ⟨_, Prod.ext invalid rfl⟩

theorem getOptionalChildText_illFormed (illFormed : node.IllFormedField namespaceUri localName) :
    getOptionalChildText node namespaceUri localName = none := by
  rcases getChildText_illFormed illFormed with ⟨result, invalid⟩
  rw [getOptionalChildText, invalid]

end Fields

/-! ## Listings -/

/-- An object as the service lists it. -/
structure ListedObject where
  key : Text
  lastModified : Option Text
  etag : Option Text
  size : Option Text
  deriving DecidableEq, Repr

def ListedObject.result (object : ListedObject) : S3ListObjectsV2Object :=
  ⟨object.key, object.lastModified.getD [], object.etag.getD [], object.size.getD []⟩

structure PresentsObject (namespaceUri : Text) (node : S3XMLNode) (object : ListedObject) :
    Prop where
  named : node.isNamed namespaceUri "Contents".toList = true
  key : node.HasField namespaceUri "Key".toList (some object.key)
  nonempty : object.key ≠ []
  lastModified : node.HasField namespaceUri "LastModified".toList object.lastModified
  etag : node.HasField namespaceUri "ETag".toList object.etag
  size : node.HasField namespaceUri "Size".toList object.size

structure PresentsCommonPrefix (namespaceUri : Text) (node : S3XMLNode) (commonPrefix : Text) :
    Prop where
  named : node.isNamed namespaceUri "CommonPrefixes".toList = true
  value : node.HasField namespaceUri "Prefix".toList (some commonPrefix)
  nonempty : commonPrefix ≠ []

/-- The children of the root list the objects and common prefixes in order,
among elements that are no entries. -/
inductive ListsEntries (namespaceUri : Text) :
    List S3XMLNode → List ListedObject → List Text → Prop
  | nil : ListsEntries namespaceUri [] [] []
  | object {node : S3XMLNode} {rest : List S3XMLNode} {object : ListedObject}
      {objects : List ListedObject} {commonPrefixes : List Text}
      (presents : PresentsObject namespaceUri node object)
      (later : ListsEntries namespaceUri rest objects commonPrefixes) :
      ListsEntries namespaceUri (node :: rest) (object :: objects) commonPrefixes
  | commonPrefix {node : S3XMLNode} {rest : List S3XMLNode} {commonPrefix : Text}
      {objects : List ListedObject} {commonPrefixes : List Text}
      (presents : PresentsCommonPrefix namespaceUri node commonPrefix)
      (later : ListsEntries namespaceUri rest objects commonPrefixes) :
      ListsEntries namespaceUri (node :: rest) objects (commonPrefix :: commonPrefixes)
  | other {node : S3XMLNode} {rest : List S3XMLNode} {objects : List ListedObject}
      {commonPrefixes : List Text}
      (noEntry : node.namespaceUri = namespaceUri → node.localName ≠ "Contents".toList ∧
        node.localName ≠ "CommonPrefixes".toList)
      (later : ListsEntries namespaceUri rest objects commonPrefixes) :
      ListsEntries namespaceUri (node :: rest) objects commonPrefixes

structure Listing where
  objects : List ListedObject
  commonPrefixes : List Text
  continuationToken : Option Text
  deriving DecidableEq, Repr

def Listing.result (listing : Listing) : S3ListObjectsV2Result :=
  ⟨listing.objects.map ListedObject.result, listing.commonPrefixes,
    listing.continuationToken.getD []⟩

structure PresentsListing (listing : Listing) (root : S3XMLNode) : Prop where
  localName : root.localName = "ListBucketResult".toList
  supported : root.namespaceUri ∈ supportedNamespaces
  token : root.HasField root.namespaceUri "NextContinuationToken".toList listing.continuationToken
  entries : ListsEntries root.namespaceUri root.children listing.objects listing.commonPrefixes

section Listings

variable {namespaceUri : Text} {node : S3XMLNode}

private theorem interpretObject_eq {object : ListedObject}
    (presents : PresentsObject namespaceUri node object) :
    interpretObject namespaceUri node = some object.result := by
  rw [interpretObject, getChildText_field presents.key]
  simp only [Option.isSome_some, if_true, Option.getD_some]
  rw [if_neg presents.nonempty, getOptionalChildText_field presents.lastModified,
    getOptionalChildText_field presents.etag, getOptionalChildText_field presents.size]
  rfl

/-- The loop appends the entries to what it has. -/
private theorem interpretListChildren_eq {children : List S3XMLNode} {objects : List ListedObject}
    {commonPrefixes : List Text} (entries : ListsEntries namespaceUri children objects commonPrefixes)
    (result : S3ListObjectsV2Result) :
    interpretListChildren namespaceUri children result =
      some { result with
        objects := result.objects ++ objects.map ListedObject.result
        commonPrefixes := result.commonPrefixes ++ commonPrefixes } := by
  induction entries generalizing result with
  | nil => simp [interpretListChildren]
  | object presents later ih =>
      rcases isNamed_iff.mp presents.named with ⟨isContents, own⟩
      rw [interpretListChildren, if_neg (not_not.mpr own), if_pos isContents,
        interpretObject_eq presents]
      dsimp only
      rw [ih]
      simp [List.append_assoc]
  | @commonPrefix child rest commonPrefix objects commonPrefixes presents later ih =>
      rcases isNamed_iff.mp presents.named with ⟨isCommonPrefixes, own⟩
      have notContents : child.localName ≠ "Contents".toList := by
        rw [isCommonPrefixes]
        decide
      rw [interpretListChildren, if_neg (not_not.mpr own), if_neg notContents,
        if_pos isCommonPrefixes, getChildText_field presents.value]
      simp only [Option.isSome_some, if_true, Option.getD_some]
      rw [if_pos ⟨trivial, presents.nonempty⟩, ih]
      simp [List.append_assoc]
  | @other child rest objects commonPrefixes noEntry later ih =>
      rw [interpretListChildren]
      by_cases own : child.namespaceUri = namespaceUri
      · rcases noEntry own with ⟨notContents, notCommonPrefixes⟩
        rw [if_neg (not_not.mpr own), if_neg notContents, if_neg notCommonPrefixes, ih]
      · rw [if_pos own, ih]

theorem interpretListObjectsV2_eq {listing : Listing} {root : S3XMLNode}
    (presents : PresentsListing listing root) :
    interpretListObjectsV2 root = some listing.result := by
  have supported : hasSupportedNamespace root = true := by
    simpa [hasSupportedNamespace] using presents.supported
  have accepts : ¬ (!hasSupportedNamespace root ||
      decide (root.localName ≠ "ListBucketResult".toList)) = true := by
    simp [supported, presents.localName]
  rw [interpretListObjectsV2, if_neg accepts, getOptionalChildText_field presents.token]
  dsimp only [Option.bind_eq_bind, Option.bind_some]
  rw [interpretListChildren_eq presents.entries]
  rfl

/-! ## Listings that are rejected -/

/-- An object with an ill-formed field, without a key or with an empty one. -/
structure RejectedObject (namespaceUri : Text) (node : S3XMLNode) : Prop where
  named : node.isNamed namespaceUri "Contents".toList = true
  wrong : (∃ field ∈ ["Key", "LastModified", "ETag", "Size"],
      node.IllFormedField namespaceUri field.toList) ∨
    node.HasField namespaceUri "Key".toList none ∨ node.HasField namespaceUri "Key".toList (some [])

structure RejectedCommonPrefix (namespaceUri : Text) (node : S3XMLNode) : Prop where
  named : node.isNamed namespaceUri "CommonPrefixes".toList = true
  wrong : node.IllFormedField namespaceUri "Prefix".toList

inductive RejectedListing (root : S3XMLNode) : Prop
  | token (wrong : root.IllFormedField root.namespaceUri "NextContinuationToken".toList)
  | object {node : S3XMLNode} (child : node ∈ root.children)
      (rejected : RejectedObject root.namespaceUri node)
  | commonPrefix {node : S3XMLNode} (child : node ∈ root.children)
      (rejected : RejectedCommonPrefix root.namespaceUri node)

private theorem interpretObject_eq_none (rejected : RejectedObject namespaceUri node) :
    interpretObject namespaceUri node = none := by
  rcases rejected.wrong with ⟨field, member, illFormed⟩ | missing | empty
  · rw [interpretObject]
    split
    · rename_i key found
      split
      · rfl
      · simp only [List.mem_cons, List.not_mem_nil, or_false] at member
        rcases member with rfl | rfl | rfl | rfl
        · rcases getChildText_illFormed illFormed with ⟨result, invalid⟩
          rw [found] at invalid
          cases (Prod.mk.inj invalid).1
        · rw [getOptionalChildText_illFormed illFormed]
          rfl
        · rw [getOptionalChildText_illFormed illFormed]
          cases getOptionalChildText node namespaceUri "LastModified".toList <;> rfl
        · rw [getOptionalChildText_illFormed illFormed]
          cases getOptionalChildText node namespaceUri "LastModified".toList with
          | none => rfl
          | some lastModified =>
              cases getOptionalChildText node namespaceUri "ETag".toList <;> rfl
    · rfl
  · rw [interpretObject, getChildText_field missing]
    rfl
  · rw [interpretObject, getChildText_field empty]
    rfl

/-- One rejected child is enough, wherever it stands. -/
private theorem interpretListChildren_eq_none {children : List S3XMLNode} (member : node ∈ children)
    (rejected : RejectedObject namespaceUri node ∨ RejectedCommonPrefix namespaceUri node)
    (result : S3ListObjectsV2Result) : interpretListChildren namespaceUri children result = none := by
  induction children generalizing result with
  | nil => contradiction
  | cons child rest ih =>
      rcases List.mem_cons.mp member with rfl | later
      · rw [interpretListChildren]
        rcases rejected with object | commonPrefix
        · rcases isNamed_iff.mp object.named with ⟨isContents, own⟩
          rw [if_neg (not_not.mpr own), if_pos isContents, interpretObject_eq_none object]
        · rcases isNamed_iff.mp commonPrefix.named with ⟨isCommonPrefixes, own⟩
          have notContents : node.localName ≠ "Contents".toList := by
            rw [isCommonPrefixes]
            decide
          rcases getChildText_illFormed commonPrefix.wrong with ⟨result, invalid⟩
          rw [if_neg (not_not.mpr own), if_neg notContents, if_pos isCommonPrefixes, invalid]
      · rw [interpretListChildren]
        split
        · exact ih later result
        · split
          · split
            · rfl
            · exact ih later _
          · split
            · split
              · rfl
              · exact ih later _
            · exact ih later result

theorem interpretListObjectsV2_eq_none {root : S3XMLNode} (rejected : RejectedListing root) :
    interpretListObjectsV2 root = none := by
  rw [interpretListObjectsV2]
  split
  · rfl
  · cases rejected with
    | token wrong =>
        rw [getOptionalChildText_illFormed wrong]
        rfl
    | object child rejected =>
        cases getOptionalChildText root root.namespaceUri "NextContinuationToken".toList with
        | none => rfl
        | some token => exact interpretListChildren_eq_none child (.inl rejected) _
    | commonPrefix child rejected =>
        cases getOptionalChildText root root.namespaceUri "NextContinuationToken".toList with
        | none => rfl
        | some token => exact interpretListChildren_eq_none child (.inr rejected) _

end Listings

/-! ## Delete results -/

/-- An error as the service reports it. -/
structure ReportedError where
  key : Text
  code : Text
  message : Option Text
  deriving DecidableEq, Repr

def ReportedError.result (error : ReportedError) : S3DeleteObjectsError :=
  ⟨error.key, error.code, error.message.getD []⟩

structure PresentsError (namespaceUri : Text) (node : S3XMLNode) (error : ReportedError) :
    Prop where
  named : node.isNamed namespaceUri "Error".toList = true
  key : node.HasField namespaceUri "Key".toList (some error.key)
  keyNonempty : error.key ≠ []
  code : node.HasField namespaceUri "Code".toList (some error.code)
  codeNonempty : error.code ≠ []
  message : node.HasField namespaceUri "Message".toList error.message

inductive ReportsErrors (namespaceUri : Text) : List S3XMLNode → List ReportedError → Prop
  | nil : ReportsErrors namespaceUri [] []
  | error {node : S3XMLNode} {rest : List S3XMLNode} {error : ReportedError}
      {errors : List ReportedError} (presents : PresentsError namespaceUri node error)
      (later : ReportsErrors namespaceUri rest errors) :
      ReportsErrors namespaceUri (node :: rest) (error :: errors)
  | other {node : S3XMLNode} {rest : List S3XMLNode} {errors : List ReportedError}
      (noError : node.isNamed namespaceUri "Error".toList = false)
      (later : ReportsErrors namespaceUri rest errors) :
      ReportsErrors namespaceUri (node :: rest) errors

structure PresentsErrors (errors : List ReportedError) (root : S3XMLNode) : Prop where
  localName : root.localName = "DeleteResult".toList
  supported : root.namespaceUri ∈ supportedNamespaces
  entries : ReportsErrors root.namespaceUri root.children errors

private theorem interpretDeleteError_eq {namespaceUri : Text} {node : S3XMLNode}
    {error : ReportedError} (presents : PresentsError namespaceUri node error) :
    interpretDeleteError namespaceUri node = some error.result := by
  rw [interpretDeleteError, getChildText_field presents.key]
  simp only [Option.isSome_some, if_true, Option.getD_some]
  rw [if_neg presents.keyNonempty, getChildText_field presents.code]
  simp only [Option.isSome_some, if_true, Option.getD_some]
  rw [if_neg presents.codeNonempty, getOptionalChildText_field presents.message]
  rfl

private theorem interpretDeleteChildren_eq {namespaceUri : Text} {children : List S3XMLNode}
    {errors : List ReportedError} (entries : ReportsErrors namespaceUri children errors)
    (result : S3DeleteObjectsResult) :
    interpretDeleteChildren namespaceUri children result =
      some ⟨result.errors ++ errors.map ReportedError.result⟩ := by
  induction entries generalizing result with
  | nil => simp [interpretDeleteChildren]
  | @error child rest error errors presents later ih =>
      rcases isNamed_iff.mp presents.named with ⟨isError, own⟩
      have takes : ¬ (child.namespaceUri ≠ namespaceUri ∨ child.localName ≠ "Error".toList) := by
        simp [own, isError]
      rw [interpretDeleteChildren, if_neg takes, interpretDeleteError_eq presents]
      dsimp only
      rw [ih]
      simp [List.append_assoc]
  | @other child rest errors noError later ih =>
      have skips : child.namespaceUri ≠ namespaceUri ∨ child.localName ≠ "Error".toList := by
        have notBoth := mt isNamed_iff.mpr (Bool.eq_false_iff.mp noError)
        tauto
      rw [interpretDeleteChildren, if_pos skips, ih]

theorem interpretDeleteObjects_eq {errors : List ReportedError} {root : S3XMLNode}
    (presents : PresentsErrors errors root) :
    interpretDeleteObjects root = some ⟨errors.map ReportedError.result⟩ := by
  have supported : hasSupportedNamespace root = true := by
    simpa [hasSupportedNamespace] using presents.supported
  have accepts : ¬ (!hasSupportedNamespace root ||
      decide (root.localName ≠ "DeleteResult".toList)) = true := by
    simp [supported, presents.localName]
  rw [interpretDeleteObjects, if_neg accepts, interpretDeleteChildren_eq presents.entries]
  rfl

/-! ## The wire -/

/-- Listings and delete results are read back from every document that presents
them, and from no document that is cut off or presents an object twice over. -/
theorem tryParse_presented {utf8Proc : Utf8Proc} (lawful : utf8Proc.Lawful) {document : Document}
    (wellFormed : document.WellFormed) (valid : XmlText document.render) {root : S3XMLNode}
    (denotes : document.Denotes root) :
    (∀ listing, PresentsListing listing root →
        tryParseListObjectsV2 utf8Proc document.render = some listing.result) ∧
      (∀ errors, PresentsErrors errors root →
        tryParseDeleteObjects utf8Proc document.render =
          some ⟨errors.map ReportedError.result⟩) ∧
      (RejectedListing root → tryParseListObjectsV2 utf8Proc document.render = none) ∧
      ∀ front, front <+: document.render → front.length < document.upToRoot.length →
        tryParseListObjectsV2 utf8Proc front = none ∧
          tryParseDeleteObjects utf8Proc front = none := by
  have parses : parseDocument utf8Proc document.render = some root :=
    (parseDocument_eq_some_iff lawful).mpr ⟨valid, document, wellFormed, rfl, denotes⟩
  refine ⟨?_, ?_, ?_, ?_⟩
  · intro listing presents
    rw [tryParseListObjectsV2, parses]
    exact interpretListObjectsV2_eq presents
  · intro errors presents
    rw [tryParseDeleteObjects, parses]
    exact interpretDeleteObjects_eq presents
  · intro rejected
    rw [tryParseListObjectsV2, parses]
    exact interpretListObjectsV2_eq_none rejected
  · intro front isPrefix short
    have truncated := parseDocument_truncated lawful wellFormed denotes isPrefix short
    rw [tryParseListObjectsV2, tryParseDeleteObjects, truncated]
    exact ⟨rfl, rfl⟩

private def samplePage : Document where
  bom := false
  declaration := none
  before := []
  root := .element (serviceTag "ListBucketResult".toList)
    (.byte ' ' (textElement "Name".toList "b".toList
      (textElement "NextContinuationToken".toList "t".toList
        (.element (plainTag "Contents".toList)
          (textElement "Key".toList "a&b".toList (textElement "Size".toList "3".toList .nil)) []
          (.element (plainTag "CommonPrefixes".toList)
            (textElement "Prefix".toList "c/".toList .nil) [] .nil))))) []
  after := []

private def sampleRoot : S3XMLNode :=
  .mk "ListBucketResult".toList s3Namespace " ".toList
    [.mk "Name".toList s3Namespace "b".toList [],
      .mk "NextContinuationToken".toList s3Namespace "t".toList [],
      .mk "Contents".toList s3Namespace []
        [.mk "Key".toList s3Namespace "a&b".toList [], .mk "Size".toList s3Namespace "3".toList []],
      .mk "CommonPrefixes".toList s3Namespace []
        [.mk "Prefix".toList s3Namespace "c/".toList []]]

private def sampleListing : Listing :=
  ⟨[⟨"a&b".toList, none, none, some "3".toList⟩], ["c/".toList], some "t".toList⟩

private theorem samplePage_wellFormed : samplePage.WellFormed := by
  constructor
  · rintro declaration ⟨⟩
  · exact Document.miscWellFormed_nil
  · have isName : ∀ name ∈ ["ListBucketResult", "Name", "NextContinuationToken", "Contents", "Key",
        "Size", "CommonPrefixes", "Prefix"], IsName name.toList := by
      simp only [List.mem_cons, List.not_mem_nil, or_false]
      rintro name (rfl | rfl | rfl | rfl | rfl | rfl | rfl | rfl) <;> exact ⟨by decide, by decide⟩
    have nothing : Content.nil.WellFormed := trivial
    have object := @textElement_wellFormed _ "a&b".toList _ (isName "Key" (by decide))
      (@textElement_wellFormed _ "3".toList _ (isName "Size" (by decide)) nothing)
    have commonPrefix := @textElement_wellFormed _ "c/".toList _ (isName "Prefix" (by decide)) nothing
    have contents := plainElement_wellFormed (isName "Contents" (by decide)) object
      (plainElement_wellFormed (isName "CommonPrefixes" (by decide)) commonPrefix nothing)
    have token := @textElement_wellFormed _ "t".toList _
      (isName "NextContinuationToken" (by decide)) contents
    have inner := @textElement_wellFormed _ "b".toList _ (isName "Name" (by decide)) token
    exact ⟨serviceTag_wellFormed (isName "ListBucketResult" (by decide)),
      ⟨by decide, by decide, by decide, inner⟩, blank_nil, trivial⟩
  · decide
  · exact Document.miscWellFormed_nil

private theorem samplePage_denotes : samplePage.Denotes sampleRoot := by
  refine .element serviceTag_resolves ?_ .nil
  rw [serviceTag_scope]
  exact .byte (textElement_denotes (textElement_denotes
    (.element plainTag_resolves (textElement_denotes (textElement_denotes .nil))
      (.element plainTag_resolves (textElement_denotes .nil) .nil))))

theorem tryParse_presented_samplePage :
    tryParseListObjectsV2 .standard samplePage.render = some sampleListing.result ∧
      tryParseListObjectsV2 .standard (samplePage.render.take 150) = none := by
  have xmlText : XmlText samplePage.render := encodes_ascii (by decide +kernel)
  obtain ⟨listings, -, -, truncated⟩ := tryParse_presented Utf8Proc.standard_lawful
    samplePage_wellFormed xmlText samplePage_denotes
  constructor
  · apply listings
    refine ⟨rfl, by decide, rfl, .other (by decide) (.other (by decide) (.object ?_
      (.commonPrefix ?_ .nil)))⟩
    · exact ⟨by decide, rfl, by decide, rfl, rfl, rfl⟩
    · exact ⟨by decide, rfl, by decide⟩
  · exact (truncated _ (List.take_prefix _ _) (by decide +kernel)).1

end Httpfs.S3.Xml
