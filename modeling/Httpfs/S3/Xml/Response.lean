import Httpfs.S3.Xml.Writer

/-!
# Responses

What the program takes from the document of a response.  A result keeps the
defaults of its fields until a field is read; the reader of a field leaves in
it the text of the last child of that name it has seen.
-/

namespace Httpfs.S3.Xml

open Text

inductive S3XMLResponseType
  | unknown
  | multipartInitialization
  | multipartCompletion
  | error
  deriving DecidableEq, Repr

structure S3XMLResponse where
  type : S3XMLResponseType := .unknown
  uploadId : Text := []
  etag : Text := []
  errorCode : Text := []
  errorMessage : Text := []
  errorAccessKeyId : Text := []
  deriving DecidableEq, Repr

structure S3XMLError where
  code : Text
  message : Text
  accessKeyId : Text
  deriving DecidableEq, Repr

structure S3ListObjectsV2Object where
  key : Text
  lastModified : Text
  etag : Text
  size : Text
  deriving DecidableEq, Repr

structure S3ListObjectsV2Result where
  objects : List S3ListObjectsV2Object := []
  commonPrefixes : List Text := []
  continuationToken : Text := []
  deriving DecidableEq, Repr

structure S3DeleteObjectsError where
  key : Text
  code : Text
  message : Text
  deriving DecidableEq, Repr

structure S3DeleteObjectsResult where
  errors : List S3DeleteObjectsError := []
  deriving DecidableEq, Repr

/-! ## Fields -/

inductive ChildTextResult
  | missing
  | found
  | invalid
  deriving DecidableEq, Repr

def gcsS3Namespace : Text :=
  "http://doc.s3.amazonaws.com/2006-03-01".toList

def gcsStorageNamespace : Text :=
  "http://doc.storage.googleapis.com/2010-03-01".toList

/-- The namespaces of the services, with and without a slash at the end. -/
def supportedNamespaces : List Text :=
  [[], s3Namespace, gcsS3Namespace, gcsS3Namespace ++ "/".toList, gcsStorageNamespace,
    gcsStorageNamespace ++ "/".toList]

def hasSupportedNamespace (root : S3XMLNode) : Bool :=
  supportedNamespaces.contains root.namespaceUri

/-- The loop of `GetChildText`. -/
def childTextLoop (namespaceUri localName : Text) :
    List S3XMLNode → Nat → Text → ChildTextResult × Text
  | [], count, result =>
      (if count > 1 then .invalid else if count = 1 then .found else .missing, result)
  | child :: rest, count, result =>
      if child.localName ≠ localName ∨ child.namespaceUri ≠ namespaceUri then
        childTextLoop namespaceUri localName rest count result
      else if !child.children.isEmpty then (.invalid, result)
      else childTextLoop namespaceUri localName rest (count + 1) child.text

/-- The text of the only child of a name, in a result that is empty before. -/
def getChildText (parent : S3XMLNode) (namespaceUri localName : Text) : ChildTextResult × Text :=
  childTextLoop namespaceUri localName parent.children 0 []

/-- The text of a child that may be missing; none if there is no way to tell. -/
def getOptionalChildText (parent : S3XMLNode) (namespaceUri localName : Text) : Option Text :=
  match getChildText parent namespaceUri localName with
  | (.invalid, _) => none
  | (_, result) => some result

/-! ## Interpretation -/

/-- A field of an error, empty unless it is found. -/
def errorField (root : S3XMLNode) (localName : Text) : Text :=
  match getChildText root root.namespaceUri localName with
  | (.found, result) => result
  | _ => []

def interpretResponse (root : S3XMLNode) : S3XMLResponse :=
  if !hasSupportedNamespace root then {}
  else if root.localName = "InitiateMultipartUploadResult".toList then
    let (status, uploadId) := getChildText root root.namespaceUri "UploadId".toList
    if status = .found ∧ uploadId ≠ [] then { type := .multipartInitialization, uploadId }
    else { uploadId }
  else if root.localName = "CompleteMultipartUploadResult".toList then
    let (status, etag) := getChildText root root.namespaceUri "ETag".toList
    if status = .found ∧ etag ≠ [] then { type := .multipartCompletion, etag } else { etag }
  else if root.localName ≠ "Error".toList then {}
  else
    { type := .error
      errorCode := errorField root "Code".toList
      errorMessage := errorField root "Message".toList
      errorAccessKeyId := errorField root "AWSAccessKeyId".toList }

/-- A `Contents` element; none if it makes the listing invalid. -/
def interpretObject (namespaceUri : Text) (child : S3XMLNode) : Option S3ListObjectsV2Object :=
  match getChildText child namespaceUri "Key".toList with
  | (.found, key) =>
      if key = [] then none
      else do
        let lastModified ← getOptionalChildText child namespaceUri "LastModified".toList
        let etag ← getOptionalChildText child namespaceUri "ETag".toList
        let size ← getOptionalChildText child namespaceUri "Size".toList
        some { key, lastModified, etag, size }
  | _ => none

/-- The loop of `InterpretListObjectsV2` over the children of the root. -/
def interpretListChildren (namespaceUri : Text) :
    List S3XMLNode → S3ListObjectsV2Result → Option S3ListObjectsV2Result
  | [], result => some result
  | child :: rest, result =>
      if child.namespaceUri ≠ namespaceUri then interpretListChildren namespaceUri rest result
      else if child.localName = "Contents".toList then
        match interpretObject namespaceUri child with
        | none => none
        | some object =>
            interpretListChildren namespaceUri rest
              { result with objects := result.objects ++ [object] }
      else if child.localName = "CommonPrefixes".toList then
        match getChildText child namespaceUri "Prefix".toList with
        | (.invalid, _) => none
        | (status, commonPrefix) =>
            interpretListChildren namespaceUri rest
              (if status = .found ∧ commonPrefix ≠ [] then
                { result with commonPrefixes := result.commonPrefixes ++ [commonPrefix] }
              else result)
      else interpretListChildren namespaceUri rest result

def interpretListObjectsV2 (root : S3XMLNode) : Option S3ListObjectsV2Result :=
  if !hasSupportedNamespace root || root.localName ≠ "ListBucketResult".toList then none
  else do
    let continuationToken ←
      getOptionalChildText root root.namespaceUri "NextContinuationToken".toList
    interpretListChildren root.namespaceUri root.children { continuationToken }

/-- An `Error` element; none if it makes the result invalid. -/
def interpretDeleteError (namespaceUri : Text) (child : S3XMLNode) : Option S3DeleteObjectsError :=
  match getChildText child namespaceUri "Key".toList with
  | (.found, key) =>
      if key = [] then none
      else
        match getChildText child namespaceUri "Code".toList with
        | (.found, code) =>
            if code = [] then none
            else do
              let message ← getOptionalChildText child namespaceUri "Message".toList
              some { key, code, message }
        | _ => none
  | _ => none

/-- The loop of `InterpretDeleteObjects` over the children of the root. -/
def interpretDeleteChildren (namespaceUri : Text) :
    List S3XMLNode → S3DeleteObjectsResult → Option S3DeleteObjectsResult
  | [], result => some result
  | child :: rest, result =>
      if child.namespaceUri ≠ namespaceUri ∨ child.localName ≠ "Error".toList then
        interpretDeleteChildren namespaceUri rest result
      else
        match interpretDeleteError namespaceUri child with
        | none => none
        | some error =>
            interpretDeleteChildren namespaceUri rest { errors := result.errors ++ [error] }

def interpretDeleteObjects (root : S3XMLNode) : Option S3DeleteObjectsResult :=
  if !hasSupportedNamespace root || root.localName ≠ "DeleteResult".toList then none
  else interpretDeleteChildren root.namespaceUri root.children {}

/-! ## Parsing -/

variable (utf8Proc : Utf8Proc)

def tryParse (input : Text) : Option S3XMLResponse :=
  (parseDocument utf8Proc input).map interpretResponse

def tryParseError (input : Text) : Option S3XMLError :=
  match tryParse utf8Proc input with
  | none => none
  | some response =>
      if response.type ≠ .error then none
      else some ⟨response.errorCode, response.errorMessage, response.errorAccessKeyId⟩

def tryParseListObjectsV2 (input : Text) : Option S3ListObjectsV2Result :=
  (parseDocument utf8Proc input).bind interpretListObjectsV2

def tryParseDeleteObjects (input : Text) : Option S3DeleteObjectsResult :=
  (parseDocument utf8Proc input).bind interpretDeleteObjects

end Httpfs.S3.Xml
