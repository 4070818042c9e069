import Httpfs.S3.Glob.Match
import Httpfs.S3.Url

/-!
# The S3 glob walk

`S3GlobResult` expands a pattern one list request at a time.  A flat walk
pages through all keys below the literal part of the pattern; a hierarchical
walk lists one directory at a time and keeps the directories still to visit on
a stack.  The list service and the settings are the environment of a walk.
-/

namespace Httpfs.S3.Glob

open Text
open S3GlobMatchMode

inductive S3ListMode
  | flat
  | hierarchical
  deriving DecidableEq, Repr

inductive GlobType
  | hierarchical
  | listing
  | unknown
  deriving DecidableEq, Repr

/-- One page of a listing; names are still encoded. -/
structure S3ListObjectsV2Result where
  objects : List Text
  commonPrefixes : List Text
  continuationToken : Text
  deriving DecidableEq, Repr

/-- The list request on the wire. -/
structure S3ListQuery where
  bucket : Text
  keyPrefix : Text
  continuationToken : Text
  mode : S3ListMode
  deriving DecidableEq, Repr

/-- What a walk uses of its surroundings: URL decoding and segment matching
of the host system, the setting `s3_allow_recursive_globbing` when it is set,
and the list service. -/
structure Environment where
  decode : Text → Text
  glob : Text → Text → Bool
  allowRecursiveGlobbing : Option Bool
  service : S3ListQuery → S3ListObjectsV2Result

structure S3GlobResult where
  globPattern : Text
  finished : Bool := false
  authParams : S3AuthParams
  sharedPath : Text := []
  parsedS3Url : ParsedS3Url := {}
  mainContinuationToken : Text := []
  currentCommonPrefix : Text := []
  commonPrefixContinuationToken : Text := []
  commonPrefixes : List Text := []
  globType : GlobType := .unknown
  expandedFiles : List Text := []
  deriving DecidableEq, Repr

variable (environment : Environment)

/-! ## Opening a walk -/

/-- The constructor: a pattern without a wildcard stands for itself. -/
def openGlob (globPattern : Text) (authParams : S3AuthParams) : Except ErrorData S3GlobResult :=
  if authParams.s3UrlCompatibilityMode then
    pure { globPattern, authParams, expandedFiles := [globPattern], finished := true }
  else do
    let (parsedS3Url, authParams) ← resolve environment.decode globPattern authParams
    match findFirstOf "*[\\".toList parsedS3Url.trimmedS3Url with
    | none =>
        pure { globPattern, authParams, parsedS3Url, expandedFiles := [globPattern],
               finished := true }
    | some firstWildcardPos =>
        pure { globPattern, authParams, parsedS3Url,
               sharedPath := substr parsedS3Url.trimmedS3Url 0 firstWildcardPos }

/-! ## List requests -/

/-- `AWSListObjectV2::Request` where the request succeeds. -/
def listRequest (authParams : S3AuthParams) (path continuationToken : Text) (mode : S3ListMode) :
    Except ErrorData S3ListObjectsV2Result := do
  let parsedUrl ← parse path authParams
  pure (environment.service ⟨parsedUrl.bucket, parsedUrl.key, continuationToken, mode⟩)

/-- `AppendFileList`: the decoded keys that are no directory markers. -/
def listedFiles (response : S3ListObjectsV2Result) : List Text :=
  (response.objects.map environment.decode).filter fun key => key.getLast? ≠ some '/'

/-! ## Results -/

/-- Whether the walk reports a listed key. -/
def accepts (glob : Text → Text → Bool) (parsedS3Url : ParsedS3Url) (key : Text) : Bool :=
  matchSegments glob completeMode (segments parsedS3Url.key) (segments key)

/-- The URL under which a listed key is reported. -/
def resultFullUrl (parsedS3Url : ParsedS3Url) (key : Text) : Text :=
  let url := parsedS3Url.urlPrefix ++ parsedS3Url.bucket ++ "/".toList ++ key
  if parsedS3Url.queryParam.isEmpty then url else url ++ '?' :: parsedS3Url.queryParam

def appendMatchingFiles (result : S3GlobResult) (s3Keys : List Text) : S3GlobResult :=
  { result with
    expandedFiles := result.expandedFiles ++
      (s3Keys.filter (accepts environment.glob result.parsedS3Url)).map
        (resultFullUrl result.parsedS3Url) }

/-! ## Walking -/

def selectNextCommonPrefix (result : S3GlobResult) : S3GlobResult :=
  match result.commonPrefixes.getLast? with
  | none => { result with currentCommonPrefix := [] }
  | some last =>
      { result with
        currentCommonPrefix := last
        commonPrefixes := result.commonPrefixes.dropLast }

def containsDenseDirectories (s3Keys : List Text) : Bool :=
  let directories := s3Keys.map fun key => (segments key).dropLast
  directories.dedup.length * 100 < s3Keys.length

def shouldInvestigateRecursiveGlob (result : S3GlobResult) : Bool :=
  if result.globType ≠ .unknown || contains result.parsedS3Url.key "**".toList then false
  else environment.allowRecursiveGlobbing.getD true

/-- Choose the strategy from the first page; a dense page is listed again by directory. -/
def selectGlobType (result : S3GlobResult) (response : S3ListObjectsV2Result) :
    Except ErrorData (S3GlobResult × S3ListObjectsV2Result) :=
  if !containsDenseDirectories (listedFiles environment response) then
    pure ({ result with globType := .listing }, response)
  else do
    let response ← listRequest environment result.authParams result.sharedPath
      result.mainContinuationToken .hierarchical
    pure ({ result with globType := .hierarchical }, response)

def scanTopLevel (result : S3GlobResult) : Except ErrorData (S3GlobResult × List Text) :=
  if !result.commonPrefixes.isEmpty then
    throw (.internal "We have common prefixes but we are doing a top-level request")
  else do
    let listMode : S3ListMode :=
      if result.globType = .hierarchical then .hierarchical else .flat
    let response ← listRequest environment result.authParams result.sharedPath
      result.mainContinuationToken listMode
    let (result, response) ←
      if shouldInvestigateRecursiveGlob environment result &&
          !response.continuationToken.isEmpty then
        selectGlobType environment result response
      else pure (result, response)
    pure (selectNextCommonPrefix
      { result with
        mainContinuationToken := response.continuationToken
        commonPrefixes := response.commonPrefixes },
      listedFiles environment response)

/-- List one page of the current directory if the pattern may match below it. -/
def scanCurrentCommonPrefix (result : S3GlobResult) :
    Except ErrorData (S3GlobResult × List Text) := do
  let prefixPath := result.parsedS3Url.urlPrefix ++ result.parsedS3Url.bucket ++ "/".toList ++
    result.currentCommonPrefix
  let result :=
    { result with currentCommonPrefix := environment.decode result.currentCommonPrefix }
  let (result, s3Keys) ←
    if matchSegments environment.glob prefixMode (segments result.parsedS3Url.key)
        (segments result.currentCommonPrefix) then do
      let response ← listRequest environment result.authParams (environment.decode prefixPath)
        result.commonPrefixContinuationToken .hierarchical
      pure ({ result with
              commonPrefixes := result.commonPrefixes ++ response.commonPrefixes
              commonPrefixContinuationToken := response.continuationToken },
        listedFiles environment response)
    else pure (result, [])
  if result.commonPrefixContinuationToken.isEmpty then
    pure (selectNextCommonPrefix result, s3Keys)
  else pure (result, s3Keys)

/-- `ExpandNextPath` on a walk that is not finished. -/
def expandNextPath (result : S3GlobResult) : Except ErrorData S3GlobResult :=
  if result.finished then pure result
  else do
    let (result, s3Keys) ←
      if !result.currentCommonPrefix.isEmpty then scanCurrentCommonPrefix environment result
      else scanTopLevel environment result
    let result :=
      { result with
        finished := result.finished ||
          result.mainContinuationToken.isEmpty && result.currentCommonPrefix.isEmpty }
    pure (appendMatchingFiles environment result s3Keys)

/-- The walk after a number of calls of `ExpandNextPath`. -/
def expandPaths : Nat → S3GlobResult → Except ErrorData S3GlobResult
  | 0, result => pure result
  | calls + 1, result => do expandPaths calls (← expandNextPath environment result)

end Httpfs.S3.Glob
