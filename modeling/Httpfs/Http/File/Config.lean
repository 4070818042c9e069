import Httpfs.Http.Response
import Httpfs.Text.Core

/-!
# Reading one version of a file

A handle remembers the `ETag` it was opened with.  Its requests are made on the
condition that the file still has it, if it is one that servers compare exactly,
and answers that carry another one are refused.
-/

namespace Httpfs.Http.File

open Text

/-- The settings that opening and reading a file look at. -/
structure FileParams where
  forceDownload : Bool := false
  autoFallbackToFullDownload : Bool := true
  unsafeDisableEtagChecks : Bool := false
  s3VersionIdPinning : Bool := false
  forceDownloadThreshold : Nat := 0
  deriving DecidableEq, Repr

inductive HTTPReadConditionType
  | none
  | etag
  | s3VersionId
  deriving DecidableEq, Repr

structure HTTPReadCondition where
  type : HTTPReadConditionType := .none
  value : String := ""
  deriving DecidableEq, Repr

structure HTTPReadConfig where
  condition : HTTPReadCondition := {}
  etag : String := ""
  validateEtag : Bool := false
  autoFallbackToFullDownload : Bool := false
  deriving DecidableEq, Repr

/-- An `ETag` in quotes, without a byte that may not stand between them. -/
def isStrongETag (etag : String) : Bool :=
  let etag := trim etag.toList
  if etag.length < 2 ∨ etag.head? ≠ some '"' ∨ etag.getLast? ≠ some '"' ∨
      startsWith etag "W/".toList then false
  else
    (etag.drop 1).dropLast.all fun character =>
      !(character.toNat ≤ 0x20 || character.toNat == 0x22 || character.toNat == 0x7F)

def stripETagQuotes (etag : String) : Text :=
  if 2 ≤ etag.toList.length ∧ etag.toList.head? = some '"' ∧ etag.toList.getLast? = some '"' then
    substr etag.toList 1 (etag.toList.length - 2)
  else etag.toList

/-! ## Request headers -/

/-- The headers of a request, under names that are compared without regard to
letter case. -/
abbrev HTTPHeaders := List (String × String)

namespace HTTPHeaders

def get? (headers : HTTPHeaders) (name : String) : Option String :=
  (headers.find? fun header => header.1.toLower == name.toLower).map Prod.snd

def erase (headers : HTTPHeaders) (name : String) : HTTPHeaders :=
  headers.filter fun header => header.1.toLower != name.toLower

/-- `headers[name] = value`. -/
def set (headers : HTTPHeaders) (name value : String) : HTTPHeaders :=
  (name, value) :: headers.erase name

@[simp] theorem get?_set (headers : HTTPHeaders) (name value : String) :
    (headers.set name value).get? name = some value := by
  rw [get?, set, List.find?_cons_of_pos (by simp), Option.map_some]

theorem get?_erase (headers : HTTPHeaders) (name : String) :
    (headers.erase name).get? name = none := by
  rw [get?, Option.map_eq_none_iff, List.find?_eq_none]
  intro header member
  have kept := (List.mem_filter.mp member).2
  simpa using kept

theorem get?_erase_of_ne (headers : HTTPHeaders) {name other : String}
    (different : other.toLower ≠ name.toLower) :
    (headers.erase name).get? other = headers.get? other := by
  rw [get?, get?, erase, List.find?_filter]
  congr 1
  congr 1
  funext header
  by_cases same : header.1.toLower = other.toLower
  · simp [same, different]
  · simp [same]

theorem get?_set_of_ne (headers : HTTPHeaders) {name other : String}
    (different : other.toLower ≠ name.toLower) (value : String) :
    (headers.set name value).get? other = headers.get? other := by
  rw [← get?_erase_of_ne headers different, get?, set, List.find?_cons_of_neg, get?]
  simpa using different.symm

end HTTPHeaders

def applyReadCondition (headers : HTTPHeaders) (readConfig : HTTPReadConfig) : HTTPHeaders :=
  if readConfig.condition.type = .etag then headers.set "If-Match" readConfig.condition.value
  else headers

def prepareFullGetHeaders (headers : HTTPHeaders) (readConfig : HTTPReadConfig) : HTTPHeaders :=
  applyReadCondition (headers.erase "Range") readConfig

theorem range_applyReadCondition (headers : HTTPHeaders) (readConfig : HTTPReadConfig) :
    (applyReadCondition headers readConfig).get? "Range" = headers.get? "Range" := by
  unfold applyReadCondition
  split
  · exact headers.get?_set_of_ne (by decide +kernel) _
  · rfl

/-- The request for the whole file names no range. -/
theorem range_prepareFullGetHeaders (headers : HTTPHeaders) (readConfig : HTTPReadConfig) :
    (prepareFullGetHeaders headers readConfig).get? "Range" = none := by
  rw [prepareFullGetHeaders, range_applyReadCondition, headers.get?_erase]

/-! ## Checks of an answer -/

/-- What `RangeRequestNotSupportedException::Throw` throws. -/
def rangeRequestNotSupportedError : ErrorData :=
  .http ("Content-Length from server mismatches requested range, server may not support range " ++
    "requests. You can try to resolve this by enabling `SET force_download=true`")

/-- The library of the database around the modelled code: texts, and what a caller
learns of the last attempt at a request.  A response is handed on as it is or not at
all; a success is handed on, and where an exception is not thrown on, the response
that stands for it has no status. -/
structure HTTPUtil where
  statusMessage : Nat → String
  /-- The text of the exception that tells a missing support of ranges. -/
  rangeErrorText : String
  parseError : String → ErrorData
  tryParseLastModifiedTime : String → Option Int
  success : HTTPResponse → Bool
  report : Bool → Reply → Reply
  rangeErrorText_ne : rangeErrorText ≠ ""
  parseError_rangeErrorText : parseError rangeErrorText = rangeRequestNotSupportedError
  success_iff : ∀ response, success response = true ↔
    response.requestError = "" ∧ ((200 ≤ response.status ∧ response.status < 300) ∨
      response.status = 304)
  report_of_success : ∀ tryRequest response, success response = true →
    report tryRequest (.ok response) = .ok response
  report_received : ∀ tryRequest response reported,
    report tryRequest (.ok response) = .ok reported → reported = response
  report_thrown : ∀ tryRequest error reported,
    report tryRequest (.error error) = .ok reported →
      tryRequest = true ∧ reported.status = 0 ∧ reported.requestError ≠ ""

/-- A library that tries nothing of its own: what succeeded is handed on, and what did
not is thrown on unless the request is only tried. -/
def HTTPUtil.plain : HTTPUtil where
  statusMessage _ := ""
  rangeErrorText := "range"
  parseError text := if text = "range" then rangeRequestNotSupportedError else .io text
  tryParseLastModifiedTime _ := none
  success response :=
    response.requestError == "" &&
      ((decide (200 ≤ response.status) && decide (response.status < 300)) || response.status == 304)
  report tryRequest
    | .ok response => .ok response
    | .error error => if tryRequest then .ok ⟨0, "error", [], ""⟩ else .error error
  rangeErrorText_ne := by decide
  parseError_rangeErrorText := rfl
  success_iff response := by simp
  report_of_success tryRequest response _ := rfl
  report_received tryRequest response reported same := by
    cases same
    rfl
  report_thrown tryRequest error reported isReport := by
    cases tryRequest with
    | false => cases isReport
    | true =>
        cases isReport
        exact ⟨rfl, rfl, by decide⟩

/-- A condition the server found violated. -/
def readConditionFailed (readConfig : HTTPReadConfig) (response : HTTPResponse) : Bool :=
  response.status == 412 && readConfig.condition.type == .etag

/-- The answer does not carry another `ETag` than the handle. -/
def etagAgrees (readConfig : HTTPReadConfig) (response : HTTPResponse) : Bool :=
  if !readConfig.validateEtag || readConfig.etag == "" then true
  else
    match response.header? "ETag" with
    | none => true
    | some responseEtag =>
        responseEtag == "" || stripETagQuotes responseEtag == stripETagQuotes readConfig.etag

/-- An `HTTPException` about a response, with the response's data attached. -/
def responseError (response : HTTPResponse) (message : String) : ErrorData where
  extraInfo := ("status_code", toString response.status) :: ("response_body", response.body) ::
    response.headers.map fun header => ("header_" ++ header.1, header.2)
  type := .http
  rawMessage := message

def validateResponseETag (path : String) (readConfig : HTTPReadConfig) (response : HTTPResponse) :
    Except ErrorData Unit :=
  if etagAgrees readConfig response then .ok ()
  else
    .error (responseError response
      ("ETag on reading file \"" ++ path ++ "\" was initially " ++ readConfig.etag ++
        " and now it returned " ++ (response.header? "ETag").getD "" ++
        ", this likely means the remote file has changed.\nFor parquet or similar single table " ++
        "sources, consider retrying the query, for persistent FileHandles such as databases " ++
        "consider `DETACH` and re-`ATTACH` \nYou can disable checking etags via " ++
        "`SET unsafe_disable_etag_checks = true;`"))

def throwIfReadConditionFailed (path : String) (readConfig : HTTPReadConfig)
    (response : HTTPResponse) : Except ErrorData Unit :=
  if readConditionFailed readConfig response then
    .error (responseError response
      ("ETag on reading file \"" ++ path ++ "\" changed after it was opened: the server rejected " ++
        readConfig.condition.value))
  else .ok ()

/-- `GetHTTPError` for a method. -/
def HTTPUtil.getHTTPError (util : HTTPUtil) (response : HTTPResponse) (method url : String) :
    ErrorData :=
  let details :=
    if response.status = 416 then
      " This could mean the file was changed. Try disabling the duckdb http metadata cache if " ++
      "enabled, and confirm the server supports range requests."
    else ""
  responseError response
    ("HTTP " ++ method ++ " error on '" ++ url ++ "' (HTTP " ++ toString response.status ++ " " ++
      util.statusMessage response.status ++ ")" ++ details)

end Httpfs.Http.File
