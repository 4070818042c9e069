import Httpfs.Http.Response
import Httpfs.S3.Upload.Session

/-!
# Requests of an upload session

Each request of the session turns the reply it gets into a value or into a
failure.  Only the two requests that create and complete a multipart upload
can leave their outcome unknown; they fail ambiguously then.
-/

namespace Httpfs.S3.Upload

open Httpfs.Http

inductive S3XMLResponseType
  | unknown
  | multipartInitialization
  | multipartCompletion
  | error
  deriving DecidableEq, Repr

structure S3XMLResponse where
  type : S3XMLResponseType
  uploadId : String
  etag : String
  errorCode : String
  errorMessage : String
  errorAccessKeyId : String
  deriving DecidableEq, Repr

/-- The immutable context of a session and what it takes from other parts of
the file system: the XML reader, the status errors with their provider
specific texts, and the exceptions built from a response.  Nothing is known
about the configuration but that its part limit is a 64-bit word. -/
structure Env where
  config : S3UploadConfig
  maxParts_lt : config.maxParts < Word64.modulus
  displayUrl : String
  displayPath : String
  tryParse : String → Option S3XMLResponse
  getStatusError : HTTPResponse → String → ErrorData
  httpException : HTTPResponse → String → ErrorData

/-- A failure with the disposition its catch block gives it. -/
structure Failure where
  error : ErrorData
  disposition : FailureDisposition
  deriving DecidableEq, Repr

namespace Failure

/-- A `std::exception`. -/
def definitive (error : ErrorData) : Failure :=
  ⟨error, .definitive⟩

/-- An `S3AmbiguousUploadException`. -/
def ambiguous (message : String) : Failure :=
  ⟨.io message, .ambiguous⟩

end Failure

def isSuccessfulStatus (status : Nat) : Bool :=
  decide (200 ≤ status ∧ status < 300)

variable (env : Env)

/-- `InitializeMultipartUpload`: the upload id of a well-formed reply. -/
def initializeMultipartUpload : Reply → Except Failure String
  | .error error => .error (.definitive error)
  | .ok response =>
      if response.hasRequestError then
        .error (.ambiguous s!"S3 multipart upload initialization for \"{env.displayUrl}\" has an unknown outcome because the response was not received; the request was not retried and cannot be aborted without an upload ID")
      else if isSuccessfulStatus response.status = false then
        .error (.definitive
          (env.getStatusError response "initializing multipart upload for"))
      else
        match env.tryParse response.body with
        | none =>
            .error (.ambiguous s!"S3 multipart upload initialization for \"{env.displayUrl}\" returned malformed XML; the request was not retried and cannot be aborted without an upload ID")
        | some parsed =>
            if parsed.type ≠ .multipartInitialization then
              .error (.ambiguous s!"S3 multipart upload initialization for \"{env.displayUrl}\" returned an unrecognized response; the request was not retried and cannot be aborted without an upload ID")
            else
              .ok parsed.uploadId

/-- `Upload`: the etag of an accepted PUT.  An exception of a PUT is never
ambiguous. -/
def upload : Reply → Except ErrorData String
  | .error error => .error error
  | .ok response =>
      if response.hasRequestError then
        .error (.io s!"S3 upload request for \"{env.displayUrl}\" could not be completed")
      else if response.status ≠ 200 then
        .error (env.getStatusError response "uploading to")
      else
        match response.header? "ETag" with
        | none => .error (.io "Unexpected response when uploading to S3")
        | some etag => .ok etag

/-- The reply of `CompleteMultipartUpload`. -/
def completeMultipartUpload : Reply → Except Failure Unit
  | .error error => .error (.definitive error)
  | .ok response =>
      if response.hasRequestError then
        .error (.ambiguous s!"S3 multipart upload completion for \"{env.displayUrl}\" has an unknown outcome because the response was not received; the request was not retried or aborted")
      else if isSuccessfulStatus response.status = false then
        .error (.definitive
          (env.getStatusError response "completing multipart upload for"))
      else
        match env.tryParse response.body with
        | none =>
            .error (.ambiguous s!"S3 multipart upload completion for \"{env.displayUrl}\" returned malformed XML; the request was not retried or aborted")
        | some parsed =>
            match parsed.type with
            | .error =>
                let code := if parsed.errorCode = "" then "S3 returned an embedded error"
                  else parsed.errorCode
                let separator := if parsed.errorMessage = "" then "" else ": "
                .error (.definitive (env.httpException response
                  s!"S3 multipart upload completion for \"{env.displayUrl}\" failed: {code}{separator}{parsed.errorMessage}"))
            | .multipartCompletion => .ok ()
            | .unknown | .multipartInitialization =>
                .error (.ambiguous s!"S3 multipart upload completion for \"{env.displayUrl}\" returned an unrecognized response; the request was not retried or aborted")

/-- The reply of `AbortMultipartUpload`: the error to report, if any. -/
def abortMultipartUpload : Reply → Option ErrorData
  | .error error =>
      some ⟨[], error.type, s!"Failed to abort S3 multipart upload for \"{env.displayPath}\": the cleanup request could not be completed"⟩
  | .ok response =>
      if response.status = 204 then
        none
      else
        let statusError := env.getStatusError response "aborting multipart upload for"
        some ⟨statusError.extraInfo, statusError.type,
          "Failed to abort S3 multipart upload: " ++ statusError.rawMessage⟩

end Httpfs.S3.Upload
