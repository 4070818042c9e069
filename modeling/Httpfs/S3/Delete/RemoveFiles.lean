import Httpfs.Http.Response
import Httpfs.S3.Delete.BatchKey
import Httpfs.S3.Xml.Response

/-!
# Deleting files in bulk

Paths with the same batch key are collected in one batch, and every batch is
sent in requests of at most a thousand keys through a session of its own.
-/

namespace Httpfs.S3.Delete

open Http Text Xml

/-! ## Batches -/

/-- What one round of the loop over the paths finds out about its path. -/
structure ResolvedPath where
  path : Text
  key : Text
  urlInfo : S3DeleteBatchUrlInfo
  params : S3RefreshableHTTPParams
  batchKey : Text

structure S3DeleteBatch where
  urlInfo : S3DeleteBatchUrlInfo
  keys : List Text
  secretLookupPaths : List Text

/-- The batches under their keys, in the order they were made. -/
abbrev Batches := List (Text × S3DeleteBatch)

def urlInfoOf (parsedUrl : ParsedS3Url) (authParams : S3AuthParams) : S3DeleteBatchUrlInfo :=
  ⟨parsedUrl.urlPrefix, parsedUrl.httpProto, parsedUrl.host, getBucketPath parsedUrl, authParams⟩

def resolvePath (opener : Opener) (path : Text) : Except ErrorData ResolvedPath := do
  let (parsedUrl, authParams) ← resolve opener.decode path (readFrom opener.settings? path)
  let urlInfo := urlInfoOf parsedUrl authParams
  let params := S3RefreshableHTTPParams.ofParams (opener.initializeParameters path)
  pure ⟨path, parsedUrl.key, urlInfo, params, createDeleteBatchKey opener urlInfo params path⟩

/-- Find the batch of a key, or make it, and add to it. -/
def addPath (resolved : ResolvedPath) : Batches → Batches
  | [] => [(resolved.batchKey, ⟨resolved.urlInfo, [resolved.key], [resolved.path]⟩)]
  | (batchKey, batch) :: rest =>
      if batchKey = resolved.batchKey then
        (batchKey, { batch with
          keys := batch.keys ++ [resolved.key]
          secretLookupPaths := batch.secretLookupPaths ++ [resolved.path] }) :: rest
      else (batchKey, batch) :: addPath resolved rest

/-- The loop over the paths. -/
def collectBatches (opener : Opener) : List Text → Batches → Except ErrorData Batches
  | [], batches => pure batches
  | path :: paths, batches => do
      let resolved ← resolvePath opener path
      collectBatches opener paths (addPath resolved batches)

/-! ## Requests -/

/-- A call of `RunS3BulkDeleteRequest`, with the snapshot its session starts from. -/
structure BulkDelete where
  session : S3RequestSnapshot
  secretLookupUrl : Text
  body : Text

def createSession (opener : Opener) (path : Text) (authParams : S3AuthParams) :
    S3RequestSnapshot where
  params := opener.initializeParameters path
  authParams
  refreshPath := path
  credentialRefreshEnabled := opener.credentialRefreshEnabled

def describeError (error : S3DeleteObjectsError) : String :=
  "\"" ++ String.ofList error.key ++ "\": " ++ String.ofList error.code ++
    if error.message.isEmpty then "" else ": " ++ String.ofList error.message

section RemoveFiles

/-! What the requests go through: the order in which the map of the batches is
visited, the request itself, the exception for a status and the UTF-8 checks. -/

variable {World : Type} (utf8Proc : Utf8Proc) (getError : BulkDelete → HTTPResponse → ErrorData)
  (bulkDelete : BulkDelete → World → Except ErrorData (HTTPResponse × Text) × World)
  (visits : Batches → Batches) (opener : Opener)

/-- The error a response of a bulk delete stands for, if any. -/
def bulkDeleteError (request : BulkDelete) (response : HTTPResponse) (result : Text) :
    Option ErrorData :=
  let displayUrl :=
    String.ofList (getDisplayUrl request.secretLookupUrl request.session.authParams)
  if response.hasRequestError then
    some (.io ("S3 bulk delete request for \"" ++ displayUrl ++ "\" could not be completed: " ++
      response.requestError))
  else if response.status ≠ 200 then some (getError request response)
  else
    match tryParseDeleteObjects utf8Proc result with
    | none => some (.io ("Malformed S3 bulk delete response for \"" ++ displayUrl ++ "\""))
    | some deleteResult =>
        if deleteResult.errors.isEmpty then none
        else
          some (.io ("S3 bulk delete for \"" ++ displayUrl ++ "\" failed: " ++
            "; ".intercalate (deleteResult.errors.map describeError)))

/-- What a delete did and how it ended. -/
structure Deletion (World : Type) where
  outcome : Except ErrorData Unit
  sent : List BulkDelete
  world : World

def maxKeysPerRequest : Nat :=
  1000

/-- The loop over the chunks of a batch. -/
def deleteChunks (session : S3RequestSnapshot) (batch : S3DeleteBatch) (batchStart : Nat)
    (world : World) : Deletion World :=
  if batchStart < batch.keys.length then
    let batchEnd := min (batchStart + maxKeysPerRequest) batch.keys.length
    let request : BulkDelete :=
      { session
        secretLookupUrl := batch.secretLookupPaths.getD batchStart []
        body := writeDeleteObjectsRequest batch.keys batchStart batchEnd }
    match bulkDelete request world with
    | (.error error, world) => ⟨.error error, [request], world⟩
    | (.ok (response, result), world) =>
        match bulkDeleteError utf8Proc getError request response result with
        | some error => ⟨.error error, [request], world⟩
        | none =>
            let rest := deleteChunks session batch (batchStart + maxKeysPerRequest) world
            { rest with sent := request :: rest.sent }
  else ⟨.ok (), [], world⟩
termination_by batch.keys.length - batchStart
decreasing_by
  unfold maxKeysPerRequest
  omega

/-- The loop over the batches. -/
def deleteBatches : Batches → World → Deletion World
  | [], world => ⟨.ok (), [], world⟩
  | (_, batch) :: batches, world =>
      let session :=
        createSession opener (batch.secretLookupPaths.headD []) batch.urlInfo.authParams
      let deletion := deleteChunks utf8Proc getError bulkDelete session batch 0 world
      match deletion.outcome with
      | .error _ => deletion
      | .ok () =>
          let rest := deleteBatches batches deletion.world
          { rest with sent := deletion.sent ++ rest.sent }

def removeFiles (paths : List Text) (world : World) : Deletion World :=
  if paths.isEmpty then ⟨.ok (), [], world⟩
  else
    match collectBatches opener paths [] with
    | .error error => ⟨.error error, [], world⟩
    | .ok batches => deleteBatches utf8Proc getError bulkDelete opener (visits batches) world

end RemoveFiles

end Httpfs.S3.Delete
