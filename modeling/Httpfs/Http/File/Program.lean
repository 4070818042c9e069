import Httpfs.Http.File.Transfer

/-!
# Opening and reading files

The size of a file is known from what came with its name, from a cache, or from a
request: a HEAD, or where that is refused a GET for the first two bytes.  A server
that does not answer ranges is asked for the whole file, which all handles of the
path then read.

A zero stands for a size that is not known.
-/

namespace Httpfs.Http.File

open FullDownload RangeRequest Text Word64

/-- What the requests of a handle are made with. -/
structure Session where
  util : HTTPUtil
  server : Server
  path : String
  params : FileParams
  configuredHeaders : HTTPHeaders

namespace Session

variable (session : Session)

def getRangeRequest (readConfig : HTTPReadConfig) (range : Range) : Action World HTTPResponse :=
  runGetRangeRequest session.util session.server session.path session.configuredHeaders readConfig
    range

/-- The answer to a request for the whole file, and what was downloaded. -/
def getRequest (readConfig : HTTPReadConfig) : Reply × Block :=
  let request := fullGetRequest session.util session.path session.configuredHeaders readConfig
  (request.send session.util (session.server.get request.headers)).run []

/-- `FullDownload`; nobody else downloads the file. -/
def fullDownload (readConfig : HTTPReadConfig) : Action World Block := do
  match (← get).fileState.cachedFile with
  | some cachedFile => pure cachedFile
  | none =>
      let response ← Action.lift (session.getRequest readConfig).1
      Action.lift (throwIfReadConditionFailed session.path readConfig response)
      if response.status ≠ 200 then
        throw (session.util.getHTTPError response "GET" session.path)
      else
        modify fun world =>
          { world with fileState.cachedFile := some (session.getRequest readConfig).2 }
        pure (session.getRequest readConfig).2

end Session

def respondedWithRangeRequestNotSupported (util : HTTPUtil) (response : HTTPResponse) : Bool :=
  if !response.hasRequestError then false
  else
    let error := util.parseError response.requestError
    error.type == rangeRequestNotSupportedError.type &&
      error.rawMessage == rangeRequestNotSupportedError.rawMessage

/-! ## Reading -/

namespace Session

variable (session : Session)

def tryRangeRequest (readConfig : HTTPReadConfig) (range : Range) : Action World Bool := do
  let response ← session.getRangeRequest readConfig range
  Action.lift (throwIfReadConditionFailed session.path readConfig response)
  if response.hasRequestError then
    if respondedWithRangeRequestNotSupported session.util response &&
        readConfig.autoFallbackToFullDownload then
      pure false
    else throw (session.util.parseError response.requestError)
  else if RangeTransfer.isSuccessfulResponse session.util response then pure true
  else throw (session.util.getHTTPError response "GET" session.path)

def readAt (readConfig : HTTPReadConfig) (buffer readSize location : Nat) : Action World Bool := do
  if modulus - 1 - location < readSize then
    throw (.io ("HTTP read range overflow for file \"" ++ session.path ++ "\""))
  else
    match (← get).fileState.cachedFile with
    | some cachedFile =>
        if cachedFile.length < location + readSize then
          throw (.io ("Cached file length can't satisfy the requested Read. You can try to " ++
            "resolve this by enabling `SET force_download=true`"))
        else
          if 0 < readSize then
            modify fun world =>
              { world with
                memory := memcpy world.memory buffer ((cachedFile.drop location).take readSize) }
          pure true
    | none =>
        if 0 < readSize then
          session.tryRangeRequest readConfig ⟨location, some buffer, readSize⟩
        else pure true

def readAtWithFallback (readConfig : HTTPReadConfig) (length buffer readSize location : Nat) :
    Action World Unit := do
  if ← session.readAt readConfig buffer readSize location then pure ()
  else
    let cachedFile ← session.fullDownload readConfig
    if cachedFile.length ≠ length then
      modify fun world => { world with fileState.cachedFile := none }
      throw (.http ("The size reported by HEAD for '" ++ session.path ++ "' was " ++
        toString length ++ " bytes, but the full GET downloaded " ++ toString cachedFile.length ++
        " bytes. You can try to resolve this by enabling `SET force_download=true`"))
    else if ← session.readAt readConfig buffer readSize location then pure ()
    else
      throw (.http
        "Failed to read from HTTP file after automatically retrying a full file download.")

/-- `Read` at a location. -/
def read (readConfig : HTTPReadConfig) (length buffer readSize location : Nat) :
    Action World Unit :=
  if readSize = 0 then pure ()
  else session.readAtWithFallback readConfig length buffer readSize location

end Session

/-! ## Handles -/

structure FileOpenFlags where
  openForReading : Bool := true
  openForWriting : Bool := false
  createFileIfNotExists : Bool := false
  overwriteExistingFile : Bool := false
  deriving DecidableEq, Repr

/-- What may come with the name of a file. -/
structure ExtendedFileInfo where
  lastModified : Option Int := none
  etag : Option String := none
  fileSize : Option Nat := none
  forceFullDownload : Option Bool := none
  deriving DecidableEq, Repr

structure HTTPFileHandle where
  flags : FileOpenFlags
  length : Nat := 0
  lastModified : Int := 0
  etag : String := ""
  versionId : String := ""
  forceFullDownload : Bool := false
  initialized : Bool := false
  autoFallbackToFullFileDownload : Bool := true
  writeOverwriteMode : Bool := false
  readConfig : HTTPReadConfig := {}
  deriving DecidableEq, Repr

namespace HTTPFileHandle

/-- The constructor. -/
def create (flags : FileOpenFlags) : Option ExtendedFileInfo → HTTPFileHandle
  | none => { flags }
  | some info =>
      { flags
        length := info.fileSize.getD 0
        lastModified := info.lastModified.getD 0
        etag := info.etag.getD ""
        forceFullDownload := info.forceFullDownload.getD false
        initialized := info.lastModified.isSome && info.etag.isSome && info.fileSize.isSome }

def buildReadConfig (handle : HTTPFileHandle) (params : FileParams) : HTTPReadConfig :=
  let validateEtag := !params.unsafeDisableEtagChecks
  { condition :=
      if validateEtag && isStrongETag handle.etag then
        ⟨.etag, String.ofList (trim handle.etag.toList)⟩
      else {}
    etag := handle.etag
    validateEtag
    autoFallbackToFullDownload :=
      handle.autoFallbackToFullFileDownload && params.autoFallbackToFullDownload }

def finalizeReadConfig (handle : HTTPFileHandle) (params : FileParams) : HTTPFileHandle :=
  { handle with readConfig := handle.buildReadConfig params }

@[simp] theorem finalizeReadConfig_readConfig (handle : HTTPFileHandle) (params : FileParams) :
    (handle.finalizeReadConfig params).readConfig = handle.buildReadConfig params :=
  rfl

def initializeFromCacheEntry (handle : HTTPFileHandle) (entry : HTTPMetadataCacheEntry) :
    HTTPFileHandle :=
  { handle with
    lastModified := entry.lastModified
    length := entry.length
    etag := entry.etag
    versionId := entry.versionId }

def getCacheEntry (handle : HTTPFileHandle) : HTTPMetadataCacheEntry :=
  ⟨handle.length, handle.lastModified, handle.etag, handle.versionId⟩

end HTTPFileHandle

/-! ## The size of a file -/

def tryParseContentRange (response : HTTPResponse) : Option Nat :=
  (response.header? "Content-Range").bind fun contentRange =>
    (find "/".toList contentRange.toList).bind fun position =>
      let rangeLength := substrFrom contentRange.toList (position + 1)
      if rangeLength = "*".toList then none else stoull rangeLength

def tryParseContentLength (response : HTTPResponse) : Option Nat :=
  numericHeader response "Content-Length"

def HTTPFileState.markRangeRequestsSupported (fileState : HTTPFileState) : HTTPFileState :=
  let (begun, guard) := beginRequest fileState.rangeRequestState true
  let (marked, guard, _) := guard.markSupported begun
  { fileState with rangeRequestState := (guard.destroy marked).1 }

namespace Session

variable (session : Session)

/-- What `TryLoadFileInfoWithoutRequest` does to the handle when it returns true;
`none` when it returns false. -/
def tryLoadFileInfoWithoutRequest (handle : HTTPFileHandle) (cachedFile : Option Block) :
    Option HTTPFileHandle :=
  match cachedFile with
  | some cachedFile => some { handle with length := cachedFile.length, initialized := true }
  | none =>
      if handle.initialized || handle.forceFullDownload then some handle
      else if handle.writeOverwriteMode then some { handle with length := 0, initialized := true }
      else none

def retryFileInfoWithRange (handle : HTTPFileHandle) :
    Action World (HTTPFileHandle × HTTPResponse) := do
  let config := handle.buildReadConfig session.params
  let response ← session.getRangeRequest config ⟨0, none, 2⟩
  if response.status = 206 ∨ response.status = 202 ∨ response.status = 200 then
    pure (handle, response)
  else if respondedWithRangeRequestNotSupported session.util response &&
      config.autoFallbackToFullDownload then
    pure ({ handle with forceFullDownload := true }, response)
  else throw (session.util.getHTTPError response "GET" session.path)

def requestFileInfo (handle : HTTPFileHandle) :
    Action World (HTTPFileHandle × Option HTTPResponse) := do
  let response ← Action.lift (session.server.head session.configuredHeaders)
  if response.status = 200 then pure (handle, some response)
  else if handle.flags.openForWriting ∧ response.status = 404 then
    if !handle.flags.createFileIfNotExists && !handle.flags.overwriteExistingFile then
      throw (.io ("Unable to open URL \"" ++ session.path ++
        "\" for writing: file does not exist and CREATE flag is not set"))
    else pure ({ handle with length := 0 }, none)
  else if handle.flags.openForReading ∧ response.status ≠ 404 ∧ response.status ≠ 301 then do
    let (handle, response) ← session.retryFileInfoWithRange handle
    pure (handle, some response)
  else throw (session.util.getHTTPError response "HEAD" session.path)

/-- What a response tells about the file. -/
def withFileInfo (handle : HTTPFileHandle) (response : HTTPResponse) : HTTPFileHandle :=
  { handle with
    length := ((tryParseContentRange response).or (tryParseContentLength response)).getD 0
    lastModified := ((response.header? "Last-Modified").bind
      session.util.tryParseLastModifiedTime).getD handle.lastModified
    etag := (response.header? "ETag").getD handle.etag
    versionId :=
      if session.params.s3VersionIdPinning then
        (response.header? "x-amz-version-id").getD handle.versionId
      else handle.versionId
    initialized := true }

def applyFileInfo (handle : HTTPFileHandle) (response : HTTPResponse) :
    Action World HTTPFileHandle := do
  if ((response.header? "Accept-Ranges").any fun value =>
      lower (trim value.toList) == "bytes".toList) then
    modify fun world =>
      { world with fileState := world.fileState.markRangeRequestsSupported }
  pure (session.withFileInfo handle response)

def loadFileInfo (handle : HTTPFileHandle) : Action World HTTPFileHandle := do
  match tryLoadFileInfoWithoutRequest handle (← get).fileState.cachedFile with
  | some handle => pure handle
  | none =>
      match ← session.requestFileInfo handle with
      | (handle, some response) => session.applyFileInfo handle response
      | (handle, none) => pure handle

/-- The handle if `TryInitializeRead` returns true, and whether the metadata cache
is to be written otherwise. -/
def tryInitializeRead (handle : HTTPFileHandle) :
    Action World (Option HTTPFileHandle × Bool) := do
  if !handle.flags.openForReading then pure (none, false)
  else if session.params.forceDownload then do
    let handle := handle.finalizeReadConfig session.params
    let cachedFile ← session.fullDownload handle.readConfig
    pure (some { handle with length := cachedFile.length }, false)
  else
    match (← get).metadataCache with
    | none => pure (none, false)
    | some none => pure (none, true)
    | some (some entry) =>
        pure (some ((handle.initializeFromCacheEntry entry).finalizeReadConfig session.params), false)

def shouldFullDownload (handle : HTTPFileHandle) : Bool :=
  handle.length == 0 ||
    (decide (handle.length < session.params.forceDownloadThreshold) && handle.length != 0) ||
    handle.forceFullDownload

def initializeFileInfo (handle : HTTPFileHandle) (shouldWriteCache : Bool) :
    Action World HTTPFileHandle := do
  let loaded ← session.loadFileInfo handle
  let handle := loaded.finalizeReadConfig session.params
  if !handle.flags.openForReading then pure handle
  else if session.shouldFullDownload handle then
    -- A full download tells its caller not to write the metadata cache.
    let cachedFile ← session.fullDownload handle.readConfig
    pure { handle with length := cachedFile.length }
  else
    if shouldWriteCache then
      modify fun world => { world with metadataCache := some (some handle.getCacheEntry) }
    pure handle

/-- `Initialize` of a handle. -/
def initializeHandle (handle : HTTPFileHandle) : Action World HTTPFileHandle := do
  match ← session.tryInitializeRead handle with
  | (some handle, _) => pure handle
  | (none, shouldWriteCache) =>
      let handle ← session.initializeFileInfo handle shouldWriteCache
      if handle.flags.openForWriting then
        modify fun world => { world with metadataCache := world.metadataCache.map fun _ => none }
      pure handle

end Session

end Httpfs.Http.File
