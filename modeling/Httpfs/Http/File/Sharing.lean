import Httpfs.Http.File.Cursor

/-!
# The handles of one path

Handles of one path share the file that is cached for it.  They are opened, read and
made to look again in any order, and a download by one of them is a download for all.
A step is one look at what is shared, or one request with what follows from its answer;
who answers is the choice of the environment, at each request anew.

Whether ranges are known to be answered changes during a request; a request begins
with whatever is known of them then.
-/

namespace Httpfs.Http.File.Sharing

open FullDownload RangeRequest
open Httpfs.Transition
open Httpfs.Transition.Monitor

universe u

/-! ## State -/

/-- A handle, and what its requests are made with. -/
structure Opened where
  session : Session
  handle : HTTPFileHandle

namespace Opened

def finalizeReadConfig (opened : Opened) : Opened :=
  { opened with handle := opened.handle.finalizeReadConfig opened.session.params }

/-- The requests of a handle go to some server. -/
def facing (opened : Opened) (server : Server) : Session :=
  { opened.session with server }

end Opened

/-- What the threads share; the handles are in the order in which they were opened. -/
structure Shared where
  cachedFile : Option Block := none
  downloading : Bool := false
  metadataCache : Option (Option HTTPMetadataCacheEntry) := none
  handles : List Opened := []

/-- What threads do.  A read is a positional one, or a sequential one from where the
cursor is; the metadata cache is changed by others as well. -/
inductive Operation
  | openFile (session : Session) (flags : FileOpenFlags) (info : Option ExtendedFileInfo)
  | read (handle readSize location : Nat)
  | invalidateCachedFile
  | changeMetadata (entry : Option HTTPMetadataCacheEntry)

/-- The place in `Initialize`, with whether the metadata cache is to be written. -/
inductive Opening
  | tryInitializeRead
  | loadFileInfo (shouldWriteCache : Bool)
  | requestFileInfo (shouldWriteCache : Bool)
  | finalize (shouldWriteCache : Bool)
  | initialized (erasesWhenWriting : Bool)

/-- Who downloads the file: a handle that is opened, also where this is forced, or a
read that falls back. -/
inductive Caller
  | opening (opened : Opened) (forced : Bool)
  | reading (handle : Nat) (call : Cursor.Reading)

/-- The place in `FullDownload`. -/
inductive Download
  | lookup
  | starting
  | requesting

inductive Control
  | idle
  | opening (opened : Opened) (stage : Opening)
  | reading (handle : Nat) (call : Cursor.Reading) (stage : Cursor.Stage)
  | downloading (caller : Caller) (stage : Download)

/-- What the environment chooses: the next call of a thread that is idle, who answers a
request, and what is known of ranges when it begins. -/
structure Choice where
  operation : Operation
  server : Server
  rangeRequestState : RangeRequestState := {}

inductive Event
  | opened
  | openFailed (error : ErrorData)
  | read (handle : Nat) (data : Block)
  | readFailed (handle : Nat) (error : ErrorData)
  deriving DecidableEq

/-! ## Requests -/

/-- A request has its own view: what is known of ranges, and its buffer. -/
def Choice.world (choice : Choice) (memory : Block) : File.World :=
  { fileState.rangeRequestState := choice.rangeRequestState, memory }

/-- `TryRangeRequest` with a buffer of its own. -/
def rangeRequest (session : Session) (readConfig : HTTPReadConfig) (call : Cursor.Reading)
    (choice : Choice) : Except ErrorData (Option Block) :=
  match (session.tryRangeRequest readConfig ⟨call.location, some 0, call.readSize⟩).run
      (choice.world (List.replicate call.readSize 0)) with
  | (.ok true, after) => .ok (some after.memory)
  | (.ok false, _) => .ok none
  | (.error error, _) => .error error

/-- The request of `FullDownload` and the checks of its answer. -/
def fileRequest (session : Session) (readConfig : HTTPReadConfig) : Except ErrorData Block := do
  let response ← (session.getRequest readConfig).1
  throwIfReadConditionFailed session.path readConfig response
  if response.status ≠ 200 then
    throw (session.util.getHTTPError response "GET" session.path)
  else pure (session.getRequest readConfig).2

/-- What `RequestFileInfo` tells the handle. -/
def fileInfo (session : Session) (handle : HTTPFileHandle) (choice : Choice) :
    Except ErrorData HTTPFileHandle :=
  match ((session.requestFileInfo handle).run (choice.world [])).1 with
  | .ok (handle, some response) => .ok (session.withFileInfo handle response)
  | .ok (handle, none) => .ok handle
  | .error error => .error error

/-! ## Steps -/

abbrev StepResult := Option (Outcome Shared Control Event)

def quietly (shared : Shared) (control : Control) : StepResult :=
  some (.advance shared control [] false)

def openingStep (opened : Opened) (shared : Shared) (choice : Choice) : Opening → StepResult
  | .tryInitializeRead =>
      if !opened.handle.flags.openForReading then
        quietly shared (.opening opened (.loadFileInfo false))
      else if opened.session.params.forceDownload then
        quietly shared (.downloading (.opening opened.finalizeReadConfig true) .lookup)
      else
        match shared.metadataCache with
        | none => quietly shared (.opening opened (.loadFileInfo false))
        | some none => quietly shared (.opening opened (.loadFileInfo true))
        | some (some entry) =>
            let found := { opened with handle := opened.handle.initializeFromCacheEntry entry }
            quietly shared (.opening found.finalizeReadConfig (.initialized false))
  | .loadFileInfo shouldWriteCache =>
      match Session.tryLoadFileInfoWithoutRequest opened.handle shared.cachedFile with
      | some handle =>
          quietly shared (.opening { opened with handle } (.finalize shouldWriteCache))
      | none => quietly shared (.opening opened (.requestFileInfo shouldWriteCache))
  | .requestFileInfo shouldWriteCache =>
      match fileInfo (opened.facing choice.server) opened.handle choice with
      | .error error => some (.advance shared .idle [.openFailed error] false)
      | .ok handle =>
          quietly shared (.opening { opened with handle } (.finalize shouldWriteCache))
  | .finalize shouldWriteCache =>
      let opened := opened.finalizeReadConfig
      if !opened.handle.flags.openForReading then
        quietly shared (.opening opened (.initialized true))
      else if opened.session.shouldFullDownload opened.handle then
        quietly shared (.downloading (.opening opened false) .lookup)
      else if shouldWriteCache then
        quietly { shared with metadataCache := some (some opened.handle.getCacheEntry) }
          (.opening opened (.initialized true))
      else quietly shared (.opening opened (.initialized true))
  | .initialized erasesWhenWriting =>
      let metadataCache :=
        if erasesWhenWriting && opened.handle.flags.openForWriting then
          shared.metadataCache.map fun _ => none
        else shared.metadataCache
      some (.advance { shared with metadataCache, handles := shared.handles ++ [opened] } .idle
        [.opened] false)

/-- The handle a caller downloads for. -/
def Caller.opened? (caller : Caller) (shared : Shared) : Option Opened :=
  match caller with
  | .opening opened _ => some opened
  | .reading handle _ => shared.handles[handle]?

/-- Where a caller goes on with the file. -/
def Caller.resume (file : Block) : Caller → Control
  | .opening opened forced =>
      .opening { opened with handle.length := file.length } (.initialized (!forced))
  | .reading handle call => .reading handle call (.compare file)

def Caller.failed (error : ErrorData) : Caller → Event
  | .opening _ _ => .openFailed error
  | .reading handle _ => .readFailed handle error

/-- `FullDownload`.  A download that fails is given up, and whoever waits for it looks
again. -/
def downloadStep (caller : Caller) (shared : Shared) (choice : Choice) : Download → StepResult
  | .lookup =>
      match shared.cachedFile with
      | some file => quietly shared (caller.resume file)
      | none => quietly shared (.downloading caller .starting)
  | .starting =>
      if shared.downloading then some .wait
      else if shared.cachedFile.isSome then quietly shared (.downloading caller .lookup)
      else quietly { shared with downloading := true } (.downloading caller .requesting)
  | .requesting =>
      match caller.opened? shared with
      | none => none
      | some opened =>
          match fileRequest (opened.facing choice.server) opened.handle.readConfig with
          | .error error =>
              some (.advance { shared with downloading := false } .idle [caller.failed error] true)
          | .ok file =>
              some (.advance { shared with downloading := false, cachedFile := some file }
                (caller.resume file) [] true)

/-- `ReadAtWithFallback`; its full download is not one step here. -/
def readingStep (handle : Nat) (call : Cursor.Reading) (shared : Shared) (choice : Choice)
    (stage : Cursor.Stage) : StepResult :=
  match shared.handles[handle]? with
  | none => none
  | some opened =>
      let range := rangeRequest (opened.facing choice.server) opened.handle.readConfig call choice
      match Cursor.readAtWithFallback opened.session.path opened.handle.length call
          shared.cachedFile (Cursor.withRange range) stage with
      | none => none
      | some (.continues .fullDownload _ _) =>
          quietly shared (.downloading (.reading handle call) .lookup)
      | some (.continues stage _ _) => quietly shared (.reading handle call stage)
      | some (.returns data _) => some (.advance shared .idle [.read handle data] false)
      | some (.throws error cachedFile) =>
          some (.advance { shared with cachedFile } .idle [.readFailed handle error] false)

def beginOperation (shared : Shared) : Operation → StepResult
  | .openFile session flags info =>
      quietly shared (.opening ⟨session, .create flags info⟩ .tryInitializeRead)
  | .read handle readSize location =>
      if shared.handles.length ≤ handle then none
      else if readSize = 0 then some (.advance shared .idle [.read handle []] false)
      else quietly shared (.reading handle ⟨.positional, readSize, location⟩ (.lookup false))
  | .invalidateCachedFile => quietly { shared with cachedFile := none } .idle
  | .changeMetadata entry =>
      quietly { shared with metadataCache := shared.metadataCache.map fun _ => entry } .idle

variable {ι : Type u}

/-- The threads on the handles of a path. -/
def program : Program ι Shared Control Choice Event :=
  fun _ shared control choice =>
    match control with
    | .idle => beginOperation shared choice.operation
    | .opening opened stage => openingStep opened shared choice stage
    | .reading handle call stage => readingStep handle call shared choice stage
    | .downloading caller stage => downloadStep caller shared choice stage

end Httpfs.Http.File.Sharing
