import Httpfs.Core.Action
import Httpfs.Http.FullDownload.Buffer
import Httpfs.Http.RangeRequest.Program
import Httpfs.Http.File.Config
import Httpfs.Text.Decimal

/-!
# GET requests

The body of an answer goes to the caller piece by piece, through a handler of the
response that is called first and a handler of the content.  A request that fails
is attempted again with the same handlers, so they see every attempt.
-/

namespace Httpfs.Http.File

open FullDownload RangeRequest Text Word64

/-! ## Attempts -/

/-- What one attempt brings: no answer, or a response and the pieces of its body.
The request error of a response tells that its body broke off. -/
inductive Attempt
  | unanswered (error : String)
  | answered (response : HTTPResponse) (chunks : List Block)
  deriving DecidableEq, Repr

/-- All attempts at a request. -/
structure Exchange where
  failed : List Attempt
  last : Attempt
  deriving DecidableEq, Repr

/-- Who answers: to a HEAD and to a GET with given headers. -/
structure Server where
  head : HTTPHeaders → Reply
  get : HTTPHeaders → Exchange

/-- What is known when the headers have arrived. -/
def started (response : HTTPResponse) : HTTPResponse :=
  { response with requestError := "" }

structure GetRequestInfo (σ : Type) where
  headers : HTTPHeaders
  responseHandler : HTTPResponse → Action σ Bool
  contentHandler : Block → Action σ Bool
  tryRequest : Bool := false

namespace GetRequestInfo

variable {σ : Type}

/-- The content handler gets the pieces until it refuses one. -/
def deliver (request : GetRequestInfo σ) : List Block → Action σ Bool
  | [] => pure true
  | chunk :: rest => do
      if ← request.contentHandler chunk then request.deliver rest else pure false

def attempt (request : GetRequestInfo σ) : Attempt → Action σ HTTPResponse
  | .unanswered error => pure ⟨0, error, [], ""⟩
  | .answered response chunks => do
      if ← request.responseHandler (started response) then
        if ← request.deliver chunks then pure response else pure (started response)
      else pure (started response)

def afterFailed (request : GetRequestInfo σ) (failed : List Attempt) (state : σ) : σ :=
  failed.foldl (fun state attempt => ((request.attempt attempt).run state).2) state

/-- `send_request`: all attempts one after the other, and the report about the last. -/
def send (util : HTTPUtil) (request : GetRequestInfo σ) (exchange : Exchange) :
    Action σ HTTPResponse :=
  ⟨fun state =>
    let (reply, state) :=
      (request.attempt exchange.last).run (request.afterFailed exchange.failed state)
    (util.report request.tryRequest reply, state)⟩

theorem run_send (util : HTTPUtil) (request : GetRequestInfo σ) (exchange : Exchange) (state : σ) :
    (request.send util exchange).run state =
      let attempted :=
        (request.attempt exchange.last).run (request.afterFailed exchange.failed state)
      (util.report request.tryRequest attempted.1, attempted.2) :=
  rfl

theorem deliver_preserves {motive : σ → Prop} {request : GetRequestInfo σ}
    (contentKeeps : ∀ chunk state, motive state →
      motive ((request.contentHandler chunk).run state).2)
    (chunks : List Block) (state : σ) (holds : motive state) :
    motive ((request.deliver chunks).run state).2 := by
  induction chunks generalizing state with
  | nil => exact holds
  | cons chunk rest inductionHypothesis =>
      refine Action.bind_preserves (contentKeeps chunk) ?_ state holds
      intro goesOn state holds
      cases goesOn with
      | true => exact inductionHypothesis state holds
      | false => exact holds

/-- What holds after the head of an answer holds at the end of the attempt, if no piece
breaks it. -/
theorem attempt_preserves_of_handled {motive : σ → Prop} {request : GetRequestInfo σ}
    (contentKeeps : ∀ chunk state, motive state →
      motive ((request.contentHandler chunk).run state).2)
    {response : HTTPResponse} {state after : σ} {reply : Except ErrorData Bool}
    (handles : (request.responseHandler (started response)).run state = (reply, after))
    (chunks : List Block) (holds : motive after) :
    motive ((request.attempt (.answered response chunks)).run state).2 := by
  cases reply with
  | error error =>
      rw [attempt, Action.run_bind_of_error handles]
      exact holds
  | ok goesOn =>
      rw [attempt, Action.run_bind_of_ok handles]
      cases goesOn with
      | false => exact holds
      | true =>
          refine Action.bind_preserves (deliver_preserves contentKeeps chunks) ?_ after holds
          intro complete state holds
          cases complete with
          | true => exact holds
          | false => exact holds

/-- What no handler breaks, no attempt breaks. -/
theorem attempt_preserves {motive : σ → Prop} {request : GetRequestInfo σ}
    (responseKeeps : ∀ response state, motive state →
      motive ((request.responseHandler response).run state).2)
    (contentKeeps : ∀ chunk state, motive state →
      motive ((request.contentHandler chunk).run state).2)
    (attempt : Attempt) (state : σ) (holds : motive state) :
    motive ((request.attempt attempt).run state).2 := by
  cases attempt with
  | unanswered error => exact holds
  | answered response chunks =>
      exact attempt_preserves_of_handled contentKeeps (Prod.ext rfl rfl) chunks
        (responseKeeps (started response) state holds)

/-- An attempt that ends with a response ends with the one that was received. -/
theorem status_of_attempt {request : GetRequestInfo σ} {received response : HTTPResponse}
    {chunks : List Block} {state after : σ}
    (ends : (request.attempt (.answered received chunks)).run state = (.ok response, after)) :
    response.status = received.status := by
  rw [attempt, Action.run_bind_eq_ok_iff] at ends
  rcases ends with ⟨goesOn, between, -, ends⟩
  cases goesOn with
  | false =>
      cases ends
      rfl
  | true =>
      rw [if_pos rfl, Action.run_bind_eq_ok_iff] at ends
      rcases ends with ⟨complete, between, -, ends⟩
      cases complete with
      | false =>
          cases ends
          rfl
      | true =>
          cases ends
          rfl

theorem afterFailed_preserves {motive : σ → Prop} {request : GetRequestInfo σ}
    (responseKeeps : ∀ response state, motive state →
      motive ((request.responseHandler response).run state).2)
    (contentKeeps : ∀ chunk state, motive state →
      motive ((request.contentHandler chunk).run state).2)
    (failed : List Attempt) (state : σ) (holds : motive state) :
    motive (request.afterFailed failed state) := by
  induction failed generalizing state with
  | nil => exact holds
  | cons attempt rest inductionHypothesis =>
      exact inductionHypothesis _
        (attempt_preserves responseKeeps contentKeeps attempt state holds)

theorem send_preserves {motive : σ → Prop} {request : GetRequestInfo σ} (util : HTTPUtil)
    (responseKeeps : ∀ response state, motive state →
      motive ((request.responseHandler response).run state).2)
    (contentKeeps : ∀ chunk state, motive state →
      motive ((request.contentHandler chunk).run state).2)
    (exchange : Exchange) (state : σ) (holds : motive state) :
    motive ((request.send util exchange).run state).2 :=
  attempt_preserves responseKeeps contentKeeps exchange.last _
    (afterFailed_preserves responseKeeps contentKeeps exchange.failed state holds)

end GetRequestInfo

/-! ## Length headers -/

/-- A header that is a number. -/
def numericHeader (response : HTTPResponse) (name : String) : Option Nat :=
  (response.header? name).bind fun value => stoull value.toList

/-! ## The whole file -/

/-- `RunGetRequest`: the state of the handlers is what has been downloaded. -/
def fullGetRequest (util : HTTPUtil) (path : String) (headerMap : HTTPHeaders)
    (readConfig : HTTPReadConfig) : GetRequestInfo Block where
  headers := prepareFullGetHeaders headerMap readConfig
  responseHandler response := do
    if readConditionFailed readConfig response then pure false
    else if 400 ≤ response.status then throw (util.getHTTPError response "GET" path)
    else
      if response.status < 300 then
        Action.lift (validateResponseETag path readConfig response)
      -- The capacity reserved for the `Content-Length` holds no bytes yet.
      set ([] : Block)
      pure true
  contentHandler chunk := do
    modify (· ++ chunk)
    pure true

/-! ## A range of the file -/

/-- `HTTPFileState`: what the handles of a path share. -/
structure HTTPFileState where
  cachedFile : Option Block := none
  rangeRequestState : RangeRequestState := {}
  deriving DecidableEq, Repr

structure HTTPMetadataCacheEntry where
  length : Nat
  lastModified : Int
  etag : String
  versionId : String
  deriving DecidableEq, Repr

/-- What is known about a path: the state that its handles share, and its entry in
the metadata cache, if there is such a cache.  Buffers are parts of the memory. -/
structure World where
  fileState : HTTPFileState := {}
  metadataCache : Option (Option HTTPMetadataCacheEntry) := none
  memory : Block := []
  deriving DecidableEq, Repr

/-- The members of `HTTPRangeRequestContext` that change, and the world. -/
structure RangeTransfer where
  rangeRequest : Guard
  outOffset : Nat := 0
  rangeRequestNotSupported : Bool := false
  world : World
  deriving DecidableEq, Repr

/-- A range that is requested: where it begins in the file, where its bytes go, if
anywhere, and how many they are. -/
structure Range where
  fileOffset : Nat
  bufferOut : Option Nat
  bufferOutLen : Nat
  deriving DecidableEq, Repr

def Range.expression (range : Range) : String :=
  "bytes=" ++ toString range.fileOffset ++ "-" ++
    toString (range.fileOffset + range.bufferOutLen - 1)

namespace RangeTransfer

def markSupported (transfer : RangeTransfer) : RangeTransfer :=
  let (state, guard, _) :=
    transfer.rangeRequest.markSupported transfer.world.fileState.rangeRequestState
  { transfer with rangeRequest := guard, world.fileState.rangeRequestState := state }

def markNotSupported (transfer : RangeTransfer) : RangeTransfer :=
  let (state, guard, _) :=
    transfer.rangeRequest.markNotSupported transfer.world.fileState.rangeRequestState
  { transfer with rangeRequest := guard, world.fileState.rangeRequestState := state }

def validateContentLength (bufferOutLen : Nat) (response : HTTPResponse) :
    Action RangeTransfer Bool := do
  match numericHeader response "Content-Length" with
  | none => pure true
  | some contentLength =>
      if contentLength = bufferOutLen then pure true
      else
        modify fun transfer => { transfer.markNotSupported with rangeRequestNotSupported := true }
        pure false

def handleResponse (util : HTTPUtil) (path : String) (readConfig : HTTPReadConfig) (range : Range)
    (response : HTTPResponse) : Action RangeTransfer Bool := do
  if readConditionFailed readConfig response then pure false
  else if 400 ≤ response.status then throw (util.getHTTPError response "GET" path)
  else if 300 ≤ response.status then pure true
  else
    modify fun transfer => { transfer with outOffset := 0 }
    Action.lift (validateResponseETag path readConfig response)
    if ← validateContentLength range.bufferOutLen response then
      if response.status = 206 then modify markSupported
      pure true
    else pure false

def handleContent (range : Range) (chunk : Block) : Action RangeTransfer Bool := do
  match range.bufferOut with
  | none => pure true
  | some bufferOut =>
      let transfer ← get
      if range.bufferOutLen < transfer.outOffset ∨
          range.bufferOutLen - transfer.outOffset < chunk.length then
        throw (.http ("Server sent back more data than expected, `SET force_download=true` might " ++
          "help in this case"))
      else
        set { transfer with
          world.memory := memcpy transfer.world.memory (bufferOut + transfer.outOffset) chunk
          outOffset := transfer.outOffset + chunk.length }
        pure true

def validateReadLength (util : HTTPUtil) (path : String) (range : Range) (outOffset : Nat)
    (response : HTTPResponse) : Except ErrorData Unit :=
  if response.hasRequestError ∨ ¬ util.success response ∨ range.bufferOut = none ∨
      outOffset = range.bufferOutLen then .ok ()
  else
    .error (.io ("Short read for HTTP GET to '" ++ path ++ "': requested range " ++
      range.expression ++ " (" ++ toString range.bufferOutLen ++ " bytes), but received " ++
      toString outOffset ++ " bytes"))

def isSuccessfulResponse (util : HTTPUtil) (response : HTTPResponse) : Bool :=
  util.success response || response.status == 206 || response.status == 202

def setRangeRequestNotSupported (util : HTTPUtil) (response : HTTPResponse) : HTTPResponse :=
  { response with requestError := util.rangeErrorText }

def finalize (util : HTTPUtil) (path : String) (range : Range) (response : HTTPResponse) :
    Action RangeTransfer HTTPResponse := do
  let transfer ← get
  if transfer.rangeRequestNotSupported then pure (setRangeRequestNotSupported util response)
  else
    Action.lift (validateReadLength util path range transfer.outOffset response)
    if isSuccessfulResponse util response then modify markSupported
    pure response

end RangeTransfer

/-- `BeginRequest`, once no other request probes. -/
def beginRequest (state : RangeRequestState) (enabled : Bool) : RangeRequestState × Guard :=
  if !enabled then (state, .settled .supported false)
  else Guard.construct state

def rangeGetRequest (util : HTTPUtil) (path : String) (headerMap : HTTPHeaders)
    (readConfig : HTTPReadConfig) (range : Range) : GetRequestInfo RangeTransfer where
  headers := applyReadCondition (headerMap.set "Range" range.expression) readConfig
  responseHandler := RangeTransfer.handleResponse util path readConfig range
  contentHandler := RangeTransfer.handleContent range
  tryRequest := readConfig.autoFallbackToFullDownload

/-- `Finalize` after `send_request`. -/
def transferRange (util : HTTPUtil) (server : Server) (path : String) (headerMap : HTTPHeaders)
    (readConfig : HTTPReadConfig) (range : Range) : Action RangeTransfer HTTPResponse := do
  let request := rangeGetRequest util path headerMap readConfig range
  let response ← request.send util (server.get request.headers)
  RangeTransfer.finalize util path range response

/-- `RunGetRangeRequest`; the guard is destroyed at the end. -/
def runGetRangeRequest (util : HTTPUtil) (server : Server) (path : String) (headerMap : HTTPHeaders)
    (readConfig : HTTPReadConfig) (range : Range) : Action World HTTPResponse :=
  ⟨fun world =>
    let (state, guard) :=
      beginRequest world.fileState.rangeRequestState readConfig.autoFallbackToFullDownload
    if guard.support = .notSupported ∧ readConfig.autoFallbackToFullDownload then
      (.ok (RangeTransfer.setRangeRequestNotSupported util ⟨0, "", [], ""⟩), world)
    else
      let (reply, transfer) :=
        (transferRange util server path headerMap readConfig range).run
          { rangeRequest := guard, world := { world with fileState.rangeRequestState := state } }
      (reply, { transfer.world with
        fileState.rangeRequestState :=
          (transfer.rangeRequest.destroy transfer.world.fileState.rangeRequestState).1 })⟩

end Httpfs.Http.File
