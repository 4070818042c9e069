import Httpfs.Http.CurlDelivery

/-!
# A GET of the httplib client

Httplib reads the header of a final response and calls back with it, and then with each
piece of the body; a callback that returns false or throws ends the request.  A response
with an error code is put aside with its body, and its handler is called at the end.

A request without handlers is made by the library alone, which then collects the body.
-/

namespace Httpfs.Http.Httplib

open Curl Curl.GetTransferState Text

/-! ## The library -/

/-- A response as the library passes it; headers are in the order in which the library
enumerates them. -/
structure Response where
  status : Nat
  reason : Text := []
  headers : List (Text × Text) := []
  body : Text := []

/-- The result of a request: a response, or the text of an error. -/
inductive Result
  | success (response : Response)
  | failure (error : Text)

/-- Texts of the library, and the codes that DuckDB knows. -/
structure Library where
  canceled : Text
  toStatusCode : Nat → Nat

/-- What comes of a request on the wire: nothing, or the header of a final response and
some pieces of its body, which may break off with an error. -/
inductive Exchange
  | unanswered (error : Text)
  | answered (response : Response) (pieces : List Text) (error? : Option Text)

/-- How a body ends that no callback has ended. -/
def resultOf (response : Response) : Option Text → Result
  | none => .success response
  | some error => .failure error

/-- The result of a request without callbacks. -/
def Exchange.collected : Exchange → Result
  | .unanswered error => .failure error
  | .answered response pieces error? =>
      resultOf { response with body := pieces.flatten } error?

/-! ## Responses -/

/-- `HTTPStatusCode::INVALID`. -/
def invalidStatus : Nat :=
  0

namespace Library

variable (library : Library)

def transformResponse (response : Response) : Curl.HTTPResponse where
  status := library.toStatusCode response.status
  body := response.body
  reason := response.reason
  headers := response.headers.foldl (fun headers header => headers.insert header.1 header.2) .empty

def transformResult : Result → Curl.HTTPResponse
  | .success response => library.transformResponse response
  | .failure error => { status := invalidStatus, requestError := error }

end Library

/-! ## Callbacks -/

/-- `HTTPState`: what is counted for all requests of a query. -/
structure HTTPState where
  getCount : Nat := 0
  totalBytesReceived : Nat := 0

structure GetTransferState where
  state : Option HTTPState := none
  totalBytes : Nat := 0
  deferredResponse : Option Curl.HTTPResponse := none
  stoppedResponse : Option Curl.HTTPResponse := none
  /-- What the request says it has received. -/
  bytesReceived : Nat := 0
  /-- The calls made so far. -/
  calls : List Call := []

def GetTransferState.countGet (transfer : GetTransferState) : GetTransferState :=
  { transfer with
    state := transfer.state.map fun state => { state with getCount := state.getCount + 1 } }

def GetTransferState.countReceived (transfer : GetTransferState) (size : Nat) : GetTransferState :=
  { transfer with
    state := transfer.state.map fun state =>
      { state with totalBytesReceived := state.totalBytesReceived + size } }

section Client

variable (library : Library) (request : GetRequest)

def handle (call : Call) : Action GetTransferState Bool := do
  modify fun transfer => { transfer with calls := transfer.calls ++ [call] }
  let transfer ← get
  Action.lift (request.answer transfer.calls)

def handleResponse (response : Response) : Action GetTransferState Bool := do
  let httpResponse := library.transformResponse response
  if 400 ≤ httpResponse.status then do
    modify fun transfer => { transfer with deferredResponse := some httpResponse }
    pure true
  else if request.hasResponseHandler then do
    let goesOn ← handle request (.response httpResponse)
    if goesOn then pure true
    else do
      modify fun transfer => { transfer with stoppedResponse := some httpResponse }
      pure false
  else pure true

def handleContent (data : Text) : Action GetTransferState Bool := do
  modify fun transfer => { transfer with totalBytes := transfer.totalBytes + data.length }
  modify fun transfer => transfer.countReceived data.length
  let transfer ← get
  match transfer.deferredResponse with
  | some response => do
      modify fun transfer =>
        { transfer with deferredResponse := some { response with body := response.body ++ data } }
      pure true
  | none => if request.hasContentHandler then handle request (.content data) else pure true

def finish (result : Result) : Action GetTransferState Curl.HTTPResponse := do
  modify fun transfer => { transfer with bytesReceived := transfer.totalBytes }
  let transfer ← get
  match transfer.deferredResponse, transfer.stoppedResponse with
  | some response, _ =>
      if request.hasResponseHandler then do
        let _ ← handle request (.response response)
        pure response
      else pure response
  | none, some response => pure response
  | none, none => pure (library.transformResult result)

/-! ## Requests -/

/-- The pieces of a body, one by one. -/
def receive (result : Result) : List Text → Action GetTransferState Result
  | [] => pure result
  | piece :: rest => do
      let goesOn ← handleContent request piece
      if goesOn then receive result rest else pure (.failure library.canceled)

/-- The request of the library with both callbacks. -/
def perform : Exchange → Action GetTransferState Result
  | .unanswered error => pure (.failure error)
  | .answered response pieces error? => do
      let goesOn ← handleResponse library request response
      if goesOn then receive library request (resultOf response error?) pieces
      else pure (.failure library.canceled)

/-- `Get`. -/
def clientGet (exchange : Exchange) : Action GetTransferState Curl.HTTPResponse := do
  modify GetTransferState.countGet
  if !request.hasResponseHandler && !request.hasContentHandler then do
    let response := library.transformResult exchange.collected
    modify fun transfer => transfer.countReceived response.body.length
    pure response
  else do
    let result ← perform library request exchange
    finish library request result

end Client

end Httpfs.Http.Httplib
