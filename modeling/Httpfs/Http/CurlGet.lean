import Httpfs.Core.Action
import Httpfs.Http.CurlHeaders
import Mathlib.Algebra.Group.Nat.Defs

/-!
# A GET of the curl client

Curl calls back with the lines of all headers and the pieces of all bodies.  The
response handler is called where the final response starts and the content handler
with each piece of its body; a callback that takes less than it is given ends the
transfer.
-/

namespace Httpfs.Http.Curl

open Text

/-! ## State -/

/-- A call of one of the handlers of a request. -/
inductive Call
  | response (response : HTTPResponse)
  | content (data : Text)
  deriving DecidableEq

/-- A request, and what its handlers answer to the last of some calls. -/
structure GetRequest where
  hasResponseHandler : Bool
  hasContentHandler : Bool
  answer : List Call → Except ErrorData Bool
  messages : Messages

structure GetTransferState where
  requestInfo : RequestInfo := {}
  /-- What curl reports as the code of the response. -/
  curlCode : Nat := 0
  error : Option ErrorData := none
  bytesReceived : Nat := 0
  responseStarted : Bool := false
  responseHandlerCalled : Bool := false
  stopped : Bool := false
  /-- The calls made so far. -/
  calls : List Call := []

/-! ## Callbacks -/

namespace GetTransferState

def setResponseCode (state : GetTransferState) (code : Nat) : GetTransferState :=
  { state with requestInfo := { state.requestInfo with responseCode := code } }

def setHeaders (state : GetTransferState) (headers : List HTTPHeaders) : GetTransferState :=
  { state with requestInfo := { state.requestInfo with headerCollection := headers } }

def appendBody (state : GetTransferState) (contents : Text) : GetTransferState :=
  { state with requestInfo := { state.requestInfo with body := state.requestInfo.body ++ contents } }

def isProxyConnectResponse (state : GetTransferState) : Bool :=
  match state.requestInfo.headerCollection.getLast? with
  | none => false
  | some headers =>
      match headers.get? responseStatus with
      | none => false
      | some status => contains (lower status) "connection established".toList

end GetTransferState

def isEndOfHeaders (contents : Text) : Bool :=
  contents = ['\r', '\n'] || contents = ['\n']

/-- A code of no final response. -/
def Interim (code : Nat) : Prop :=
  code < 200 ∨ 300 ≤ code ∧ code < 400

instance (code : Nat) : Decidable (Interim code) :=
  inferInstanceAs (Decidable (_ ∨ _))

def codeOverflow : ErrorData :=
  .internal "Information loss on integer cast"

namespace GetRequest

variable (request : GetRequest)

def handle (call : Call) : Action GetTransferState Bool := do
  modify fun state => { state with calls := state.calls ++ [call] }
  let state ← get
  Action.lift (request.answer state.calls)

/-- Whether a body with some code is kept for the response. -/
def buffers (code : Nat) : Bool :=
  !request.hasContentHandler || 400 ≤ code

def startResponse : Action GetTransferState Bool := do
  let state ← get
  let responseCode := state.curlCode
  if 2 ^ 16 ≤ responseCode then throw codeOverflow
  else do
    modify fun state => state.setResponseCode responseCode
    if Interim responseCode then pure false
    else do
      modify fun state => { state with responseStarted := true }
      if request.buffers responseCode then pure true
      else do
        modify fun state => { state with responseHandlerCalled := true }
        if request.hasResponseHandler then do
          let state ← get
          let response := transformResponseCurl request.messages state.requestInfo 0 false
          let goesOn ← request.handle (.response response)
          if goesOn then pure true
          else do
            modify fun state => { state with stopped := true }
            pure false
        else pure true

/-- What a callback takes where the response has not started. -/
def takenUnstarted (size : Nat) : Action GetTransferState Nat := do
  let state ← get
  pure (if state.stopped then 0 else size)

def writeStarted (contents : Text) : Action GetTransferState Nat := do
  let state ← get
  if request.buffers state.requestInfo.responseCode then do
    modify fun state => state.appendBody contents
    modify fun state => { state with bytesReceived := state.bytesReceived + contents.length }
    pure contents.length
  else do
    let goesOn ← request.handle (.content contents)
    if goesOn then do
      modify fun state => { state with bytesReceived := state.bytesReceived + contents.length }
      pure contents.length
    else do
      modify fun state => { state with stopped := true }
      pure 0

/-- `Write`. -/
def write (contents : Text) : Action GetTransferState Nat := do
  let state ← get
  if state.responseStarted then request.writeStarted contents
  else do
    let started ← request.startResponse
    if started then request.writeStarted contents else takenUnstarted contents.length

/-- A callback keeps an exception and takes nothing. -/
def caught (action : Action GetTransferState Nat) : Action GetTransferState Nat :=
  tryCatch action fun error => do
    modify fun state => { state with error := some error }
    pure 0

def writeCallback (contents : Text) : Action GetTransferState Nat :=
  caught (request.write contents)

/-- `HeaderCallback`; what `RequestHeaderCallback` throws is not caught. -/
def headerCallback (contents : Text) : Action GetTransferState Nat := do
  let state ← get
  let (totalSize, headers) ←
    Action.lift (requestHeaderCallback contents state.requestInfo.headerCollection)
  modify fun state => state.setHeaders headers
  let state ← get
  if totalSize = 0 || !isEndOfHeaders contents || state.isProxyConnectResponse then pure totalSize
  else
    caught (if state.responseStarted then pure totalSize
      else do
        let started ← request.startResponse
        if started then pure totalSize else takenUnstarted totalSize)

/-! ## Transfers -/

/-- `Finish`: the response, or an exception of a handler. -/
def finish (result : Nat) : Action GetTransferState HTTPResponse := do
  modify fun state => state.setResponseCode state.curlCode
  let state ← get
  let includeBody := request.buffers state.requestInfo.responseCode
  match state.error with
  | some error => throw error
  | none => do
      let result := if state.stopped then 0 else result
      let response := transformResponseCurl request.messages state.requestInfo result includeBody
      if result = 0 && !state.responseHandlerCalled then do
        modify fun state => { state with responseHandlerCalled := true }
        if request.hasResponseHandler then do
          let _ ← request.handle (.response response)
          pure response
        else pure response
      else pure response

end GetRequest

inductive Event
  | header (line : Text)
  | write (contents : Text)

def Event.size : Event → Nat
  | header line => line.length
  | write contents => contents.length

def GetRequest.callback (request : GetRequest) : Event → Action GetTransferState Nat
  | .header line => request.headerCallback line
  | .write contents => request.writeCallback contents

/-- Events with the code that curl reports then, until a callback does not take what it
is given; whether all were taken. -/
def GetRequest.perform (request : GetRequest) : List (Nat × Event) → Action GetTransferState Bool
  | [] => pure true
  | (code, event) :: rest => do
      modify fun state => { state with curlCode := code }
      let taken ← request.callback event
      if taken = event.size then request.perform rest else pure false

/-- The result of a transfer that a callback has ended. -/
def writeError : Nat :=
  23

/-- A transfer of some events with the result that curl gives it. -/
def GetRequest.transfer (request : GetRequest) (events : List (Nat × Event)) (result : Nat) :
    Action GetTransferState HTTPResponse := do
  let all ← request.perform events
  request.finish (if all then result else writeError)

/-! ## Runs of callbacks -/

theorem run_get_bind {σ α : Type} (next : σ → Action σ α) (state : σ) :
    (get >>= next : Action σ α).run state = (next state).run state :=
  rfl

theorem run_modify_bind {σ α : Type} (change : σ → σ) (next : PUnit → Action σ α) (state : σ) :
    (modify change >>= next : Action σ α).run state = (next ⟨⟩).run (change state) :=
  rfl

theorem run_tryCatch {σ α : Type} (action : Action σ α) (handler : ErrorData → Action σ α)
    (state : σ) :
    (tryCatch action handler).run state =
      match action.run state with
      | (.ok value, state) => (.ok value, state)
      | (.error error, state) => (handler error).run state :=
  rfl

/-! ## Phases of a transfer -/

namespace GetTransferState

/-- Nothing of a final response was seen. -/
structure Idle (state : GetTransferState) : Prop where
  unstarted : state.responseStarted = false
  uncalled : state.responseHandlerCalled = false
  unstopped : state.stopped = false
  noError : state.error = none
  noCalls : state.calls = []
  noBody : state.requestInfo.body = []

/-- Every call of some calls was answered with true. -/
def GoesOn (request : GetRequest) (calls : List Call) : Prop :=
  ∀ front call back, calls = front ++ call :: back → request.answer (front ++ [call]) = .ok true

/-- A body is kept for the response. -/
structure Buffering (request : GetRequest) (body : Text) (state : GetTransferState) : Prop where
  started : state.responseStarted = true
  uncalled : state.responseHandlerCalled = false
  unstopped : state.stopped = false
  noError : state.error = none
  noCalls : state.calls = []
  isBody : state.requestInfo.body = body
  buffers : request.buffers state.requestInfo.responseCode = true

/-- A body is given to the content handler. -/
structure Streaming (request : GetRequest) (calls : List Call) (state : GetTransferState) :
    Prop where
  started : state.responseStarted = true
  called : state.responseHandlerCalled = true
  unstopped : state.stopped = false
  noError : state.error = none
  areCalls : state.calls = calls
  goesOn : GoesOn request calls
  streams : request.buffers state.requestInfo.responseCode = false

/-- The last of some calls was not answered with true. -/
def Ends (request : GetRequest) (calls : List Call) : Prop :=
  ∃ front call, calls = front ++ [call] ∧ GoesOn request front ∧ request.answer calls ≠ .ok true

/-- A handler has stopped or failed. -/
structure Halted (request : GetRequest) (calls : List Call) (state : GetTransferState) :
    Prop where
  called : state.responseHandlerCalled = true
  started : state.responseStarted = true
  areCalls : state.calls = calls
  ends : Ends request calls
  stopped : state.stopped = true ↔ request.answer calls = .ok false
  failed : ∀ error, state.error = some error ↔ request.answer calls = .error error

end GetTransferState

open GetTransferState

theorem goesOn_nil (request : GetRequest) : GoesOn request [] := by
  intro front call back cut
  simp at cut

theorem GetTransferState.GoesOn.concat {request : GetRequest} {calls : List Call} {call : Call}
    (goesOn : GoesOn request calls) (answered : request.answer (calls ++ [call]) = .ok true) :
    GoesOn request (calls ++ [call]) := by
  intro front other back cut
  rcases List.eq_nil_or_concat back with rfl | ⟨between, last, rfl⟩
  · obtain ⟨rfl, lastEq⟩ := List.append_inj' cut rfl
    rw [← lastEq]
    exact answered
  · rw [List.concat_eq_append, ← List.cons_append, ← List.append_assoc] at cut
    obtain ⟨callsEq, -⟩ := List.append_inj' cut rfl
    exact goesOn front other between callsEq

/-- The state behind a call. -/
def GetTransferState.addCall (state : GetTransferState) (call : Call) : GetTransferState :=
  { state with calls := state.calls ++ [call] }

section

variable {request : GetRequest} {calls : List Call} {state : GetTransferState} {call : Call}

theorem GetTransferState.Streaming.goOn (streaming : state.Streaming request calls)
    (answered : request.answer (calls ++ [call]) = .ok true) :
    (state.addCall call).Streaming request (calls ++ [call]) where
  started := streaming.started
  called := streaming.called
  unstopped := streaming.unstopped
  noError := streaming.noError
  areCalls := congrArg (· ++ [call]) streaming.areCalls
  goesOn := streaming.goesOn.concat answered
  streams := streaming.streams

theorem GetTransferState.Streaming.stop (streaming : state.Streaming request calls)
    (answered : request.answer (calls ++ [call]) = .ok false) :
    ({ state.addCall call with stopped := true } : GetTransferState).Halted request
      (calls ++ [call]) where
  called := streaming.called
  started := streaming.started
  areCalls := congrArg (· ++ [call]) streaming.areCalls
  ends := ⟨calls, call, rfl, streaming.goesOn, by rw [answered]; simp⟩
  stopped := iff_of_true rfl answered
  failed error := by
    rw [answered]
    exact iff_of_false (by simp [GetTransferState.addCall, streaming.noError]) (by simp)

theorem GetTransferState.Streaming.fail {error : ErrorData}
    (streaming : state.Streaming request calls)
    (answered : request.answer (calls ++ [call]) = .error error) :
    ({ state.addCall call with error := some error } : GetTransferState).Halted request
      (calls ++ [call]) where
  called := streaming.called
  started := streaming.started
  areCalls := congrArg (· ++ [call]) streaming.areCalls
  ends := ⟨calls, call, rfl, streaming.goesOn, by rw [answered]; simp⟩
  stopped := by
    rw [answered]
    exact iff_of_false (by simp [GetTransferState.addCall, streaming.unstopped]) (by simp)
  failed other := by
    rw [answered, Option.some.injEq, Except.error.injEq]

end

namespace GetRequest

variable {request : GetRequest}

theorem run_caught_of_ok {action : Action GetTransferState Nat} {state after : GetTransferState}
    {taken : Nat} (returns : action.run state = (Except.ok taken, after)) :
    (caught action).run state = (.ok taken, after) := by
  rw [caught, run_tryCatch, returns]

theorem run_caught_of_error {action : Action GetTransferState Nat}
    {state after : GetTransferState} {error : ErrorData}
    (throws : action.run state = (Except.error error, after)) :
    (caught action).run state = (.ok 0, { after with error := some error }) := by
  rw [caught, run_tryCatch, throws]
  rfl

theorem run_handle (call : Call) (state : GetTransferState) :
    (request.handle call).run state =
      (request.answer (state.calls ++ [call]), state.addCall call) :=
  rfl

/-! ## Responses that start -/

theorem run_startResponse_interim {state : GetTransferState} (interim : Interim state.curlCode) :
    request.startResponse.run state = (.ok false, state.setResponseCode state.curlCode) := by
  have small : ¬ 2 ^ 16 ≤ state.curlCode := by
    rcases interim with low | ⟨-, high⟩ <;> omega
  rw [startResponse, run_get_bind]
  dsimp only
  rw [if_neg small, run_modify_bind, if_pos interim]
  rfl

/-- The code of a final response. -/
def Final (code : Nat) : Prop :=
  ¬ Interim code ∧ code < 2 ^ 16

/-- The calls with which the body of a response is opened. -/
def opening (request : GetRequest) (state : GetTransferState) : List Call :=
  if request.hasResponseHandler then
    [.response (transformResponseCurl request.messages
      (state.setResponseCode state.curlCode).requestInfo 0 false)]
  else []

/-- A body that is kept for the response starts without a call. -/
theorem run_startResponse_buffers {state : GetTransferState} (idle : state.Idle)
    (final : Final state.curlCode) (buffers : request.buffers state.curlCode = true) :
    ∃ after, request.startResponse.run state = (.ok true, after) ∧ after.Buffering request [] ∧
      after.requestInfo.headerCollection = state.requestInfo.headerCollection := by
  have small : ¬ 2 ^ 16 ≤ state.curlCode := by
    have bound := final.2
    omega
  refine ⟨{ state.setResponseCode state.curlCode with responseStarted := true }, ?_, ?_, rfl⟩
  · rw [startResponse, run_get_bind]
    dsimp only
    rw [if_neg small, run_modify_bind, if_neg final.1, run_modify_bind, if_pos buffers]
    rfl
  · exact ⟨rfl, idle.uncalled, idle.unstopped, idle.noError, idle.noCalls, idle.noBody, buffers⟩

/-- What a call of a handler leads to. -/
def Continues (request : GetRequest) (calls : List Call) (reply : Except ErrorData Bool)
    (after : GetTransferState) : Prop :=
  match reply with
  | .ok true => after.Streaming request calls
  | .ok false => after.Halted request calls ∧ after.stopped = true
  | .error error => ({ after with error := some error } : GetTransferState).Halted request calls

/-- Before a body is streamed the response handler is called, if there is one. -/
theorem run_startResponse_streams {state : GetTransferState} (idle : state.Idle)
    (final : Final state.curlCode) (streams : request.buffers state.curlCode = false) :
    ∃ reply after, request.startResponse.run state = (reply, after) ∧
      Continues request (opening request state) reply after ∧
      after.requestInfo.headerCollection = state.requestInfo.headerCollection ∧
      after.curlCode = state.curlCode := by
  have small : ¬ 2 ^ 16 ≤ state.curlCode := by
    have bound := final.2
    omega
  generalize begunEq : ({ state.setResponseCode state.curlCode with
    responseStarted := true, responseHandlerCalled := true } : GetTransferState) = begun
  have streaming : begun.Streaming request [] := by
    rw [← begunEq]
    exact ⟨rfl, rfl, idle.unstopped, idle.noError, idle.noCalls, goesOn_nil request, streams⟩
  have sameHeaders : begun.requestInfo.headerCollection = state.requestInfo.headerCollection := by
    rw [← begunEq]
    rfl
  have sameCode : begun.curlCode = state.curlCode := by
    rw [← begunEq]
    rfl
  have sameInfo : begun.requestInfo = (state.setResponseCode state.curlCode).requestInfo := by
    rw [← begunEq]
  have run : request.startResponse.run state =
      (if request.hasResponseHandler then do
        let state ← get
        let response := transformResponseCurl request.messages state.requestInfo 0 false
        let goesOn ← request.handle (.response response)
        if goesOn then pure true
        else do
          modify fun state => { state with stopped := true }
          pure false
      else pure true : Action GetTransferState Bool).run begun := by
    rw [startResponse, run_get_bind]
    dsimp only
    rw [if_neg small, run_modify_bind, if_neg final.1, run_modify_bind,
      if_neg (by rw [streams]; decide), run_modify_bind, ← begunEq]
  rw [run]
  by_cases handled : request.hasResponseHandler = true
  · generalize callEq : Call.response (transformResponseCurl request.messages begun.requestInfo 0
      false) = call
    have openingEq : opening request state = [] ++ [call] := by
      rw [opening, if_pos handled, ← callEq, sameInfo, List.nil_append]
    have answeredEq : (request.handle call).run begun =
        (request.answer ([] ++ [call]), begun.addCall call) := by
      rw [run_handle, streaming.areCalls]
    rw [if_pos handled, run_get_bind]
    dsimp only
    rw [callEq, openingEq]
    cases answered : request.answer ([] ++ [call]) with
    | error error =>
        rw [answered] at answeredEq
        refine ⟨.error error, begun.addCall call, Action.run_bind_of_error answeredEq,
          streaming.fail answered, sameHeaders, sameCode⟩
    | ok goesOn =>
        rw [answered] at answeredEq
        rw [Action.run_bind_of_ok answeredEq]
        cases goesOn with
        | true =>
            exact ⟨.ok true, begun.addCall call, rfl, streaming.goOn answered, sameHeaders,
              sameCode⟩
        | false =>
            exact ⟨.ok false, { begun.addCall call with stopped := true }, rfl,
              ⟨streaming.stop answered, rfl⟩, sameHeaders, sameCode⟩
  · have openingEq : opening request state = [] := by
      rw [opening, if_neg handled]
    rw [if_neg handled, openingEq]
    exact ⟨.ok true, begun, rfl, streaming, sameHeaders, sameCode⟩

/-! ## Pieces of a body -/

/-- What was taken of an event, and the calls made by then out of some that are due. -/
def Taken (request : GetRequest) (due : List Call) (size taken : Nat)
    (after : GetTransferState) : Prop :=
  taken = size ∧ after.Streaming request due ∨
    taken = 0 ∧ ∃ done, done <+: due ∧ after.Halted request done

theorem run_writeStarted_buffers {body : Text} {state : GetTransferState}
    (buffering : state.Buffering request body) (contents : Text) :
    ∃ after, (request.writeStarted contents).run state = (.ok contents.length, after) ∧
      after.Buffering request (body ++ contents) ∧
      after.requestInfo.headerCollection = state.requestInfo.headerCollection := by
  refine ⟨{ state.appendBody contents with
    bytesReceived := state.bytesReceived + contents.length }, ?_, ?_, rfl⟩
  · rw [writeStarted, run_get_bind]
    dsimp only
    rw [if_pos buffering.buffers, run_modify_bind, run_modify_bind]
    rfl
  · exact ⟨buffering.started, buffering.uncalled, buffering.unstopped, buffering.noError,
      buffering.noCalls, congrArg (· ++ contents) buffering.isBody, buffering.buffers⟩

theorem run_writeStarted_streams {calls : List Call} {state : GetTransferState}
    (streaming : state.Streaming request calls) (contents : Text) :
    ∃ taken after, (caught (request.writeStarted contents)).run state = (.ok taken, after) ∧
      Taken request (calls ++ [.content contents]) contents.length taken after ∧
      after.requestInfo.headerCollection = state.requestInfo.headerCollection := by
  generalize callEq : Call.content contents = call
  have run : (request.writeStarted contents).run state =
      (do
        let goesOn ← request.handle call
        if goesOn then do
          modify fun state => { state with bytesReceived := state.bytesReceived + contents.length }
          pure contents.length
        else do
          modify fun state => { state with stopped := true }
          pure 0 : Action GetTransferState Nat).run state := by
    rw [writeStarted, run_get_bind]
    rw [if_neg (by rw [streaming.streams]; decide), callEq]
  have answeredEq : (request.handle call).run state =
      (request.answer (calls ++ [call]), state.addCall call) := by
    rw [run_handle, streaming.areCalls]
  cases answered : request.answer (calls ++ [call]) with
  | error error =>
      rw [answered] at answeredEq
      rw [Action.run_bind_of_error answeredEq] at run
      exact ⟨0, _, run_caught_of_error run, .inr ⟨rfl, _, List.prefix_rfl, streaming.fail answered⟩,
        rfl⟩
  | ok goesOn =>
      rw [answered] at answeredEq
      rw [Action.run_bind_of_ok answeredEq] at run
      cases goesOn with
      | true =>
          have continues := streaming.goOn answered
          exact ⟨contents.length, _, run_caught_of_ok run,
            .inl ⟨rfl, ⟨continues.started, continues.called, continues.unstopped,
              continues.noError, continues.areCalls, continues.goesOn, continues.streams⟩⟩, rfl⟩
      | false =>
          exact ⟨0, _, run_caught_of_ok run,
            .inr ⟨rfl, _, List.prefix_rfl, streaming.stop answered⟩, rfl⟩

/-- A piece of a body that is kept. -/
theorem run_writeCallback_buffers {body : Text} {state : GetTransferState}
    (buffering : state.Buffering request body) (contents : Text) :
    ∃ after, (request.writeCallback contents).run state = (.ok contents.length, after) ∧
      after.Buffering request (body ++ contents) ∧
      after.requestInfo.headerCollection = state.requestInfo.headerCollection := by
  obtain ⟨after, run, buffered, sameHeaders⟩ := run_writeStarted_buffers buffering contents
  refine ⟨after, run_caught_of_ok ?_, buffered, sameHeaders⟩
  rw [write, run_get_bind]
  rw [if_pos buffering.started, run]

theorem run_writeCallback_streams {calls : List Call} {state : GetTransferState}
    (streaming : state.Streaming request calls) (contents : Text) :
    ∃ taken after, (request.writeCallback contents).run state = (.ok taken, after) ∧
      Taken request (calls ++ [.content contents]) contents.length taken after ∧
      after.requestInfo.headerCollection = state.requestInfo.headerCollection := by
  have asStarted : (request.write contents).run state = (request.writeStarted contents).run state := by
    rw [write, run_get_bind]
    rw [if_pos streaming.started]
  obtain ⟨taken, after, run, isTaken, sameHeaders⟩ := run_writeStarted_streams streaming contents
  refine ⟨taken, after, ?_, isTaken, sameHeaders⟩
  rw [writeCallback, caught, run_tryCatch, asStarted, ← run_tryCatch]
  exact run

/-- Pieces of other bodies are passed over. -/
theorem run_writeCallback_interim {state : GetTransferState} (idle : state.Idle)
    (interim : Interim state.curlCode) (contents : Text) :
    (request.writeCallback contents).run state =
      (.ok contents.length, state.setResponseCode state.curlCode) := by
  apply run_caught_of_ok
  rw [write, run_get_bind]
  rw [if_neg (by rw [idle.unstarted]; decide),
    Action.run_bind_of_ok (run_startResponse_interim interim), if_neg (by decide), takenUnstarted,
    run_get_bind]
  rw [if_neg (show ¬ (state.setResponseCode state.curlCode).stopped = true by
    rw [show (state.setResponseCode state.curlCode).stopped = state.stopped from rfl,
      idle.unstopped]
    decide)]
  rfl

/-- The first piece of a body whose response has not started yet. -/
theorem run_writeCallback_idle_buffers {state : GetTransferState} (idle : state.Idle)
    (final : Final state.curlCode) (buffers : request.buffers state.curlCode = true)
    (contents : Text) :
    ∃ after, (request.writeCallback contents).run state = (.ok contents.length, after) ∧
      after.Buffering request contents ∧
      after.requestInfo.headerCollection = state.requestInfo.headerCollection := by
  obtain ⟨begun, started, buffering, sameHeaders⟩ := run_startResponse_buffers idle final buffers
  obtain ⟨after, run, buffered, laterHeaders⟩ := run_writeStarted_buffers buffering contents
  refine ⟨after, run_caught_of_ok ?_, buffered, laterHeaders.trans sameHeaders⟩
  rw [write, run_get_bind]
  rw [if_neg (by rw [idle.unstarted]; decide), Action.run_bind_of_ok started, if_pos rfl, run]

theorem run_writeCallback_idle_streams {state : GetTransferState} (idle : state.Idle)
    (final : Final state.curlCode) (streams : request.buffers state.curlCode = false)
    (contents : Text) :
    ∃ taken after, (request.writeCallback contents).run state = (.ok taken, after) ∧
      Taken request (opening request state ++ [.content contents]) contents.length taken after ∧
      after.requestInfo.headerCollection = state.requestInfo.headerCollection := by
  obtain ⟨reply, begun, started, continues, sameHeaders, -⟩ :=
    run_startResponse_streams idle final streams
  have unstarted : ¬ state.responseStarted = true := by
    rw [idle.unstarted]
    decide
  have isBeginning : opening request state <+: opening request state ++ [.content contents] :=
    List.prefix_append _ _
  cases reply with
  | error error =>
      have run : (request.write contents).run state = (.error error, begun) := by
        rw [write, run_get_bind]
        rw [if_neg unstarted, Action.run_bind_of_error started]
      exact ⟨0, _, run_caught_of_error run, .inr ⟨rfl, _, isBeginning, continues⟩, sameHeaders⟩
  | ok goesOn =>
      cases goesOn with
      | true =>
          have asStarted : (request.write contents).run state =
              (request.writeStarted contents).run begun := by
            rw [write, run_get_bind]
            rw [if_neg unstarted, Action.run_bind_of_ok started, if_pos rfl]
          obtain ⟨taken, after, run, isTaken, laterHeaders⟩ :=
            run_writeStarted_streams continues contents
          refine ⟨taken, after, ?_, isTaken, laterHeaders.trans sameHeaders⟩
          rw [writeCallback, caught, run_tryCatch, asStarted, ← run_tryCatch]
          exact run
      | false =>
          obtain ⟨halted, stopped⟩ := continues
          have run : (request.write contents).run state = (.ok 0, begun) := by
            rw [write, run_get_bind, if_neg unstarted, Action.run_bind_of_ok started,
              if_neg (by decide), takenUnstarted, run_get_bind, if_pos stopped]
            rfl
          exact ⟨0, begun, run_caught_of_ok run, .inr ⟨rfl, _, isBeginning, halted⟩, sameHeaders⟩

/-! ## Header lines -/

section

variable {state : GetTransferState} {line : Text} {headers : List HTTPHeaders}
  (received : headersAfter state.requestInfo.headerCollection line = .ok headers)

include received

theorem run_headerCallback :
    (request.headerCallback line).run state =
      (if line.length = 0 || !isEndOfHeaders line ||
          (state.setHeaders headers).isProxyConnectResponse then pure line.length
        else
          caught (if state.responseStarted then pure line.length
            else do
              let started ← request.startResponse
              if started then pure line.length else takenUnstarted line.length) :
        Action GetTransferState Nat).run (state.setHeaders headers) := by
  have lifted : (Action.lift (requestHeaderCallback line state.requestInfo.headerCollection) :
      Action GetTransferState _).run state = (.ok (line.length, headers), state) := by
    rw [Action.run_lift, requestHeaderCallback_eq, received]
    rfl
  rw [headerCallback, run_get_bind, Action.run_bind_of_ok lifted]
  dsimp only
  rw [run_modify_bind, run_get_bind]
  rfl

/-- A line that does not end a header only adds to the headers. -/
theorem run_headerCallback_line (notEnd : isEndOfHeaders line = false) :
    (request.headerCallback line).run state = (.ok line.length, state.setHeaders headers) := by
  rw [run_headerCallback received, if_pos (by rw [notEnd]; simp)]
  rfl

/-- So does the empty line of a proxy. -/
theorem run_headerCallback_proxy
    (proxy : (state.setHeaders headers).isProxyConnectResponse = true) :
    (request.headerCallback line).run state = (.ok line.length, state.setHeaders headers) := by
  rw [run_headerCallback received, if_pos (by rw [proxy]; simp)]
  rfl

/-- At any other empty line a response may start. -/
theorem run_headerCallback_end (isEnd : isEndOfHeaders line = true)
    (noProxy : (state.setHeaders headers).isProxyConnectResponse = false)
    (unstarted : state.responseStarted = false) :
    (request.headerCallback line).run state =
      (caught (do
        let started ← request.startResponse
        if started then pure line.length else takenUnstarted line.length)).run
          (state.setHeaders headers) := by
  have nonempty : line.length ≠ 0 := by
    intro empty
    rw [List.length_eq_zero_iff.mp empty] at isEnd
    exact absurd isEnd (by decide)
  rw [run_headerCallback received, if_neg (by rw [noProxy, isEnd]; simp [nonempty]),
    if_neg (by rw [unstarted]; decide)]

end

/-- The empty line of another block. -/
theorem run_headerCallback_interim {state : GetTransferState} {line : Text}
    {headers : List HTTPHeaders}
    (received : headersAfter state.requestInfo.headerCollection line = .ok headers)
    (idle : state.Idle) (interim : Interim state.curlCode) :
    ∃ after, (request.headerCallback line).run state = (.ok line.length, after) ∧ after.Idle ∧
      after.requestInfo.headerCollection = headers := by
  have stillIdle : (state.setHeaders headers).Idle :=
    ⟨idle.unstarted, idle.uncalled, idle.unstopped, idle.noError, idle.noCalls, idle.noBody⟩
  cases isEnd : isEndOfHeaders line with
  | false => exact ⟨_, run_headerCallback_line received isEnd, stillIdle, rfl⟩
  | true =>
      cases proxy : (state.setHeaders headers).isProxyConnectResponse with
      | true => exact ⟨_, run_headerCallback_proxy received proxy, stillIdle, rfl⟩
      | false =>
          refine ⟨(state.setHeaders headers).setResponseCode state.curlCode, ?_,
            ⟨idle.unstarted, idle.uncalled, idle.unstopped, idle.noError, idle.noCalls,
              idle.noBody⟩, rfl⟩
          have started : request.startResponse.run (state.setHeaders headers) =
              (.ok false, (state.setHeaders headers).setResponseCode state.curlCode) :=
            run_startResponse_interim interim
          have unstopped : ¬ ((state.setHeaders headers).setResponseCode state.curlCode).stopped =
              true := by
            rw [show ((state.setHeaders headers).setResponseCode state.curlCode).stopped =
              state.stopped from rfl, idle.unstopped]
            decide
          rw [run_headerCallback_end received isEnd proxy idle.unstarted]
          apply run_caught_of_ok
          rw [Action.run_bind_of_ok started, if_neg (by decide), takenUnstarted, run_get_bind,
            if_neg unstopped]
          rfl

/-- What starts at the empty line of a final response. -/
theorem run_headerCallback_final {state : GetTransferState} {line : Text}
    {headers : List HTTPHeaders}
    (received : headersAfter state.requestInfo.headerCollection line = .ok headers)
    (idle : (state.setHeaders headers).Idle) (final : Final state.curlCode) :
    ∃ taken after, (request.headerCallback line).run state = (.ok taken, after) ∧
      after.requestInfo.headerCollection = headers ∧
      (taken = line.length ∧ after = state.setHeaders headers ∨
        request.buffers state.curlCode = true ∧ taken = line.length ∧ after.Buffering request [] ∨
        request.buffers state.curlCode = false ∧
          Taken request (opening request (state.setHeaders headers)) line.length taken after) := by
  cases isEnd : isEndOfHeaders line with
  | false => exact ⟨_, _, run_headerCallback_line received isEnd, rfl, .inl ⟨rfl, rfl⟩⟩
  | true =>
      cases proxy : (state.setHeaders headers).isProxyConnectResponse with
      | true => exact ⟨_, _, run_headerCallback_proxy received proxy, rfl, .inl ⟨rfl, rfl⟩⟩
      | false =>
          rw [run_headerCallback_end received isEnd proxy idle.unstarted]
          cases buffers : request.buffers state.curlCode with
          | true =>
              obtain ⟨begun, started, buffering, sameHeaders⟩ :=
                run_startResponse_buffers idle final buffers
              refine ⟨line.length, begun, run_caught_of_ok ?_, sameHeaders,
                .inr (.inl ⟨rfl, rfl, buffering⟩)⟩
              rw [Action.run_bind_of_ok started, if_pos rfl]
              rfl
          | false =>
              obtain ⟨reply, begun, started, continues, sameHeaders, -⟩ :=
                run_startResponse_streams idle final buffers
              cases reply with
              | error error =>
                  exact ⟨0, _, run_caught_of_error (Action.run_bind_of_error started), sameHeaders,
                    .inr (.inr ⟨rfl, .inr ⟨rfl, _, List.prefix_rfl, continues⟩⟩)⟩
              | ok goesOn =>
                  cases goesOn with
                  | true =>
                      refine ⟨line.length, begun, run_caught_of_ok ?_, sameHeaders,
                        .inr (.inr ⟨rfl, .inl ⟨rfl, continues⟩⟩)⟩
                      rw [Action.run_bind_of_ok started, if_pos rfl]
                      rfl
                  | false =>
                      obtain ⟨halted, stopped⟩ := continues
                      refine ⟨0, begun, run_caught_of_ok ?_, sameHeaders,
                        .inr (.inr ⟨rfl, .inr ⟨rfl, _, List.prefix_rfl, halted⟩⟩)⟩
                      rw [Action.run_bind_of_ok started, if_neg (by decide), takenUnstarted,
                        run_get_bind, if_pos stopped]
                      rfl

end GetRequest

end Httpfs.Http.Curl
