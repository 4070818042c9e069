import Httpfs.Http.HandlerCalls
import Httpfs.Http.HttplibGet

/-!
# What a GET of the httplib client delivers

The handlers see what they see with the curl client, unless there is a handler for the
response and none for its body: then the body is lost.
-/

namespace Httpfs.Http.Httplib

open Curl Curl.GetTransferState Text
open Curl.GetRequest (Opens)

variable {library : Library} {request : GetRequest} {transfer : GetTransferState}

/-! ## Pieces -/

/-- What a call of a handler comes to. -/
theorem run_handle (call : Call) : (handle request call).run transfer =
    (request.answer (transfer.calls ++ [call]),
      { transfer with calls := transfer.calls ++ [call] }) :=
  rfl

def GetTransferState.addPiece (transfer : GetTransferState) (data : Text) : GetTransferState :=
  GetTransferState.countReceived
    { transfer with totalBytes := transfer.totalBytes + data.length } data.length

theorem run_handleContent (data : Text) : (handleContent request data).run transfer =
    match transfer.deferredResponse with
    | some response =>
        (.ok true, { transfer.addPiece data with
          deferredResponse := some { response with body := response.body ++ data } })
    | none =>
        if request.hasContentHandler then (handle request (.content data)).run (transfer.addPiece data)
        else (.ok true, transfer.addPiece data) := by
  change Action.run (match transfer.deferredResponse with | some response => _ | none => _) _ = _
  cases transfer.deferredResponse with
  | some response => rfl
  | none =>
      dsimp only
      split <;> rfl

/-- The body of a response that was put aside is added to it. -/
theorem run_receive_deferred (result : Result) {response : Curl.HTTPResponse} {pieces : List Text}
    (deferred : transfer.deferredResponse = some response) :
    ∃ after, (receive library request result pieces).run transfer = (.ok result, after) ∧
      after.deferredResponse = some { response with body := response.body ++ pieces.flatten } ∧
      after.calls = transfer.calls := by
  induction pieces generalizing transfer response with
  | nil =>
      refine ⟨transfer, rfl, ?_, rfl⟩
      rw [deferred, List.flatten_nil, List.append_nil]
  | cons piece rest inductionHypothesis =>
      have piece_run := @run_handleContent request transfer piece
      rw [deferred] at piece_run
      dsimp only at piece_run
      obtain ⟨after, run, isDeferred, calls⟩ := @inductionHypothesis
        { transfer.addPiece piece with
          deferredResponse := some { response with body := response.body ++ piece } } _ rfl
      refine ⟨after, ?_, ?_, calls⟩
      · rw [receive, Action.run_bind_of_ok piece_run]
        exact run
      · rw [isDeferred, List.flatten_cons, List.append_assoc]

/-- Without a handler the body is dropped. -/
theorem run_receive_dropped (result : Result) (unhandled : request.hasContentHandler = false)
    {pieces : List Text} (undeferred : transfer.deferredResponse = none) :
    ∃ after, (receive library request result pieces).run transfer = (.ok result, after) ∧
      after.deferredResponse = none ∧ after.stoppedResponse = transfer.stoppedResponse ∧
      after.calls = transfer.calls := by
  induction pieces generalizing transfer with
  | nil => exact ⟨transfer, rfl, undeferred, rfl, rfl⟩
  | cons piece rest inductionHypothesis =>
      have piece_run := @run_handleContent request transfer piece
      rw [undeferred, unhandled] at piece_run
      obtain ⟨after, run, others⟩ := @inductionHypothesis (transfer.addPiece piece) undeferred
      refine ⟨after, ?_, others⟩
      rw [receive, Action.run_bind_of_ok piece_run]
      exact run

/-- What the library makes of the last answer of the handlers. -/
def answered (library : Library) (result : Result) : Except ErrorData Bool → Except ErrorData Result
  | .ok true => .ok result
  | .ok false => .ok (.failure library.canceled)
  | .error error => .error error

/-- The pieces are handed over until a handler ends the request. -/
theorem run_receive_streams (result : Result) (handled : request.hasContentHandler = true)
    {pieces : List Text} (undeferred : transfer.deferredResponse = none) :
    ∃ after, (receive library request result pieces).run transfer =
        (answered library result
          (request.handOver transfer.calls (pieces.map .content)).2, after) ∧
      after.deferredResponse = none ∧ after.stoppedResponse = transfer.stoppedResponse ∧
      after.calls = (request.handOver transfer.calls (pieces.map .content)).1 := by
  induction pieces generalizing transfer with
  | nil => exact ⟨transfer, rfl, undeferred, rfl, rfl⟩
  | cons piece rest inductionHypothesis =>
      have piece_run := @run_handleContent request transfer piece
      rw [undeferred, handled] at piece_run
      change _ = (request.answer (transfer.calls ++ [.content piece]), _) at piece_run
      rw [List.map_cons, GetRequest.handOver, receive]
      cases answer : request.answer (transfer.calls ++ [.content piece]) with
      | error error =>
          rw [answer] at piece_run
          exact ⟨_, Action.run_bind_of_error piece_run, undeferred, rfl, rfl⟩
      | ok goesOn =>
          rw [answer] at piece_run
          rw [Action.run_bind_of_ok piece_run]
          cases goesOn with
          | false => exact ⟨_, rfl, undeferred, rfl, rfl⟩
          | true =>
              exact @inductionHypothesis
                { transfer.addPiece piece with calls := transfer.calls ++ [.content piece] }
                undeferred

/-! ## Responses -/

/-- The calls that open a body. -/
def opening (library : Library) (request : GetRequest) (response : Response) : List Call :=
  if request.hasResponseHandler then [.response (library.transformResponse response)] else []

theorem run_finish (undeferred : transfer.deferredResponse = none)
    (unstopped : transfer.stoppedResponse = none) (result : Result) :
    (finish library request result).run transfer =
      (.ok (library.transformResult result),
        { transfer with bytesReceived := transfer.totalBytes }) := by
  obtain ⟨state, totalBytes, deferredResponse, stoppedResponse, bytesReceived, calls⟩ := transfer
  subst undeferred unstopped
  rfl

theorem run_finish_deferred {made : Curl.HTTPResponse}
    (deferred : transfer.deferredResponse = some made) (uncalled : transfer.calls = []) (result : Result) :
    ∃ after, (finish library request result).run transfer =
        (if request.hasResponseHandler then (request.answer [.response made]).map fun _ => made
          else .ok made, after) ∧
      after.calls = if request.hasResponseHandler then [.response made] else [] := by
  obtain ⟨state, totalBytes, deferredResponse, stoppedResponse, bytesReceived, calls⟩ := transfer
  subst deferred uncalled
  have run : (finish library request result).run
      ⟨state, totalBytes, some made, stoppedResponse, bytesReceived, []⟩ =
      (if request.hasResponseHandler = true then do
          let _ ← handle request (.response made)
          pure made
        else pure made : Action GetTransferState Curl.HTTPResponse).run
        ⟨state, totalBytes, some made, stoppedResponse, totalBytes, []⟩ := rfl
  rw [run]
  by_cases handled : request.hasResponseHandler = true
  · rw [if_pos handled, if_pos handled, if_pos handled, Action.run_bind, run_handle,
      List.nil_append]
    cases request.answer [.response made] with
    | error error => exact ⟨_, rfl, rfl⟩
    | ok goesOn => exact ⟨_, rfl, rfl⟩
  · rw [if_neg handled, if_neg handled, if_neg handled]
    exact ⟨_, rfl, rfl⟩

theorem run_clientGet (state : Option HTTPState) (exchange : Exchange)
    (handled : request.hasResponseHandler = true ∨ request.hasContentHandler = true) :
    (clientGet library request exchange).run { state } =
      (perform library request exchange >>= finish library request).run
        (GetTransferState.countGet { state }) := by
  have callbacks : (!request.hasResponseHandler && !request.hasContentHandler) = false := by
    rcases handled with handled | handled <;> simp [handled]
  change Action.run (if (!request.hasResponseHandler && !request.hasContentHandler) = true then _
    else _) (GetTransferState.countGet { state }) = _
  rw [callbacks, if_neg Bool.false_ne_true]

/-- A response with an error code is given to its handler with its whole body. -/
theorem run_clientGet_deferred {response : Response} (state : Option HTTPState)
    (pieces : List Text) (error? : Option Text)
    (failed : 400 ≤ library.toStatusCode response.status)
    (handled : request.hasResponseHandler = true ∨ request.hasContentHandler = true) :
    let made := { library.transformResponse response with
      body := response.body ++ pieces.flatten }
    ∃ after, (clientGet library request (.answered response pieces error?)).run { state } =
        (if request.hasResponseHandler then (request.answer [.response made]).map fun _ => made
          else .ok made, after) ∧
      after.calls = if request.hasResponseHandler then [.response made] else [] := by
  intro made
  obtain ⟨after, run, deferred, calls⟩ := @run_receive_deferred library request
    { GetTransferState.countGet { state } with
      deferredResponse := some (library.transformResponse response) }
    (resultOf response error?) (library.transformResponse response) pieces rfl
  have aside : (handleResponse library request response).run
      (GetTransferState.countGet { state }) = (.ok true, { GetTransferState.countGet { state } with
        deferredResponse := some (library.transformResponse response) }) := by
    change Action.run (if 400 ≤ library.toStatusCode response.status then _ else _) _ = _
    rw [if_pos failed]
    rfl
  have performed : (perform library request (.answered response pieces error?)).run
      (GetTransferState.countGet { state }) = (.ok (resultOf response error?), after) := by
    rw [perform, Action.run_bind_of_ok aside]
    exact run
  rw [run_clientGet state _ handled, Action.run_bind_of_ok performed]
  exact run_finish_deferred deferred calls _

/-- What the caller gets, from the calls that were made and the last answer. -/
def replyTo (library : Library) (response : Response) (error? : Option Text) :
    List Call × Except ErrorData Bool → Except ErrorData Curl.HTTPResponse
  | (_, .ok true) => .ok (library.transformResult (resultOf response error?))
  | (calls, .ok false) =>
      .ok (if calls = [.response (library.transformResponse response)]
        then library.transformResponse response
        else library.transformResult (.failure library.canceled))
  | (_, .error error) => .error error

/-- A content handler that stops has the request canceled. -/
theorem replyTo_canceled {response : Response} {error? : Option Text} {made : List Call}
    {pieces : List Text}
    (stopped : (request.handOver made (pieces.map .content)).2 = .ok false) :
    replyTo library response error? (request.handOver made (pieces.map .content)) =
      .ok (library.transformResult (.failure library.canceled)) := by
  have ended : (request.handOver made (pieces.map .content)).2 ≠ .ok true := by
    rw [stopped]
    simp
  obtain ⟨call, member, isLast⟩ := request.getLast?_handOver ended
  obtain ⟨piece, -, rfl⟩ := List.mem_map.mp member
  generalize request.handOver made (pieces.map .content) = handed at *
  obtain ⟨calls, answer⟩ := handed
  subst stopped
  rw [replyTo, if_neg]
  rintro rfl
  simp at isLast

/-- What comes of a request once its pieces have been handed over. -/
theorem run_finish_received {response : Response} {error? : Option Text} {pieces : List Text}
    {made : List Call} {after : GetTransferState} {exchange : Exchange} (state : Option HTTPState)
    (handled : request.hasContentHandler = true)
    (performed : (perform library request exchange).run (GetTransferState.countGet { state }) =
      (answered library (resultOf response error?)
        (request.handOver made (pieces.map .content)).2, after))
    (undeferred : after.deferredResponse = none) (unstopped : after.stoppedResponse = none)
    (calls : after.calls = (request.handOver made (pieces.map .content)).1) :
    ∃ after, (clientGet library request exchange).run { state } =
        (replyTo library response error? (request.handOver made (pieces.map .content)), after) ∧
      after.calls = (request.handOver made (pieces.map .content)).1 := by
  rw [run_clientGet state _ (.inr handled)]
  cases answer : (request.handOver made (pieces.map .content)).2 with
  | error error =>
      rw [answer] at performed
      refine ⟨after, ?_, calls⟩
      rw [Action.run_bind_of_error performed]
      generalize request.handOver made (pieces.map .content) = handed at *
      obtain ⟨_, _⟩ := handed
      subst answer
      rfl
  | ok goesOn =>
      rw [answer] at performed
      cases goesOn with
      | true =>
          rw [Action.run_bind_of_ok performed, run_finish undeferred unstopped]
          refine ⟨{ after with bytesReceived := after.totalBytes }, ?_, calls⟩
          generalize request.handOver made (pieces.map .content) = handed at *
          obtain ⟨_, _⟩ := handed
          subst answer
          rfl
      | false =>
          rw [Action.run_bind_of_ok performed, run_finish undeferred unstopped,
            replyTo_canceled answer]
          exact ⟨_, rfl, calls⟩

def GetTransferState.addCall (transfer : GetTransferState) (call : Call) : GetTransferState :=
  { transfer with calls := transfer.calls ++ [call] }

theorem run_handleResponse {response : Response}
    (succeeded : ¬ 400 ≤ library.toStatusCode response.status)
    (hasHandler : request.hasResponseHandler = true) :
    (handleResponse library request response).run transfer =
      match request.answer (transfer.calls ++ [.response (library.transformResponse response)]) with
      | .ok true => (.ok true, transfer.addCall (.response (library.transformResponse response)))
      | .ok false =>
          (.ok false, { transfer.addCall (.response (library.transformResponse response)) with
            stoppedResponse := some (library.transformResponse response) })
      | .error error =>
          (.error error, transfer.addCall (.response (library.transformResponse response))) := by
  change Action.run (if 400 ≤ library.toStatusCode response.status then _ else
    if request.hasResponseHandler = true then _ else _) _ = _
  rw [if_neg succeeded, if_pos hasHandler, Action.run_bind, run_handle]
  cases request.answer (transfer.calls ++ [.response (library.transformResponse response)]) with
  | error error => rfl
  | ok goesOn => cases goesOn <;> rfl

/-- A response that is no error is given to its handler, and then the pieces of its body. -/
theorem run_clientGet_streams {response : Response} (state : Option HTTPState)
    (pieces : List Text) (error? : Option Text)
    (succeeded : ¬ 400 ≤ library.toStatusCode response.status)
    (handled : request.hasContentHandler = true) :
    ∃ after, (clientGet library request (.answered response pieces error?)).run { state } =
        (replyTo library response error?
          (request.handOver [] (opening library request response ++ pieces.map .content)), after) ∧
      after.calls = (request.handOver []
        (opening library request response ++ pieces.map .content)).1 := by
  have uncalled : (GetTransferState.countGet { state }).calls = [] := rfl
  by_cases hasHandler : request.hasResponseHandler = true
  · rw [opening, if_pos hasHandler, List.singleton_append]
    have started := @run_handleResponse library request
      (GetTransferState.countGet { state }) response succeeded hasHandler
    rw [uncalled] at started
    by_cases goesOn : request.answer ([] ++ [.response (library.transformResponse response)]) =
        .ok true
    · rw [goesOn] at started
      rw [GetRequest.handOver_of_goesOn goesOn]
      obtain ⟨after, run, undeferred, unstopped, calls⟩ := @run_receive_streams library
        request ((GetTransferState.countGet { state }).addCall
          (.response (library.transformResponse response)))
        (resultOf response error?) handled pieces rfl
      apply run_finish_received state handled ?_ undeferred unstopped calls
      rw [perform, Action.run_bind_of_ok started]
      exact run
    · rw [run_clientGet state _ (.inr handled), GetRequest.handOver_of_stops goesOn]
      cases answer : request.answer ([] ++ [.response (library.transformResponse response)]) with
      | error error =>
          rw [answer] at started
          exact ⟨_, Action.run_bind_of_error (Action.run_bind_of_error started), rfl⟩
      | ok stops =>
          obtain rfl : stops = false := by
            cases stops with
            | false => rfl
            | true => exact absurd answer goesOn
          rw [answer] at started
          have performed : (perform library request (.answered response pieces error?)).run
              (GetTransferState.countGet { state }) =
              (.ok (.failure library.canceled), { (GetTransferState.countGet { state }).addCall
                (.response (library.transformResponse response)) with
                stoppedResponse := some (library.transformResponse response) }) := by
            rw [perform, Action.run_bind_of_ok started]
            rfl
          rw [Action.run_bind_of_ok performed, replyTo, List.nil_append, if_pos rfl]
          exact ⟨_, rfl, rfl⟩
  · rw [opening, if_neg hasHandler, List.nil_append]
    have started : (handleResponse library request response).run
        (GetTransferState.countGet { state }) = (.ok true, GetTransferState.countGet { state }) := by
      change Action.run (if 400 ≤ library.toStatusCode response.status then _ else
        if request.hasResponseHandler = true then _ else _) _ = _
      rw [if_neg succeeded, if_neg hasHandler]
      rfl
    obtain ⟨after, run, undeferred, unstopped, calls⟩ := @run_receive_streams library request
      (GetTransferState.countGet { state }) (resultOf response error?) handled pieces rfl
    apply run_finish_received state handled ?_ undeferred unstopped calls
    rw [perform, Action.run_bind_of_ok started]
    exact run

/-! ## What is delivered -/

/-- The exchange for a final response of which the pieces that came are known; interim
responses and redirects that are followed stay within the library. -/
inductive Answers (library : Library) : Exchange → Option TransferBlock → Nat → Prop
  | unanswered {error : Text} {result : Nat} (failed : result ≠ 0) :
      Answers library (.unanswered error) none result
  | answered {response : Response} {pieces : List Text} {error? : Option Text}
      {block : TransferBlock} {result : Nat} (status : response.status = block.code)
      (known : library.toStatusCode block.code = block.code)
      (headers : (firstOfEach response.headers).Perm (firstOfEach block.header.pairs))
      (unread : response.body = []) (isFront : pieces <+: block.chunks)
      (success : result = 0 ↔ error? = none) (whole : result = 0 → pieces = block.chunks) :
      Answers library (.answered response pieces error?) (some block) result

/-- The protocol of the handlers; the headers they are told of may be in any order. -/
structure Hands (request : GetRequest) (final? : Option TransferBlock) (result : Nat)
    (calls : List Call) (reply : Except ErrorData Curl.HTTPResponse) : Prop where
  protocol : Delivers request [] final? result calls reply
  reports : ∀ made ∈ calls.filterMap Call.response?, ∀ block ∈ final?,
    made.status = block.code ∧ made.headers.entries.Perm (firstOfEach block.header.pairs)

section Delivery

variable {response : Response} {pieces : List Text} {error? : Option Text}
  {block : TransferBlock} {result : Nat} {calls : List Call}
  {reply : Except ErrorData Curl.HTTPResponse}

theorem lastHeaders_nil (headers : HTTPHeaders) : LastHeaders [] headers := by
  intro last member
  contradiction

theorem streamed_front (isFront : pieces <+: block.chunks) :
    streamed request (some { block with chunks := pieces }) <+: streamed request (some block) := by
  change (if request.buffers block.code then [] else pieces) <+:
    if request.buffers block.code then [] else block.chunks
  split
  · exact List.nil_prefix
  · exact isFront

/-- What is delivered of a body that breaks off is what is delivered of the pieces. -/
theorem delivers_of_cut
    (cut : Delivers request [] (some { block with chunks := pieces }) 0 calls reply)
    (isFront : pieces <+: block.chunks) (whole : result = 0 → pieces = block.chunks) :
    Delivers request [] (some block) result calls reply := by
  by_cases success : result = 0
  · obtain rfl := whole success
    rw [success]
    exact cut
  · exact
      { once := cut.once
        called := fun isZero => absurd isZero success
        responseFirst := cut.responseFirst
        headers := cut.headers
        contents := cut.contents.trans (streamed_front isFront)
        complete := fun isZero => absurd isZero success
        body := fun isZero => absurd isZero success
        thrown := cut.thrown
        silent := cut.silent }

theorem entries_transformResponse (response : Response) :
    (library.transformResponse response).headers.entries = firstOfEach response.headers := by
  rw [Library.transformResponse, entries_foldl_insert]
  have all : (response.headers.filter fun header =>
      lower header.1 ∉ HTTPHeaders.empty.names) = response.headers :=
    List.filter_eq_self.mpr (by simp [HTTPHeaders.names, HTTPHeaders.empty])
  rw [all]
  rfl

/-- Headers that lack the internal one are those of a response that has only them. -/
theorem responseHeaders_singleton {headers : HTTPHeaders}
    (plain : ∀ header ∈ headers.entries, header.1 ≠ responseStatus) :
    responseHeaders [headers] = headers := by
  have entries : (responseHeaders [headers]).entries = headers.entries := by
    have kept := entries_responseHeaders [] headers
    rw [List.filter_eq_self.mpr (by simpa using plain)] at kept
    exact kept
  generalize responseHeaders [headers] = reported at entries ⊢
  obtain ⟨_, _⟩ := reported
  obtain ⟨_, _⟩ := headers
  subst entries
  rfl

/-- The calls that are made of those for a body. -/
theorem exists_given {given : List Call}
    (isFront : given <+: opening library request response ++ pieces.map .content)
    (called : given ≠ []) : ∃ front, front <+: pieces ∧
      given = opening library request response ++ front.map .content := by
  rw [opening] at isFront ⊢
  split at isFront
  · rename_i hasHandler
    rw [if_pos hasHandler]
    cases given with
    | nil => contradiction
    | cons first rest =>
        obtain ⟨rfl, isRest⟩ := List.cons_prefix_cons.mp isFront
        obtain ⟨front, inPieces, rfl⟩ := List.prefix_map_iff.mp isRest
        exact ⟨front, inPieces, rfl⟩
  · rename_i hasHandler
    rw [if_neg hasHandler]
    obtain ⟨front, inPieces, rfl⟩ := List.prefix_map_iff.mp isFront
    exact ⟨front, inPieces, rfl⟩

theorem Ends.not_goesOn (ends : Ends request calls) : ¬ GoesOn request calls := by
  obtain ⟨front, call, rfl, -, stops⟩ := ends
  intro goesOn
  exact stops (goesOn front call [] rfl)

theorem body_replyTo (unread : response.body = []) {handed : List Call × Except ErrorData Bool}
    {made : Curl.HTTPResponse} (replied : replyTo library response error? handed = .ok made) :
    made.body = [] := by
  obtain ⟨calls, answer | (_ | _)⟩ := handed
  · contradiction
  · obtain rfl := Except.ok.inj replied
    split
    · exact unread
    · rfl
  · obtain rfl := Except.ok.inj replied
    cases error? with
    | none => exact unread
    | some error => rfl

theorem replyTo_eq_error_iff (answer : Except ErrorData Bool) (error : ErrorData) :
    replyTo library response error? (calls, answer) = .error error ↔ answer = .error error := by
  obtain other | (_ | _) := answer
  · rw [replyTo, Except.error.injEq, Except.error.injEq]
  · exact iff_of_false (by simp [replyTo]) (by simp)
  · exact iff_of_false (by simp [replyTo]) (by simp)

/-- A body that is handed over piece by piece. -/
theorem delivers_of_streams
    (plain : ∀ header ∈ firstOfEach response.headers, header.1 ≠ responseStatus)
    (unread : response.body = []) (streams : request.buffers block.code = false) :
    Delivers request [] (some { block with chunks := pieces }) 0
      (request.handOver [] (opening library request response ++ pieces.map .content)).1
      (replyTo library response error?
        (request.handOver [] (opening library request response ++ pieces.map .content))) := by
  have opens : Opens request [(library.transformResponse response).headers]
      (opening library request response) := by
    rw [opening]
    cases hasHandler : request.hasResponseHandler with
    | false => exact .unhandled hasHandler
    | true =>
        refine .handled hasHandler ?_ unread
        rw [responseHeaders_singleton]
        intro header member
        rw [entries_transformResponse] at member
        exact plain header member
  have isStreamed : streamed request (some { block with chunks := pieces }) = pieces := by
    change (if request.buffers block.code then [] else pieces) = pieces
    rw [streams]
    rfl
  have notKept : keptBody request (some { block with chunks := pieces }) = [] := by
    change (if request.buffers block.code then pieces.flatten else []) = []
    rw [streams]
    rfl
  have handed := request.handedOver (goesOn_nil request)
    (opening library request response ++ pieces.map .content)
  have bodies := @body_replyTo library response error? unread
    (request.handOver [] (opening library request response ++ pieces.map .content))
  generalize request.handOver [] (opening library request response ++ pieces.map .content) =
    outcome at handed bodies ⊢
  cases handed with
  | whole goesOn =>
      rw [List.nil_append] at goesOn bodies ⊢
      apply delivers_of_body opens (lastHeaders_nil _)
      · exact isStreamed.symm ▸ List.prefix_rfl
      · intro _ _
        rw [isStreamed]
      · exact notKept
      · exact fun made => bodies
      · intro error
        rw [replyTo_eq_error_iff]
        refine iff_of_false (by simp) ?_
        rintro ⟨called, failed⟩
        rw [answer_of_goesOn goesOn called] at failed
        contradiction
      · exact .inl goesOn
  | @ended given isFront ends =>
      rw [List.nil_append] at ends bodies ⊢
      have called : given ≠ [] := by
        rintro rfl
        obtain ⟨front, call, cut, -⟩ := ends
        simp at cut
      obtain ⟨front, inPieces, rfl⟩ := exists_given isFront called
      apply delivers_of_body opens (lastHeaders_nil _)
      · rw [isStreamed]
        exact inPieces
      · exact fun _ goesOn => absurd goesOn (Ends.not_goesOn ends)
      · exact notKept
      · exact fun made => bodies
      · intro error
        rw [replyTo_eq_error_iff]
        exact (and_iff_right called).symm
      · exact .inr ends

theorem mem_of_mem_handOver {planned : List Call} {call : Call}
    (member : call ∈ (request.handOver [] planned).1) : call ∈ planned := by
  have handed := request.handedOver (goesOn_nil request) planned
  generalize request.handOver [] planned = outcome at handed member
  cases handed with
  | whole => exact member
  | ended isFront => exact isFront.subset member

/-- An error whose body was put aside. -/
theorem delivers_of_deferred {made : Curl.HTTPResponse} (body : made.body = pieces.flatten)
    (failed : 400 ≤ block.code) :
    Delivers request [] (some { block with chunks := pieces }) 0
      (if request.hasResponseHandler then [.response made] else [])
      (if request.hasResponseHandler then (request.answer [.response made]).map fun _ => made
        else .ok made) := by
  have buffers : request.buffers block.code = true := by
    rw [GetRequest.buffers, decide_eq_true failed, Bool.or_true]
  have notStreamed : streamed request (some { block with chunks := pieces }) = [] := by
    change (if request.buffers block.code then [] else pieces) = []
    rw [if_pos buffers]
  have isKept : made.body = keptBody request (some { block with chunks := pieces }) := by
    change _ = if request.buffers block.code then pieces.flatten else []
    rw [if_pos buffers, body]
  cases hasHandler : request.hasResponseHandler with
  | false => exact delivers_of_nothing fun _ => ⟨hasHandler, notStreamed, isKept⟩
  | true => exact delivers_of_response (lastHeaders_nil _) notStreamed isKept

/-- A request without handlers gets the whole body. -/
theorem delivers_of_collected (unhandled : request.hasResponseHandler = false)
    (undirected : request.hasContentHandler = false) (success : result = 0 ↔ error? = none)
    (whole : result = 0 → pieces = block.chunks) :
    Delivers request [] (some block) result [] (.ok
      (library.transformResult (Exchange.answered response pieces error?).collected)) := by
  have buffers : request.buffers block.code = true := by
    rw [GetRequest.buffers, undirected]
    rfl
  apply delivers_of_nothing
  intro isZero
  obtain rfl := success.mp isZero
  refine ⟨unhandled, ?_, ?_⟩
  · change (if request.buffers block.code then [] else block.chunks) = []
    rw [if_pos buffers]
  · change pieces.flatten = if request.buffers block.code then block.chunks.flatten else []
    rw [if_pos buffers, whole isZero]

theorem run_clientGet_collected (unhandled : request.hasResponseHandler = false)
    (undirected : request.hasContentHandler = false) (state : Option HTTPState)
    (exchange : Exchange) :
    (clientGet library request exchange).run { state } =
      (.ok (library.transformResult exchange.collected),
        (GetTransferState.countGet { state }).countReceived
          (library.transformResult exchange.collected).body.length) := by
  change Action.run (if (!request.hasResponseHandler && !request.hasContentHandler) = true then _
    else _) (GetTransferState.countGet { state }) = _
  rw [unhandled, undirected, if_pos (by decide)]
  rfl

theorem run_clientGet_unanswered (state : Option HTTPState) (error : Text) :
    ∃ after, (clientGet library request (.unanswered error)).run { state } =
        (.ok { status := invalidStatus, requestError := error }, after) ∧ after.calls = [] := by
  by_cases handled : request.hasResponseHandler = true ∨ request.hasContentHandler = true
  · rw [run_clientGet state _ handled]
    exact ⟨_, rfl, rfl⟩
  · obtain ⟨unhandled, undirected⟩ := not_or.mp handled
    rw [run_clientGet_collected (by simpa using unhandled) (by simpa using undirected)]
    exact ⟨_, rfl, rfl⟩

end Delivery

section Requests

variable {exchange : Exchange} {final? : Option TransferBlock} {result : Nat}

/-- Whatever the handlers answer and wherever the transfer breaks off, the handlers of a
request are called as they are to be, if they take the body where they take the response. -/
theorem clientGet_hands (answers : Answers library exchange final? result)
    (handlers : request.hasResponseHandler = true → request.hasContentHandler = true)
    (state : Option HTTPState) :
    Hands request final? result ((clientGet library request exchange).run { state }).2.calls
      ((clientGet library request exchange).run { state }).1 := by
  cases answers with
  | @unanswered error _ failed =>
      obtain ⟨after, run, uncalled⟩ := @run_clientGet_unanswered library request state error
      rw [run, uncalled]
      exact ⟨delivers_of_nothing fun isZero => absurd isZero failed,
        fun made member => absurd member List.not_mem_nil⟩
  | @answered response pieces error? block _ status known headers unread isFront success whole =>
      have isCode : library.toStatusCode response.status = block.code := by rw [status, known]
      have told {made : Curl.HTTPResponse}
          (isStatus : made.status = library.toStatusCode response.status)
          (isHeaders : made.headers = (library.transformResponse response).headers) :
          ∀ other ∈ some block,
            made.status = other.code ∧
              made.headers.entries.Perm (firstOfEach other.header.pairs) := by
        rintro _ ⟨⟩
        rw [isHeaders, entries_transformResponse]
        exact ⟨isStatus.trans isCode, headers⟩
      cases handled : request.hasContentHandler with
      | false =>
          have unhandled : request.hasResponseHandler = false := by
            by_contra hasHandler
            rw [handlers (by simpa using hasHandler)] at handled
            contradiction
          rw [run_clientGet_collected unhandled handled]
          exact ⟨delivers_of_collected unhandled handled success whole,
            fun made member => absurd member List.not_mem_nil⟩
      | true =>
          by_cases failed : 400 ≤ library.toStatusCode response.status
          · obtain ⟨after, run, calls⟩ := @run_clientGet_deferred library request response state
              pieces error? failed (.inr handled)
            rw [run, calls]
            refine ⟨delivers_of_cut (delivers_of_deferred ?_ (isCode ▸ failed)) isFront whole, ?_⟩
            · rw [unread, List.nil_append]
            · intro made member
              split at member
              · obtain rfl := List.mem_singleton.mp member
                exact told rfl rfl
              · exact absurd member List.not_mem_nil
          · obtain ⟨after, run, calls⟩ := @run_clientGet_streams library request response state
              pieces error? failed handled
            have streams : request.buffers block.code = false := by
              rw [GetRequest.buffers, handled, ← isCode, decide_eq_false failed]
              rfl
            have plain : ∀ header ∈ firstOfEach response.headers, header.1 ≠ responseStatus := by
              intro header member internal
              have kept := List.of_mem_filter
                (mem_of_mem_firstOfEach (headers.subset member))
              rw [decide_eq_true_iff, internal] at kept
              exact kept rfl
            rw [run, calls]
            refine ⟨delivers_of_cut (delivers_of_streams plain unread streams) isFront whole, ?_⟩
            intro made member
            obtain ⟨call, isCall, isMade⟩ := List.mem_filterMap.mp member
            have planned := mem_of_mem_handOver isCall
            cases call with
            | content data => contradiction
            | response other =>
                obtain rfl := Option.some.inj isMade
                rw [opening] at planned
                rcases List.mem_append.mp planned with opened | piece
                · split at opened
                  · obtain same := List.mem_singleton.mp opened
                    obtain rfl := Call.response.inj same
                    exact told rfl rfl
                  · exact absurd opened List.not_mem_nil
                · simp at piece

/-- A body without a handler is lost where there is one for the response. -/
theorem run_clientGet_dropped {response : Response} {pieces : List Text} {error? : Option Text}
    (succeeded : ¬ 400 ≤ library.toStatusCode response.status)
    (hasHandler : request.hasResponseHandler = true)
    (unhandled : request.hasContentHandler = false)
    (goesOn : request.answer [.response (library.transformResponse response)] = .ok true)
    (state : Option HTTPState) :
    ((clientGet library request (.answered response pieces error?)).run { state }).1 =
      .ok (library.transformResult (resultOf response error?)) := by
  have uncalled : (GetTransferState.countGet { state }).calls = [] := rfl
  have started := @run_handleResponse library request
    (GetTransferState.countGet { state }) response succeeded hasHandler
  rw [uncalled, List.nil_append, goesOn] at started
  obtain ⟨after, run, undeferred, unstopped, -⟩ := @run_receive_dropped library request
    ((GetTransferState.countGet { state }).addCall
      (.response (library.transformResponse response)))
    (resultOf response error?) unhandled pieces rfl
  have performed : (perform library request (.answered response pieces error?)).run
      (GetTransferState.countGet { state }) = (.ok (resultOf response error?), after) := by
    rw [perform, Action.run_bind_of_ok started]
    exact run
  rw [run_clientGet state _ (.inl hasHandler), Action.run_bind_of_ok performed,
    run_finish undeferred unstopped]

end Requests

end Httpfs.Http.Httplib
