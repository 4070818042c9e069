import Httpfs.Http.File.Program

/-!
# What the requests of a handle do

A download holds what the last attempt brought.  A request for a range leaves alone
what is cached.
-/

namespace Httpfs.Http.File

open FullDownload RangeRequest Word64

/-! ## Success -/

namespace HTTPUtil

variable (util : HTTPUtil)

theorem success_of_status {response : HTTPResponse} (received : response.requestError = "")
    (status : response.status = 200 ∨ response.status = 206) : util.success response = true := by
  rw [util.success_iff]
  refine ⟨received, .inl ?_⟩
  rcases status with status | status
  · omega
  · omega

theorem report_of_status {response : HTTPResponse} (received : response.requestError = "")
    (status : response.status = 200 ∨ response.status = 206) (tryRequest : Bool) :
    util.report tryRequest (.ok response) = .ok response :=
  util.report_of_success tryRequest response (util.success_of_status received status)

end HTTPUtil

theorem readConditionFailed_of_status {response : HTTPResponse} (readConfig : HTTPReadConfig)
    (status : response.status ≠ 412) : readConditionFailed readConfig response = false := by
  rw [readConditionFailed, beq_false_of_ne status, Bool.false_and]

theorem throwIfReadConditionFailed_of_status {response : HTTPResponse} (path : String)
    (readConfig : HTTPReadConfig) (status : response.status ≠ 412) :
    throwIfReadConditionFailed path readConfig response = .ok () := by
  rw [throwIfReadConditionFailed, readConditionFailed_of_status readConfig status]
  rfl

theorem started_of_received {response : HTTPResponse} (received : response.requestError = "") :
    started response = response := by
  rw [started, ← received]

/-! ## Handlers that take everything -/

namespace GetRequestInfo

variable {σ : Type} {request : GetRequestInfo σ}

theorem deliver_of_accepts {take : σ → Block → σ}
    (accepts : ∀ chunk state, (request.contentHandler chunk).run state = (.ok true, take state chunk))
    (chunks : List Block) (state : σ) :
    (request.deliver chunks).run state = (.ok true, chunks.foldl take state) := by
  induction chunks generalizing state with
  | nil => rfl
  | cons chunk rest inductionHypothesis =>
      rw [deliver, Action.run_bind_of_ok (accepts chunk state)]
      exact inductionHypothesis (take state chunk)

theorem attempt_of_throws {response : HTTPResponse} {state after : σ} {error : ErrorData}
    (throws : (request.responseHandler (started response)).run state = (.error error, after))
    (chunks : List Block) :
    (request.attempt (.answered response chunks)).run state = (.error error, after) := by
  rw [attempt, Action.run_bind_of_error throws]

theorem attempt_of_stops {response : HTTPResponse} {state after : σ}
    (stops : (request.responseHandler (started response)).run state = (.ok false, after))
    (chunks : List Block) :
    (request.attempt (.answered response chunks)).run state = (.ok (started response), after) := by
  rw [attempt, Action.run_bind_of_ok stops]
  rfl

theorem attempt_of_accepts {response : HTTPResponse} {state between after : σ}
    (goesOn : (request.responseHandler (started response)).run state = (.ok true, between))
    {chunks : List Block} (delivers : (request.deliver chunks).run between = (.ok true, after)) :
    (request.attempt (.answered response chunks)).run state = (.ok response, after) := by
  rw [attempt, Action.run_bind_of_ok goesOn]
  change (request.deliver chunks >>= _).run between = _
  rw [Action.run_bind_of_ok delivers]
  rfl

theorem attempt_of_deliver_throws {response : HTTPResponse} {state between after : σ}
    {error : ErrorData}
    (goesOn : (request.responseHandler (started response)).run state = (.ok true, between))
    {chunks : List Block} (throws : (request.deliver chunks).run between = (.error error, after)) :
    (request.attempt (.answered response chunks)).run state = (.error error, after) := by
  rw [attempt, Action.run_bind_of_ok goesOn]
  change (request.deliver chunks >>= _).run between = _
  rw [Action.run_bind_of_error throws]

end GetRequestInfo

/-! ## The whole file -/

section Whole

variable (util : HTTPUtil) (path : String) (headerMap : HTTPHeaders) (readConfig : HTTPReadConfig)

theorem fullGetRequest_deliver (chunks : List Block) (download : Block) :
    ((fullGetRequest util path headerMap readConfig).deliver chunks).run download =
      (.ok true, download ++ chunks.flatten) := by
  have accepts : ∀ chunk state,
      ((fullGetRequest util path headerMap readConfig).contentHandler chunk).run state =
        (.ok true, state ++ chunk) := fun _ _ => rfl
  rw [GetRequestInfo.deliver_of_accepts accepts]
  congr 1
  induction chunks generalizing download with
  | nil => exact (List.append_nil download).symm
  | cons chunk rest inductionHypothesis =>
      rw [List.foldl_cons, inductionHypothesis, List.flatten_cons, List.append_assoc]

theorem validateResponseETag_of_agrees {response : HTTPResponse}
    (agrees : etagAgrees readConfig response = true) :
    validateResponseETag path readConfig response = .ok () :=
  if_pos agrees

theorem exists_validateResponseETag_eq_error {response : HTTPResponse}
    (disagrees : etagAgrees readConfig response = false) :
    ∃ error, validateResponseETag path readConfig response = .error error := by
  rw [validateResponseETag, disagrees]
  exact ⟨_, rfl⟩

/-- The head of an answer is refused, or tells a violated condition, or begins a new
download. -/
theorem fullGetRequest_responseHandler_cases (response : HTTPResponse) (download : Block) :
    let handled :=
      ((fullGetRequest util path headerMap readConfig).responseHandler response).run download
    (∃ error, handled = (.error error, download)) ∨
      (handled = (.ok false, download) ∧ response.status = 412) ∨
      (handled = (.ok true, []) ∧
        (response.status < 300 → etagAgrees readConfig response = true)) := by
  simp only [fullGetRequest, Action.run_ite, Action.run_bind, Action.run_throw, Action.run_pure,
    Action.run_lift, Action.run_set]
  split
  · rename_i violated
    rw [readConditionFailed, Bool.and_eq_true, beq_iff_eq] at violated
    exact .inr (.inl ⟨rfl, violated.1⟩)
  · split
    · exact .inl ⟨_, rfl⟩
    · by_cases good : response.status < 300
      · cases agrees : etagAgrees readConfig response with
        | true =>
            rw [if_pos good, validateResponseETag_of_agrees path readConfig agrees]
            exact .inr (.inr ⟨rfl, fun _ => rfl⟩)
        | false =>
            rcases exists_validateResponseETag_eq_error path readConfig agrees with ⟨error, eq⟩
            rw [if_pos good, eq]
            exact .inl ⟨error, rfl⟩
      · rw [if_neg good]
        exact .inr (.inr ⟨rfl, fun good' => absurd good' good⟩)

/-- The head of an answer with a good status and the right `ETag` begins a new
download. -/
theorem fullGetRequest_responseHandler {response : HTTPResponse} (status : response.status < 300)
    (agrees : etagAgrees readConfig response = true) (download : Block) :
    ((fullGetRequest util path headerMap readConfig).responseHandler response).run download =
      (.ok true, []) := by
  have holds : readConditionFailed readConfig response = false :=
    readConditionFailed_of_status readConfig (by omega)
  have fine : ¬ 400 ≤ response.status := by omega
  simp only [fullGetRequest, holds, Bool.false_eq_true, if_false, if_neg fine, if_pos status,
    Action.run_bind, Action.run_lift, validateResponseETag_of_agrees path readConfig agrees,
    Action.run_set, Action.run_pure]

/-- An answer with a good status and the right `ETag` is downloaded as it is. -/
theorem fullGetRequest_attempt {response : HTTPResponse} (status : response.status < 300)
    (agrees : etagAgrees readConfig response = true) (chunks : List Block) (download : Block) :
    ((fullGetRequest util path headerMap readConfig).attempt (.answered response chunks)).run
        download = (.ok response, chunks.flatten) := by
  have goesOn : ((fullGetRequest util path headerMap readConfig).responseHandler
      (started response)).run download = (.ok true, []) :=
    fullGetRequest_responseHandler util path headerMap readConfig status agrees download
  exact GetRequestInfo.attempt_of_accepts goesOn
    (fullGetRequest_deliver util path headerMap readConfig chunks [])

/-- An attempt that ends with a response of status 200 downloaded what it brought. -/
theorem fullGetRequest_attempt_cases {attempt : Attempt} {download after : Block}
    {response : HTTPResponse}
    (ends : ((fullGetRequest util path headerMap readConfig).attempt attempt).run download =
      (.ok response, after))
    (status : response.status = 200) :
    ∃ chunks, attempt = .answered response chunks ∧ etagAgrees readConfig response = true ∧
      after = chunks.flatten := by
  cases attempt with
  | unanswered error =>
      cases ends
      contradiction
  | answered received chunks =>
      rcases fullGetRequest_responseHandler_cases util path headerMap readConfig
          (started received) download with
        ⟨error, throws⟩ | ⟨stops, violated⟩ | ⟨goesOn, agrees⟩
      · rw [GetRequestInfo.attempt_of_throws throws] at ends
        cases ends
      · rw [GetRequestInfo.attempt_of_stops stops] at ends
        cases ends
        rw [violated] at status
        contradiction
      · rw [GetRequestInfo.attempt_of_accepts goesOn
          (fullGetRequest_deliver util path headerMap readConfig chunks [])] at ends
        cases ends
        exact ⟨chunks, rfl, agrees (show response.status < 300 by omega), rfl⟩

end Whole

namespace Session

variable (session : Session) (readConfig : HTTPReadConfig)

/-- The last attempt at a full download. -/
def wholeFile : Attempt :=
  (session.server.get (prepareFullGetHeaders session.configuredHeaders readConfig)).last

theorem getRequest_eq : ∃ download, session.getRequest readConfig =
    let (reply, download) :=
      ((fullGetRequest session.util session.path session.configuredHeaders readConfig).attempt
        (session.wholeFile readConfig)).run download
    (session.util.report false reply, download) :=
  ⟨_, rfl⟩

theorem getRequest_cases {response : HTTPResponse} {download : Block}
    (reported : session.getRequest readConfig = (.ok response, download))
    (status : response.status = 200) :
    ∃ chunks, session.wholeFile readConfig = .answered response chunks ∧
      etagAgrees readConfig response = true ∧ download = chunks.flatten := by
  rcases session.getRequest_eq readConfig with ⟨before, eq⟩
  rw [eq] at reported
  cases attempted : ((fullGetRequest session.util session.path session.configuredHeaders
      readConfig).attempt (session.wholeFile readConfig)).run before with
  | mk reply after =>
      rw [attempted] at reported
      cases reply with
      | error error =>
          have tried := (session.util.report_thrown _ _ _ (congrArg Prod.fst reported)).1
          contradiction
      | ok received =>
          have same := session.util.report_received _ _ _ (congrArg Prod.fst reported)
          subst same
          cases congrArg Prod.snd reported
          exact fullGetRequest_attempt_cases _ _ _ _ attempted status

theorem getRequest_of_answered {response : HTTPResponse} {chunks : List Block}
    (last : session.wholeFile readConfig = .answered response chunks)
    (received : response.requestError = "") (status : response.status = 200)
    (agrees : etagAgrees readConfig response = true) :
    session.getRequest readConfig = (.ok response, chunks.flatten) := by
  rcases session.getRequest_eq readConfig with ⟨before, eq⟩
  rw [eq, last, fullGetRequest_attempt _ _ _ _ (by omega) agrees]
  exact Prod.ext (session.util.report_of_status received (.inl status) false) rfl

theorem fullDownload_of_cached {world : World} {file : Block}
    (cached : world.fileState.cachedFile = some file) :
    (session.fullDownload readConfig).run world = (.ok file, world) := by
  simp only [fullDownload, Action.run_bind, Action.run_get, cached, Action.run_pure]

theorem fullDownload_of_uncached {world : World} (uncached : world.fileState.cachedFile = none) :
    (session.fullDownload readConfig).run world =
      match session.getRequest readConfig with
      | (.error error, _) => (.error error, world)
      | (.ok response, download) =>
          match throwIfReadConditionFailed session.path readConfig response with
          | .error error => (.error error, world)
          | .ok _ =>
              if response.status ≠ 200 then
                (.error (session.util.getHTTPError response "GET" session.path), world)
              else (.ok download, { world with fileState.cachedFile := some download }) := by
  simp only [fullDownload, Action.run_bind, Action.run_get, uncached, Action.run_lift]
  rcases session.getRequest readConfig with ⟨reply, download⟩
  cases reply with
  | error error => rfl
  | ok response =>
      cases failed : throwIfReadConditionFailed session.path readConfig response with
      | error error => simp only [failed]
      | ok _ =>
          simp only [failed, Action.run_ite, Action.run_bind, Action.run_modify, Action.run_throw,
            Action.run_pure]

/-- A full download gives what is cached, or what an answer brought that has the
right status and `ETag`. -/
theorem fullDownload_cases {world after : World} {file : Block}
    (returns : (session.fullDownload readConfig).run world = (.ok file, after)) :
    (world.fileState.cachedFile = some file ∧ after = world) ∨
      (world.fileState.cachedFile = none ∧
        after = { world with fileState.cachedFile := some file } ∧
        ∃ response chunks, session.wholeFile readConfig = .answered response chunks ∧
          response.status = 200 ∧ etagAgrees readConfig response = true ∧
          file = chunks.flatten) := by
  cases cachedEq : world.fileState.cachedFile with
  | some cachedFile =>
      rw [session.fullDownload_of_cached readConfig cachedEq] at returns
      cases returns
      exact .inl ⟨rfl, rfl⟩
  | none =>
      refine .inr ⟨rfl, ?_⟩
      rw [session.fullDownload_of_uncached readConfig cachedEq] at returns
      split at returns
      · cases returns
      · rename_i response download sent
        split at returns
        · cases returns
        · split at returns
          · cases returns
          · rename_i status
            have isOk := Decidable.of_not_not status
            rcases session.getRequest_cases readConfig sent isOk with ⟨chunks, last, agrees, rfl⟩
            cases returns
            exact ⟨rfl, response, chunks, last, isOk, agrees, rfl⟩

theorem fullDownload_of_answered {world : World} {response : HTTPResponse} {chunks : List Block}
    (uncached : world.fileState.cachedFile = none)
    (last : session.wholeFile readConfig = .answered response chunks)
    (received : response.requestError = "") (status : response.status = 200)
    (agrees : etagAgrees readConfig response = true) :
    (session.fullDownload readConfig).run world =
      (.ok chunks.flatten, { world with fileState.cachedFile := some chunks.flatten }) := by
  rw [session.fullDownload_of_uncached readConfig uncached,
    session.getRequest_of_answered readConfig last received status agrees]
  simp only [throwIfReadConditionFailed_of_status session.path readConfig
    (show response.status ≠ 412 by omega), status, ne_eq, not_true_eq_false, if_false]

end Session

/-! ## A range of the file -/

namespace RangeTransfer

variable (util : HTTPUtil) (path : String) (readConfig : HTTPReadConfig) (range : Range)

@[simp] theorem markSupported_cachedFile (transfer : RangeTransfer) :
    transfer.markSupported.world.fileState.cachedFile = transfer.world.fileState.cachedFile :=
  rfl

@[simp] theorem markSupported_memory (transfer : RangeTransfer) :
    transfer.markSupported.world.memory = transfer.world.memory :=
  rfl

@[simp] theorem markSupported_outOffset (transfer : RangeTransfer) :
    transfer.markSupported.outOffset = transfer.outOffset :=
  rfl

@[simp] theorem markSupported_rangeRequestNotSupported (transfer : RangeTransfer) :
    transfer.markSupported.rangeRequestNotSupported = transfer.rangeRequestNotSupported :=
  rfl

@[simp] theorem markNotSupported_cachedFile (transfer : RangeTransfer) :
    transfer.markNotSupported.world.fileState.cachedFile = transfer.world.fileState.cachedFile :=
  rfl

@[simp] theorem markNotSupported_memory (transfer : RangeTransfer) :
    transfer.markNotSupported.world.memory = transfer.world.memory :=
  rfl

/-- The length header lets the answer pass. -/
def LengthPasses (bufferOutLen : Nat) (response : HTTPResponse) : Prop :=
  ∀ contentLength, numericHeader response "Content-Length" = some contentLength →
    contentLength = bufferOutLen

theorem run_validateContentLength_of_passes {bufferOutLen : Nat} {response : HTTPResponse}
    (passes : LengthPasses bufferOutLen response) (transfer : RangeTransfer) :
    (validateContentLength bufferOutLen response).run transfer = (.ok true, transfer) := by
  unfold validateContentLength
  cases numeric : numericHeader response "Content-Length" with
  | none => rfl
  | some contentLength =>
      rw [passes contentLength numeric]
      simp only [if_true, Action.run_pure]

theorem run_validateContentLength_of_not_passes {bufferOutLen : Nat} {response : HTTPResponse}
    (mismatch : ¬ LengthPasses bufferOutLen response) (transfer : RangeTransfer) :
    (validateContentLength bufferOutLen response).run transfer =
      (.ok false, { transfer.markNotSupported with rangeRequestNotSupported := true }) := by
  unfold validateContentLength
  cases numeric : numericHeader response "Content-Length" with
  | none =>
      refine absurd ?_ mismatch
      intro contentLength isSome
      rw [numeric] at isSome
      cases isSome
  | some contentLength =>
      have differs : contentLength ≠ bufferOutLen := by
        intro same
        refine mismatch ?_
        intro other isSome
        rw [numeric] at isSome
        cases isSome
        exact same
      simp only [if_neg differs, Action.run_bind, Action.run_modify, Action.run_pure]

/-- What the handler does with the head of an answer. -/
inductive Handled (response : HTTPResponse) (transfer : RangeTransfer) :
    Except ErrorData Bool × RangeTransfer → Prop
  | refused (error : ErrorData) : 400 ≤ response.status →
      Handled response transfer (.error error, transfer)
  | violated : response.status = 412 → Handled response transfer (.ok false, transfer)
  | redirected : 300 ≤ response.status → Handled response transfer (.ok true, transfer)
  | otherVersion (error : ErrorData) : response.status < 300 →
      etagAgrees readConfig response = false →
      Handled response transfer (.error error, { transfer with outOffset := 0 })
  | otherLength : response.status < 300 → etagAgrees readConfig response = true →
      ¬ LengthPasses range.bufferOutLen response →
      Handled response transfer (.ok false,
        { ({ transfer with outOffset := 0 } : RangeTransfer).markNotSupported with
          rangeRequestNotSupported := true })
  | begins (after : RangeTransfer) : response.status < 300 →
      etagAgrees readConfig response = true → LengthPasses range.bufferOutLen response →
      after.outOffset = 0 →
      after.rangeRequestNotSupported = transfer.rangeRequestNotSupported →
      after.world.memory = transfer.world.memory →
      after.world.fileState.cachedFile = transfer.world.fileState.cachedFile →
      Handled response transfer (.ok true, after)

theorem handled (response : HTTPResponse) (transfer : RangeTransfer) :
    Handled readConfig range response transfer
      ((handleResponse util path readConfig range response).run transfer) := by
  simp only [handleResponse, Action.run_ite, Action.run_bind, Action.run_throw, Action.run_pure,
    Action.run_lift, Action.run_modify]
  split
  · rename_i violated
    rw [readConditionFailed, Bool.and_eq_true, beq_iff_eq] at violated
    exact .violated violated.1
  · split
    · rename_i refused
      exact .refused _ refused
    · split
      · rename_i redirected
        exact .redirected redirected
      · have good : response.status < 300 := by omega
        cases agrees : etagAgrees readConfig response with
        | false =>
            rcases exists_validateResponseETag_eq_error path readConfig agrees with ⟨error, eq⟩
            rw [eq]
            exact .otherVersion error good agrees
        | true =>
            rw [validateResponseETag_of_agrees path readConfig agrees]
            by_cases passes : LengthPasses range.bufferOutLen response
            · simp only [run_validateContentLength_of_passes passes, if_true]
              split
              · exact .begins _ good agrees passes rfl rfl rfl rfl
              · exact .begins _ good agrees passes rfl rfl rfl rfl
            · simp only [run_validateContentLength_of_not_passes passes, Bool.false_eq_true,
                if_false]
              exact .otherLength good agrees passes

/-- No handler looks at what is cached. -/
def Caches (cachedFile : Option Block) (transfer : RangeTransfer) : Prop :=
  transfer.world.fileState.cachedFile = cachedFile

theorem handleResponse_caches {cachedFile : Option Block} (response : HTTPResponse)
    (transfer : RangeTransfer) (caches : Caches cachedFile transfer) :
    Caches cachedFile ((handleResponse util path readConfig range response).run transfer).2 := by
  have outcome := handled util path readConfig range response transfer
  generalize (handleResponse util path readConfig range response).run transfer = result at *
  cases outcome with
  | refused | violated | redirected | otherVersion | otherLength => exact caches
  | begins after _ _ _ _ _ _ same => exact same.trans caches

theorem handleContent_caches {cachedFile : Option Block} (chunk : Block)
    (transfer : RangeTransfer) (caches : Caches cachedFile transfer) :
    Caches cachedFile ((handleContent range chunk).run transfer).2 := by
  unfold handleContent
  cases range.bufferOut with
  | none => exact caches
  | some bufferOut =>
      simp only [Action.run_bind, Action.run_get, Action.run_ite, Action.run_throw]
      split <;> exact caches

theorem run_finalize (response : HTTPResponse) (transfer : RangeTransfer) :
    (finalize util path range response).run transfer =
      if transfer.rangeRequestNotSupported then
        (.ok (setRangeRequestNotSupported util response), transfer)
      else
        match validateReadLength util path range transfer.outOffset response with
        | .error error => (.error error, transfer)
        | .ok _ =>
            (.ok response,
              if isSuccessfulResponse util response then transfer.markSupported else transfer) := by
  simp only [finalize, Action.run_bind, Action.run_get, Action.run_ite, Action.run_pure,
    Action.run_lift, Action.run_modify]
  split
  · rfl
  · cases validateReadLength util path range transfer.outOffset response with
    | error error => rfl
    | ok _ =>
        simp only
        split <;> rfl

theorem finalize_caches {cachedFile : Option Block} (response : HTTPResponse)
    (transfer : RangeTransfer) (caches : Caches cachedFile transfer) :
    Caches cachedFile ((finalize util path range response).run transfer).2 := by
  rw [run_finalize]
  split
  · exact caches
  · split
    · exact caches
    · split <;> exact caches

/-- Without a buffer the pieces of a body go nowhere. -/
theorem deliver_of_no_buffer {range : Range} (headerMap : HTTPHeaders)
    (noBuffer : range.bufferOut = none) (chunks : List Block) (transfer : RangeTransfer) :
    ((rangeGetRequest util path headerMap readConfig range).deliver chunks).run transfer =
      (.ok true, transfer) := by
  have accepts : ∀ chunk state,
      ((rangeGetRequest util path headerMap readConfig range).contentHandler chunk).run state =
        (.ok true, state) := by
    intro chunk state
    simp only [rangeGetRequest, handleContent, noBuffer, Action.run_pure]
  rw [GetRequestInfo.deliver_of_accepts accepts]
  induction chunks with
  | nil => rfl
  | cons chunk rest inductionHypothesis => exact inductionHypothesis

/-- Without a buffer an answer with a good status is the outcome of its attempt,
unless it carries another `ETag`. -/
theorem attempt_of_no_buffer {range : Range} (headerMap : HTTPHeaders)
    (noBuffer : range.bufferOut = none) {response : HTTPResponse}
    (received : response.requestError = "") (status : response.status < 300) (chunks : List Block)
    (transfer : RangeTransfer) :
    let attempted := (((rangeGetRequest util path headerMap readConfig range).attempt
      (.answered response chunks)).run transfer).1
    if etagAgrees readConfig response then attempted = .ok response
    else ∃ error, attempted = .error error := by
  intro attempted
  have outcome := handled util path readConfig range (started response) transfer
  have same : etagAgrees readConfig (started response) = etagAgrees readConfig response := rfl
  generalize resultEq :
    (handleResponse util path readConfig range (started response)).run transfer = result at outcome
  cases outcome with
  | refused _ refused => exact absurd (show 400 ≤ response.status from refused) (by omega)
  | violated violated => exact absurd (show response.status = 412 from violated) (by omega)
  | redirected redirected => exact absurd (show 300 ≤ response.status from redirected) (by omega)
  | otherVersion error _ disagrees =>
      rw [← same, disagrees, if_neg Bool.false_ne_true]
      exact ⟨error, congrArg Prod.fst (GetRequestInfo.attempt_of_throws resultEq chunks)⟩
  | otherLength _ agrees =>
      rw [← same, agrees, if_pos rfl]
      have stops : attempted = .ok (started response) :=
        congrArg Prod.fst (GetRequestInfo.attempt_of_stops resultEq chunks)
      rwa [started_of_received received] at stops
  | begins after _ agrees =>
      rw [← same, agrees, if_pos rfl]
      exact congrArg Prod.fst (GetRequestInfo.attempt_of_accepts resultEq
        (deliver_of_no_buffer util path readConfig headerMap noBuffer chunks after))

/-- Without a buffer the outcome keeps the status and the headers of the response. -/
theorem finalize_of_no_buffer {range : Range} (noBuffer : range.bufferOut = none)
    (response : HTTPResponse) (transfer : RangeTransfer) :
    ∃ outcome, ((finalize util path range response).run transfer).1 = .ok outcome ∧
      outcome.status = response.status ∧ outcome.headers = response.headers := by
  rw [run_finalize]
  split
  · exact ⟨_, rfl, rfl, rfl⟩
  · have short : validateReadLength util path range transfer.outOffset response = .ok () :=
      if_pos (.inr (.inr (.inl noBuffer)))
    rw [short]
    exact ⟨_, rfl, rfl, rfl⟩

end RangeTransfer

namespace Session

variable (session : Session) (readConfig : HTTPReadConfig) (range : Range)

/-- A request for a range is not made where ranges are known not to be answered. -/
def Declined (world : World) : Prop :=
  world.fileState.rangeRequestState.support = .notSupported ∧
    readConfig.autoFallbackToFullDownload = true

/-- The last attempt at a range. -/
def lastAttempt : Attempt :=
  (session.server.get (rangeGetRequest session.util session.path session.configuredHeaders
    readConfig range).headers).last

/-- The state of the handlers at the beginning. -/
def begun (world : World) : RangeTransfer :=
  let (state, guard) :=
    beginRequest world.fileState.rangeRequestState readConfig.autoFallbackToFullDownload
  { rangeRequest := guard, world := { world with fileState.rangeRequestState := state } }

/-- The state of the handlers when the last attempt begins. -/
def beforeLast (world : World) : RangeTransfer :=
  let request := rangeGetRequest session.util session.path session.configuredHeaders readConfig range
  request.afterFailed (session.server.get request.headers).failed (begun readConfig world)

/-- The end of a request for a range: the guard is given back. -/
def release (result : Reply × RangeTransfer) : Reply × World :=
  (result.1, { result.2.world with
    fileState.rangeRequestState :=
      (result.2.rangeRequest.destroy result.2.world.fileState.rangeRequestState).1 })

theorem beginRequest_support (state : RangeRequestState) (enabled : Bool) :
    ((beginRequest state enabled).2.support = .notSupported ∧ enabled = true) ↔
      (state.support = .notSupported ∧ enabled = true) := by
  cases enabled with
  | false => simp
  | true =>
      simp only [beginRequest, Bool.not_true, Bool.false_eq_true, if_false, and_true,
        Guard.construct]
      by_cases unknown : state.support = .unknown
      · rw [if_pos unknown, unknown]
      · rw [if_neg unknown]
        rfl

theorem getRangeRequest_of_declined {world : World} (declined : Declined readConfig world) :
    (session.getRangeRequest readConfig range).run world =
      (.ok (RangeTransfer.setRangeRequestNotSupported session.util ⟨0, "", [], ""⟩), world) := by
  have known := (beginRequest_support world.fileState.rangeRequestState
    readConfig.autoFallbackToFullDownload).mpr declined
  simp only [getRangeRequest, runGetRangeRequest]
  rw [if_pos known]

theorem getRangeRequest_of_asked {world : World} (asked : ¬ Declined readConfig world) :
    (session.getRangeRequest readConfig range).run world =
      release ((transferRange session.util session.server session.path session.configuredHeaders
        readConfig range).run (begun readConfig world)) := by
  have unknown := fun known => asked ((beginRequest_support world.fileState.rangeRequestState
    readConfig.autoFallbackToFullDownload).mp known)
  simp only [getRangeRequest, runGetRangeRequest]
  rw [if_neg unknown]
  rfl

/-- How the last attempt ends. -/
def attemptLast (world : World) : Reply × RangeTransfer :=
  ((rangeGetRequest session.util session.path session.configuredHeaders readConfig range).attempt
    (session.lastAttempt readConfig range)).run (session.beforeLast readConfig range world)

/-- How a transfer ends is decided by the last attempt. -/
theorem transferRange_run (world : World) :
    (transferRange session.util session.server session.path session.configuredHeaders
        readConfig range).run (begun readConfig world) =
      match session.util.report readConfig.autoFallbackToFullDownload
          (session.attemptLast readConfig range world).1 with
      | .ok response =>
          (RangeTransfer.finalize session.util session.path range response).run
            (session.attemptLast readConfig range world).2
      | .error error => (.error error, (session.attemptLast readConfig range world).2) := by
  cases reported : session.util.report readConfig.autoFallbackToFullDownload
      (session.attemptLast readConfig range world).1 with
  | ok response => exact Action.run_bind_of_ok (Prod.ext reported rfl)
  | error error => exact Action.run_bind_of_error (Prod.ext reported rfl)

theorem getRangeRequest_cachedFile (world : World) :
    ((session.getRangeRequest readConfig range).run world).2.fileState.cachedFile =
      world.fileState.cachedFile := by
  by_cases declined : Declined readConfig world
  · rw [session.getRangeRequest_of_declined readConfig range declined]
  · rw [session.getRangeRequest_of_asked readConfig range declined]
    refine Action.bind_preserves
      (motive := RangeTransfer.Caches world.fileState.cachedFile) ?_ ?_ (begun readConfig world) rfl
    · exact GetRequestInfo.send_preserves session.util
        (RangeTransfer.handleResponse_caches _ _ _ _) (RangeTransfer.handleContent_caches _) _
    · exact RangeTransfer.finalize_caches _ _ _

/-- A request for a range without a buffer, answered with a good status, has an outcome
with the status and the headers of the answer; one that carries another `ETag` has no
outcome, or one without a status. -/
theorem getRangeRequest_of_no_buffer {range : Range} (noBuffer : range.bufferOut = none)
    {world : World} (asked : ¬ Declined readConfig world) {response : HTTPResponse}
    {chunks : List Block}
    (last : session.lastAttempt readConfig range = .answered response chunks)
    (received : response.requestError = "")
    (status : response.status = 200 ∨ response.status = 206) :
    let reply := ((session.getRangeRequest readConfig range).run world).1
    if etagAgrees readConfig response then
      ∃ outcome, reply = .ok outcome ∧ outcome.status = response.status ∧
        outcome.headers = response.headers
    else ∀ outcome, reply = .ok outcome → outcome.status = 0 := by
  intro reply
  have replyEq : reply = ((transferRange session.util session.server session.path
      session.configuredHeaders readConfig range).run (begun readConfig world)).1 :=
    congrArg Prod.fst (session.getRangeRequest_of_asked readConfig range asked)
  rw [replyEq, session.transferRange_run readConfig range world]
  have attempted := RangeTransfer.attempt_of_no_buffer session.util session.path readConfig
    session.configuredHeaders noBuffer received (by omega) chunks
    (session.beforeLast readConfig range world)
  rw [← last] at attempted
  change if etagAgrees readConfig response then (session.attemptLast readConfig range world).1 = _
    else ∃ error, (session.attemptLast readConfig range world).1 = _ at attempted
  cases agrees : etagAgrees readConfig response with
  | true =>
      rw [agrees, if_pos rfl] at attempted
      rw [if_pos rfl, attempted, session.util.report_of_status received status]
      exact RangeTransfer.finalize_of_no_buffer session.util session.path noBuffer response _
  | false =>
      rw [agrees, if_neg Bool.false_ne_true] at attempted
      rcases attempted with ⟨error, attempted⟩
      rw [if_neg Bool.false_ne_true, attempted]
      intro outcome isOutcome
      cases reported : session.util.report readConfig.autoFallbackToFullDownload
          (.error error) with
      | error _ =>
          rw [reported] at isOutcome
          cases isOutcome
      | ok received =>
          rw [reported] at isOutcome
          rcases RangeTransfer.finalize_of_no_buffer session.util session.path noBuffer received
            (session.attemptLast readConfig range world).2 with ⟨same, sameEq, sameStatus, -⟩
          rw [sameEq] at isOutcome
          cases isOutcome
          rw [sameStatus]
          exact (session.util.report_thrown _ _ _ reported).2.1

end Session

end Httpfs.Http.File
