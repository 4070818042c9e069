import Httpfs.Http.Response
import Httpfs.S3.Request.Data
import Httpfs.S3.Xml.Response

/-!
# Sending a request until it is answered

The loop that sends a request again: once after a refresh of the credentials,
once to another region, and as often as the settings allow after an answer that
passes.  The callbacks act on a world nothing is known about, so an answer may
depend on everything that was sent before.
-/

namespace Httpfs.S3.Request

open Http Text Xml

/-! ## Answers -/

/-- What a request call gives: a response, if any, or an exception. -/
abbrev Answer := Except ErrorData (Option HTTPResponse)

/-- The extra information of an error under a key. -/
def extraInfo? (error : ErrorData) (key : String) : Option String :=
  error.extraInfo.lookup key

section Eligibility

variable (utf8Proc : Utf8Proc)

/-- The code of the S3 error in a body. -/
def errorCode? (body : String) : Option Text :=
  (tryParseError utf8Proc body.toList).map S3XMLError.code

def isAuthRefreshErrorBody (body : String) : Bool :=
  match errorCode? utf8Proc body with
  | none => false
  | some code =>
      code == "ExpiredToken".toList || code == "InvalidToken".toList ||
        code == "TokenRefreshRequired".toList

/-- `IsAuthRefreshStatus` of a response. -/
def isAuthRefreshStatus (response : HTTPResponse) : Bool :=
  response.status == 401 || response.status == 403 ||
    (response.status == 400 && isAuthRefreshErrorBody utf8Proc response.body)

/-- `IsAuthRefreshStatus` of an exception. -/
def isAuthRefreshError (error : ErrorData) : Bool :=
  match extraInfo? error "status_code" with
  | none => false
  | some status =>
      status == "401" || status == "403" ||
        (status == "400" && (extraInfo? error "response_body").any (isAuthRefreshErrorBody utf8Proc))

/-- The region a response names, if it is another one. -/
def getRegionRedirect (response : HTTPResponse) (authParams : S3AuthParams) : Option Text :=
  if response.status ≠ 301 ∧ response.status ≠ 400 then none
  else
    (response.header? "x-amz-bucket-region").bind fun region =>
      if region.toList = [] ∨ region.toList = authParams.region then none else some region.toList

/-- The region an exception names, if it is another one. -/
def getErrorRegionRedirect (error : ErrorData) (authParams : S3AuthParams) : Option Text :=
  match extraInfo? error "status_code" with
  | none => none
  | some status =>
      if status ≠ "301" ∧ status ≠ "400" then none
      else
        (extraInfo? error "header_x-amz-bucket-region").bind fun region =>
          if region.toList = [] ∨ region.toList = authParams.region then none
          else some region.toList

def isRequestTimeout (response : HTTPResponse) : Bool :=
  response.status == 400 && !response.body.isEmpty &&
    errorCode? utf8Proc response.body == some "RequestTimeout".toList

def retryableErrorCodes : List Text :=
  ["InternalError".toList, "OperationAborted".toList, "SlowDown".toList,
    "ServiceUnavailable".toList, "TooManyRequests".toList, "RequestTimeout".toList]

def isRetryableReceivedResponse (response : HTTPResponse) : Bool :=
  !response.hasRequestError &&
    (response.status == 429 || (500 ≤ response.status && response.status < 600) ||
      (errorCode? utf8Proc response.body).any retryableErrorCodes.contains)

def isS3RequestTimeoutError (error : ErrorData) : Bool :=
  extraInfo? error "status_code" == some "400" &&
    (extraInfo? error "response_body").any fun body =>
      errorCode? utf8Proc body == some "RequestTimeout".toList

def isTransientRetryEligibleMethod (requestType : RequestType) : Bool :=
  requestType == .get || requestType == .head || requestType == .put || requestType == .delete

def shouldRetryReceivedResponse (requestData : S3RequestData) (response : HTTPResponse)
    (postRequestMode : S3PostRequestMode) : Bool :=
  !response.hasRequestError &&
    ((isTransientRetryEligibleMethod requestData.requestType &&
        isRequestTimeout utf8Proc response) ||
      (postRequestMode == .retryReceivedResponses &&
        isRetryableReceivedResponse utf8Proc response))

end Eligibility

/-! ## The loop -/

structure Callbacks (World : Type) where
  createData : World → Except ErrorData S3RequestData × World
  request : S3RequestData → World → Answer × World
  refreshAuthParams : S3RequestData → World → Except ErrorData Bool × World
  setRegion : S3RequestData → Text → World → Except ErrorData Unit × World
  /-- It only takes over fields of the request, so it does not fail. -/
  finalRequest : Option (S3RequestData → World → World)

/-- The variables of the loop; how long it sleeps is left out. -/
structure RetryState where
  retriedAuthRefresh : Bool := false
  retriedRegion : Bool := false
  transientRetries : Nat := 0

/-- Why an attempt is made again. -/
inductive ResendCause
  | authRefresh
  | region
  | transient
  deriving DecidableEq, Repr

def RetryState.resend (state : RetryState) : ResendCause → RetryState
  | .authRefresh => { state with retriedAuthRefresh := true }
  | .region => { state with retriedRegion := true }
  | .transient => { state with transientRetries := state.transientRetries + 1 }

/-- How an attempt ends that does not throw. -/
inductive Ending
  | resends (cause : ResendCause)
  | returns (result : Option HTTPResponse)

/-- What stands in both branches of an attempt.  A callback runs only if its
resend is still possible. -/
def settle {World : Type} (callbacks : Callbacks World) (requestData : S3RequestData)
    (refreshes : Bool) (region : Option Text) (transient : Bool)
    (otherwise : Except ErrorData Ending) (world : World) : Except ErrorData Ending × World :=
  let (refreshed, world) :=
    if refreshes then callbacks.refreshAuthParams requestData world else (.ok false, world)
  match refreshed with
  | .error error => (.error error, world)
  | .ok true => (.ok (.resends .authRefresh), world)
  | .ok false =>
      match region with
      | some correctRegion =>
          match callbacks.setRegion requestData correctRegion world with
          | (.error error, world) => (.error error, world)
          | (.ok (), world) => (.ok (.resends .region), world)
      | none => if transient then (.ok (.resends .transient), world) else (otherwise, world)

section Run

variable (utf8Proc : Utf8Proc) {World : Type} (callbacks : Callbacks World)
  (postRequestMode : S3PostRequestMode)

/-- The rest of the `try` block. -/
def afterResponse (state : RetryState) (requestData : S3RequestData)
    (result : Option HTTPResponse) (world : World) : Except ErrorData Ending × World :=
  let received := result.filter fun response => !response.hasRequestError
  settle callbacks requestData
    (!state.retriedAuthRefresh && received.any (isAuthRefreshStatus utf8Proc))
    (if state.retriedRegion then none
      else received.bind fun response => getRegionRedirect response requestData.authParams)
    (decide (state.transientRetries < requestData.httpParams.retries) &&
      received.any fun response =>
        shouldRetryReceivedResponse utf8Proc requestData response postRequestMode)
    (.ok (.returns result)) world

/-- The `catch` block. -/
def afterException (state : RetryState) (requestData : S3RequestData) (error : ErrorData)
    (world : World) : Except ErrorData Ending × World :=
  settle callbacks requestData
    (!state.retriedAuthRefresh && isAuthRefreshError utf8Proc error)
    (if state.retriedRegion then none
      else getErrorRegionRedirect error requestData.authParams)
    (isTransientRetryEligibleMethod requestData.requestType &&
      decide (state.transientRetries < requestData.httpParams.retries) &&
      isS3RequestTimeoutError utf8Proc error)
    (.error error) world

/-- One round of the loop once its request is answered. -/
def settleAttempt (state : RetryState) (requestData : S3RequestData) (answer : Answer)
    (world : World) : Except ErrorData Ending × World :=
  match answer with
  | .error error => afterException utf8Proc callbacks state requestData error world
  | .ok result =>
      match afterResponse utf8Proc callbacks postRequestMode state requestData result world with
      -- What a callback throws in the `try` block is caught too.
      | (.error error, world) => afterException utf8Proc callbacks state requestData error world
      | (.ok ending, world) => (.ok ending, world)

structure Attempt where
  requestData : S3RequestData
  answer : Answer

/-- An attempt after which the request was sent again. -/
structure Resend extends Attempt where
  cause : ResendCause

/-- What a run did and how it ended; without a last attempt the data of the
next one could not be made. -/
structure RunResult (World : Type) where
  resends : List Resend
  last : Option Attempt
  finalRequests : List S3RequestData
  outcome : Answer
  world : World

/-- All attempts, in order. -/
def RunResult.attempts (result : RunResult World) : List Attempt :=
  result.resends.map Resend.toAttempt ++ result.last.toList

def RunResult.resentFor (result : RunResult World) (cause : ResendCause) : Nat :=
  result.resends.countP fun resend => resend.cause == cause

/-- `S3RequestExecutor::Run`, for as many rounds as there is fuel. -/
def run : Nat → RetryState → World → Option (RunResult World)
  | 0, _, _ => none
  | fuel + 1, state, world =>
      match callbacks.createData world with
      | (.error error, world) => some ⟨[], none, [], .error error, world⟩
      | (.ok requestData, world) =>
          let (answer, world) := callbacks.request requestData world
          match settleAttempt utf8Proc callbacks postRequestMode state requestData answer world with
          | (.error error, world) => some ⟨[], some ⟨requestData, answer⟩, [], .error error, world⟩
          | (.ok (.returns result), world) =>
              match callbacks.finalRequest with
              | none => some ⟨[], some ⟨requestData, answer⟩, [], .ok result, world⟩
              | some finalRequest =>
                  some ⟨[], some ⟨requestData, answer⟩, [requestData], .ok result,
                    finalRequest requestData world⟩
          | (.ok (.resends cause), world) =>
              (run fuel (state.resend cause) world).map fun result =>
                { result with resends := ⟨⟨requestData, answer⟩, cause⟩ :: result.resends }

end Run

/-! ## One attempt -/

/-- The server answered. -/
def Attempt.Received (attempt : Attempt) : Prop :=
  match attempt.answer with
  | .ok result => ∃ response, result = some response ∧ response.hasRequestError = false
  | .error error => (extraInfo? error "status_code").isSome = true

/-- How often a cause is still good for. -/
def RetryState.remaining (state : RetryState) (retries : Nat) : ResendCause → Nat
  | .authRefresh => if state.retriedAuthRefresh then 0 else 1
  | .region => if state.retriedRegion then 0 else 1
  | .transient => retries - state.transientRetries

/-- What is known of an attempt that is sent again. -/
structure ResendAllowed (utf8Proc : Utf8Proc) (postRequestMode : S3PostRequestMode)
    (attempt : Attempt) (cause : ResendCause) : Prop where
  received : attempt.Received
  post : attempt.requestData.requestType = .post → cause = .transient →
    postRequestMode = .retryReceivedResponses ∧ ∃ response,
      attempt.answer = .ok (some response) ∧ isRetryableReceivedResponse utf8Proc response = true

section Attempt

variable {utf8Proc : Utf8Proc} {World : Type} {callbacks : Callbacks World}
  {postRequestMode : S3PostRequestMode} {state : RetryState} {requestData : S3RequestData}

private theorem settle_eq_ok {refreshes : Bool} {region : Option Text} {transient : Bool}
    {otherwise : Except ErrorData Ending} {world next : World} {ending : Ending}
    (settles : settle callbacks requestData refreshes region transient otherwise world =
      (.ok ending, next)) :
    (ending = .resends .authRefresh ∧ refreshes = true) ∨
      (ending = .resends .region ∧ region.isSome = true) ∨
      (ending = .resends .transient ∧ transient = true) ∨ otherwise = .ok ending := by
  rw [settle] at settles
  split at settles
  rename_i refreshed later answered
  split at settles
  · cases settles
  · left
    cases settles
    refine ⟨rfl, ?_⟩
    by_contra skipped
    rw [if_neg skipped] at answered
    cases answered
  · right
    split at settles
    · left
      split at settles
      · cases settles
      · cases settles
        exact ⟨rfl, rfl⟩
    · right
      split at settles
      · left
        rename_i passes
        cases settles
        exact ⟨rfl, passes⟩
      · right
        cases settles
        rfl

/-- Only a callback fails. -/
private theorem settle_eq_error {refreshes : Bool} {region : Option Text} {transient : Bool}
    {ending : Ending} {world next : World} {error : ErrorData}
    (settles : settle callbacks requestData refreshes region transient (.ok ending) world =
      (.error error, next)) : refreshes = true ∨ region.isSome = true := by
  rw [settle] at settles
  split at settles
  rename_i refreshed later answered
  split at settles
  · left
    by_contra skipped
    rw [if_neg skipped] at answered
    cases answered
  · cases settles
  · right
    split at settles
    · rfl
    · split at settles <;> cases settles

/-- The response that was received, if any. -/
private theorem filter_received {result : Option HTTPResponse} {response : HTTPResponse}
    (filtered : result.filter (fun response => !response.hasRequestError) = some response) :
    result = some response ∧ response.hasRequestError = false := by
  simpa using Option.filter_eq_some_iff.mp filtered

private theorem remaining_authRefresh {retries : Nat} (fresh : state.retriedAuthRefresh = false) :
    0 < state.remaining retries .authRefresh := by
  simp [RetryState.remaining, fresh]

private theorem remaining_region {retries : Nat} {region : Option Text}
    (redirects : (if state.retriedRegion then none else region).isSome = true) :
    0 < state.remaining retries .region ∧ region.isSome = true := by
  cases retried : state.retriedRegion with
  | false =>
      rw [retried] at redirects
      exact ⟨by simp [RetryState.remaining, retried], redirects⟩
  | true =>
      rw [retried] at redirects
      contradiction

private theorem remaining_transient {retries : Nat} (more : state.transientRetries < retries) :
    0 < state.remaining retries .transient :=
  Nat.sub_pos_of_lt more

private theorem afterResponse_resends {result : Option HTTPResponse} {cause : ResendCause}
    {world next : World}
    (resends : afterResponse utf8Proc callbacks postRequestMode state requestData result world =
      (.ok (.resends cause), next)) :
    0 < state.remaining requestData.httpParams.retries cause ∧
      ResendAllowed utf8Proc postRequestMode ⟨requestData, .ok result⟩ cause := by
  rcases settle_eq_ok resends with ⟨⟨⟩, refreshes⟩ | ⟨⟨⟩, redirects⟩ | ⟨⟨⟩, transient⟩ | impossible
  · rw [Bool.and_eq_true, Bool.not_eq_true'] at refreshes
    rcases (Option.any_eq_true _ _).mp refreshes.2 with ⟨response, filtered, -⟩
    refine ⟨remaining_authRefresh refreshes.1, ⟨response, filter_received filtered⟩, ?_⟩
    rintro - ⟨⟩
  · rcases remaining_region redirects with ⟨remains, isSome⟩
    rcases Option.isSome_iff_exists.mp isSome with ⟨region, bound⟩
    rcases Option.bind_eq_some_iff.mp bound with ⟨response, filtered, -⟩
    refine ⟨remains, ⟨response, filter_received filtered⟩, ?_⟩
    rintro - ⟨⟩
  · rw [Bool.and_eq_true, decide_eq_true_iff] at transient
    rcases (Option.any_eq_true _ _).mp transient.2 with ⟨response, filtered, retries⟩
    rcases filter_received filtered with ⟨rfl, received⟩
    refine ⟨remaining_transient transient.1, ⟨response, rfl, received⟩, ?_⟩
    intro post _
    rw [shouldRetryReceivedResponse, post] at retries
    simp only [isTransientRetryEligibleMethod, Bool.and_eq_true, Bool.or_eq_true,
      beq_iff_eq] at retries
    rcases retries.2 with ⟨eligible, -⟩ | ⟨mode, accepted⟩
    · contradiction
    · exact ⟨mode, response, rfl, accepted⟩
  · cases impossible

private theorem afterResponse_throws {result : Option HTTPResponse} {error : ErrorData}
    {world next : World}
    (throws : afterResponse utf8Proc callbacks postRequestMode state requestData result world =
      (.error error, next)) : Attempt.Received ⟨requestData, .ok result⟩ := by
  rcases settle_eq_error throws with refreshes | redirects
  · rw [Bool.and_eq_true] at refreshes
    rcases (Option.any_eq_true _ _).mp refreshes.2 with ⟨response, filtered, -⟩
    exact ⟨response, filter_received filtered⟩
  · have isSome := (@remaining_region state 0 _ redirects).2
    rcases Option.isSome_iff_exists.mp isSome with ⟨region, bound⟩
    rcases Option.bind_eq_some_iff.mp bound with ⟨response, filtered, -⟩
    exact ⟨response, filter_received filtered⟩

private theorem afterException_resends {answer : Answer} {error : ErrorData} {cause : ResendCause}
    {world next : World} (received : Attempt.Received ⟨requestData, answer⟩ ∨ answer = .error error)
    (resends : afterException utf8Proc callbacks state requestData error world =
      (.ok (.resends cause), next)) :
    0 < state.remaining requestData.httpParams.retries cause ∧
      ResendAllowed utf8Proc postRequestMode ⟨requestData, answer⟩ cause := by
  have answered (status : (extraInfo? error "status_code").isSome = true) :
      Attempt.Received ⟨requestData, answer⟩ := by
    rcases received with received | rfl
    · exact received
    · exact status
  rcases settle_eq_ok resends with ⟨⟨⟩, refreshes⟩ | ⟨⟨⟩, redirects⟩ | ⟨⟨⟩, transient⟩ | impossible
  · rw [Bool.and_eq_true, Bool.not_eq_true'] at refreshes
    have status : (extraInfo? error "status_code").isSome = true := by
      have eligible := refreshes.2
      rw [isAuthRefreshError] at eligible
      split at eligible
      · contradiction
      · simp [*]
    refine ⟨remaining_authRefresh refreshes.1, answered status, ?_⟩
    rintro - ⟨⟩
  · rcases remaining_region redirects with ⟨remains, isSome⟩
    have status : (extraInfo? error "status_code").isSome = true := by
      rw [getErrorRegionRedirect] at isSome
      split at isSome
      · contradiction
      · simp [*]
    refine ⟨remains, answered status, ?_⟩
    rintro - ⟨⟩
  · simp only [Bool.and_eq_true, decide_eq_true_iff, isS3RequestTimeoutError, beq_iff_eq] at transient
    rcases transient with ⟨⟨eligible, more⟩, status, -⟩
    refine ⟨remaining_transient more, answered (by rw [status]; rfl), ?_⟩
    intro post _
    rw [post] at eligible
    contradiction
  · cases impossible

/-- An attempt is sent again only for a cause that is left, and only if the
server answered it. -/
theorem settleAttempt_resends {answer : Answer} {cause : ResendCause} {world next : World}
    (resends : settleAttempt utf8Proc callbacks postRequestMode state requestData answer world =
      (.ok (.resends cause), next)) :
    0 < state.remaining requestData.httpParams.retries cause ∧
      ResendAllowed utf8Proc postRequestMode ⟨requestData, answer⟩ cause := by
  cases answer with
  | error error => exact afterException_resends (.inr rfl) resends
  | ok result =>
      rw [settleAttempt] at resends
      split at resends
      · rename_i error later threw
        exact afterException_resends (.inl (afterResponse_throws threw)) resends
      · rename_i ending later settled
        cases resends
        exact afterResponse_resends settled

theorem settleAttempt_returns {answer : Answer} {result : Option HTTPResponse} {world next : World}
    (returns : settleAttempt utf8Proc callbacks postRequestMode state requestData answer world =
      (.ok (.returns result), next)) : answer = .ok result := by
  have thrown {error : ErrorData} {later : World} :
      afterException utf8Proc callbacks state requestData error later ≠
        (.ok (.returns result), next) := by
    intro impossible
    rcases settle_eq_ok impossible with ⟨⟨⟩, -⟩ | ⟨⟨⟩, -⟩ | ⟨⟨⟩, -⟩ | ⟨⟨⟩⟩
  cases answer with
  | error error => exact absurd returns thrown
  | ok given =>
      rw [settleAttempt] at returns
      split at returns
      · exact absurd returns thrown
      · rename_i ending later settled
        cases returns
        rcases settle_eq_ok settled with ⟨⟨⟩, -⟩ | ⟨⟨⟩, -⟩ | ⟨⟨⟩, -⟩ | same
        cases same
        rfl

end Attempt

/-! ## Runs -/

namespace RetryState

/-- How many more resends there can be. -/
def budget (state : RetryState) (retries : Nat) : Nat :=
  state.remaining retries .authRefresh + state.remaining retries .region +
    state.remaining retries .transient

/-- A resend uses its own cause up by one. -/
theorem remaining_resend {state : RetryState} {retries : Nat} {cause : ResendCause}
    (remains : 0 < state.remaining retries cause) (other : ResendCause) :
    (state.resend cause).remaining retries other + (if cause == other then 1 else 0) =
      state.remaining retries other := by
  cases cause with
  | authRefresh =>
      cases other with
      | authRefresh =>
          cases retried : state.retriedAuthRefresh with
          | false => simp [remaining, resend, retried]
          | true => simp [remaining, retried] at remains
      | region | transient => rfl
  | region =>
      cases other with
      | region =>
          cases retried : state.retriedRegion with
          | false => simp [remaining, resend, retried]
          | true => simp [remaining, retried] at remains
      | authRefresh | transient => rfl
  | transient =>
      cases other with
      | transient =>
          have more : 0 < retries - state.transientRetries := remains
          simp only [remaining, resend, beq_self_eq_true, if_true]
          omega
      | authRefresh | region => rfl

theorem budget_resend {state : RetryState} {retries : Nat} {cause : ResendCause}
    (remains : 0 < state.remaining retries cause) :
    (state.resend cause).budget retries + 1 = state.budget retries := by
  have each := remaining_resend remains
  rw [budget, budget, ← each .authRefresh, ← each .region, ← each .transient]
  cases cause <;> simp <;> omega

end RetryState

/-- The rules of a run that starts with what remains for each cause. -/
structure Disciplined (utf8Proc : Utf8Proc) {World : Type} (callbacks : Callbacks World)
    (postRequestMode : S3PostRequestMode) (state : RetryState) (retries : Nat)
    (result : RunResult World) : Prop where
  attempts : result.attempts.length ≤ state.budget retries + 1
  causes : ∀ cause, result.resentFor cause ≤ state.remaining retries cause
  allowed : ∀ resend ∈ result.resends,
    ResendAllowed utf8Proc postRequestMode resend.toAttempt resend.cause
  returned : ∀ response, result.outcome = .ok response → ∃ last, result.last = some last ∧
    last.answer = .ok response ∧
    result.finalRequests = if callbacks.finalRequest.isSome then [last.requestData] else []
  thrown : ∀ error, result.outcome = .error error → result.finalRequests = []

section Run

variable {utf8Proc : Utf8Proc} {World : Type} {callbacks : Callbacks World}
  {postRequestMode : S3PostRequestMode} {retries : Nat}

theorem run_disciplined
    (constant : ∀ world data next, callbacks.createData world = (.ok data, next) →
      data.httpParams.retries = retries) (fuel : Nat) {state : RetryState} {world : World}
    {result : RunResult World}
    (runs : run utf8Proc callbacks postRequestMode fuel state world = some result) :
    Disciplined utf8Proc callbacks postRequestMode state retries result := by
  induction fuel generalizing state world result with
  | zero => contradiction
  | succ fuel ih =>
      rw [run] at runs
      split at runs
      · cases runs
        exact ⟨Nat.zero_le _, fun cause => Nat.zero_le _, by rintro _ ⟨⟩, by rintro _ ⟨⟩,
          fun _ _ => rfl⟩
      · rename_i requestData created makes
        have sameRetries := constant _ _ _ makes
        dsimp only at runs
        split at runs
        · cases runs
          exact ⟨Nat.le_add_left _ _, fun cause => Nat.zero_le _, by rintro _ ⟨⟩, by rintro _ ⟨⟩,
            fun _ _ => rfl⟩
        · rename_i response later settled
          have answered := settleAttempt_returns settled
          split at runs
          · rename_i noFinal
            cases runs
            refine ⟨Nat.le_add_left _ _, fun cause => Nat.zero_le _, by rintro _ ⟨⟩, ?_,
              fun _ _ => rfl⟩
            rintro _ ⟨⟩
            exact ⟨_, rfl, answered, by rw [noFinal]; rfl⟩
          · rename_i finalRequest isFinal
            cases runs
            refine ⟨Nat.le_add_left _ _, fun cause => Nat.zero_le _, by rintro _ ⟨⟩, ?_,
              by rintro _ ⟨⟩⟩
            rintro _ ⟨⟩
            exact ⟨_, rfl, answered, by rw [isFinal]; rfl⟩
        · rename_i cause later settled
          rcases settleAttempt_resends settled with ⟨remains, allowed⟩
          rw [sameRetries] at remains
          rcases Option.map_eq_some_iff.mp runs with ⟨rest, restRuns, rfl⟩
          have disciplined := ih restRuns
          constructor
          · have shorter := disciplined.attempts
            have spent := RetryState.budget_resend remains
            simp only [RunResult.attempts, List.map_cons, List.cons_append, List.length_cons] at shorter ⊢
            omega
          · intro other
            have fewer := disciplined.causes other
            have spent := RetryState.remaining_resend remains other
            rw [RunResult.resentFor] at fewer
            rw [RunResult.resentFor, List.countP_cons]
            dsimp only
            omega
          · intro resend member
            rcases List.mem_cons.mp member with rfl | later
            · exact allowed
            · exact disciplined.allowed resend later
          · exact disciplined.returned
          · exact disciplined.thrown

/-- Enough fuel for the budget is enough for the run. -/
theorem run_isSome
    (constant : ∀ world data next, callbacks.createData world = (.ok data, next) →
      data.httpParams.retries = retries) (fuel : Nat) {state : RetryState} (world : World)
    (enough : state.budget retries < fuel) :
    (run utf8Proc callbacks postRequestMode fuel state world).isSome = true := by
  induction fuel generalizing state world with
  | zero => contradiction
  | succ fuel ih =>
      rw [run]
      split
      · rfl
      · rename_i requestData created makes
        have sameRetries := constant _ _ _ makes
        dsimp only
        split
        · rfl
        · split <;> rfl
        · rename_i cause later settled
          have remains := (settleAttempt_resends settled).1
          rw [sameRetries] at remains
          have spent := RetryState.budget_resend remains
          rw [Option.isSome_map]
          exact ih later (by omega)

end Run

/-- A POST whose answers are given in advance. -/
private def scriptedCallbacks : Callbacks (List Answer) where
  createData script := (.ok
    { requestType := .post
      authParams := {}
      httpParams := { retries := 1 }
      captured := { params := {}, authParams := {}, refreshPath := [] }
      httpUrl := "https://b.s3.amazonaws.com/k".toList
      headers := [] }, script)
  request _ script := (script.headD (.ok none), script.tail)
  refreshAuthParams _ script := (.ok true, script)
  setRegion _ _ script := (.ok (), script)
  finalRequest := some fun _ script => script

end Httpfs.S3.Request
