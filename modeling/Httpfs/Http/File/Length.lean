import Httpfs.Http.File.Requests

/-!
# The size of an opened file

A server of a fixed object tells its size in a HEAD, in the answer to a request for
the first two bytes, or not at all.  The size that a handle ends up with is the size
of the object unless it was taken from the two bytes themselves.
-/

namespace Httpfs.Http.File

open FullDownload RangeRequest Text Word64

/-- The bytes of an object; their number has 64 bits. -/
abbrev Object := { bytes : Block // bytes.length < modulus }

namespace Object

def size (object : Object) : Nat :=
  object.val.length

end Object

/-! ## Answers about an object -/

/-- A `Content-Length` that tells the size, or none. -/
def TellsLengthOrNone (object : Object) (response : HTTPResponse) : Prop :=
  response.header? "Content-Length" = some (toString object.size) ∨
    response.header? "Content-Length" = none

/-- A `Content-Range` with the size of the object as its total. -/
def TellsTotal (object : Object) (response : HTTPResponse) : Prop :=
  ∃ unit : String, '/' ∉ unit.toList ∧
    response.header? "Content-Range" = some (unit ++ "/" ++ toString object.size)

/-- A `Content-Range` with the total `*`, or none. -/
def TellsNoTotal (response : HTTPResponse) : Prop :=
  response.header? "Content-Range" = none ∨
    ∃ unit : String, '/' ∉ unit.toList ∧ response.header? "Content-Range" = some (unit ++ "/*")

/-- A HEAD is answered, or rejected with a status that is not taken for an answer. -/
inductive AnswersHead (object : Object) (response : HTTPResponse) : Prop
  | ok : response.status = 200 → TellsLengthOrNone object response →
      response.header? "Content-Range" = none → AnswersHead object response
  | rejected : response.status ≠ 200 → response.status ≠ 404 → response.status ≠ 301 →
      AnswersHead object response

/-- The request for two bytes is answered with them, or with all bytes. -/
inductive AnswersProbe (object : Object) (response : HTTPResponse) (body : Block) : Prop
  | twoBytes : response.status = 206 → body = object.val.take 2 →
      response.header? "Content-Length" = some (toString (min 2 object.size)) →
      TellsTotal object response ∨ TellsNoTotal response → AnswersProbe object response body
  | whole : response.status = 200 → body = object.val → TellsLengthOrNone object response →
      response.header? "Content-Range" = none → AnswersProbe object response body

theorem AnswersProbe.status {object : Object} {response : HTTPResponse} {body : Block}
    (answers : AnswersProbe object response body) :
    response.status = 200 ∨ response.status = 206 := by
  cases answers with
  | twoBytes status => exact .inr status
  | whole status => exact .inl status

/-- Who answers for an object: to the HEAD of a session, to requests for the first two
bytes, and to requests for all bytes. -/
structure Serves (object : Object) (session : Session) : Prop where
  head : ∃ response, session.server.head session.configuredHeaders = .ok response ∧
    AnswersHead object response
  probe : ∀ headers, HTTPHeaders.get? headers "Range" = some "bytes=0-1" →
    ∃ response chunks, (session.server.get headers).last = .answered response chunks ∧
      response.requestError = "" ∧ AnswersProbe object response chunks.flatten
  whole : ∀ headers, HTTPHeaders.get? headers "Range" = none →
    ∃ response chunks, (session.server.get headers).last = .answered response chunks ∧
      response.requestError = "" ∧ response.status = 200 ∧ chunks.flatten = object.val

/-- The request for the first two bytes. -/
def firstTwo : Range :=
  ⟨0, none, 2⟩

/-! ## The size that an answer tells -/

/-- The size a handle takes from an answer. -/
def toldSize (response : HTTPResponse) : Nat :=
  ((tryParseContentRange response).or (tryParseContentLength response)).getD 0

theorem toldSize_congr {response other : HTTPResponse} (headers : response.headers = other.headers) :
    toldSize response = toldSize other := by
  simp only [toldSize, tryParseContentRange, tryParseContentLength, numericHeader,
    HTTPResponse.header?, headers]

theorem tryParseContentLength_of_header {response : HTTPResponse} {length : Nat}
    (header : response.header? "Content-Length" = some (toString length))
    (fits : length < modulus) : tryParseContentLength response = some length := by
  rw [tryParseContentLength, numericHeader, header, Option.bind_some, stoull_toString fits]

theorem tryParseContentLength_of_none {response : HTTPResponse}
    (header : response.header? "Content-Length" = none) :
    tryParseContentLength response = none := by
  rw [tryParseContentLength, numericHeader, header, Option.bind_none]

theorem tryParseContentRange_of_none {response : HTTPResponse}
    (header : response.header? "Content-Range" = none) : tryParseContentRange response = none := by
  rw [tryParseContentRange, header, Option.bind_none]

/-- What follows the slash of a `Content-Range`. -/
theorem tryParseContentRange_of_header {response : HTTPResponse} {unit total : String}
    (slashFree : '/' ∉ unit.toList)
    (header : response.header? "Content-Range" = some (unit ++ "/" ++ total)) :
    tryParseContentRange response =
      if total.toList = "*".toList then none else stoull total.toList := by
  have whole : (unit ++ "/" ++ total).toList = unit.toList ++ ['/'] ++ total.toList := by
    simp only [String.toList_append]
    rfl
  have slash : find "/".toList (unit.toList ++ ['/'] ++ total.toList) = some unit.toList.length :=
    find_append slashFree
  have rest : substrFrom (unit.toList ++ ['/'] ++ total.toList) (unit.toList.length + 1) =
      total.toList := by
    rw [List.append_assoc]
    exact substrFrom_append_cons _ _ _
  rw [tryParseContentRange, header, Option.bind_some, whole, slash, Option.bind_some, rest]

namespace Object

variable {object : Object} {response : HTTPResponse}

theorem tryParseContentRange_of_total (told : TellsTotal object response) :
    tryParseContentRange response = some object.size := by
  rcases told with ⟨unit, slashFree, header⟩
  have number : (toString object.size).toList ≠ "*".toList := by
    intro star
    have isNumber := stoull_toString (show object.size < modulus from object.property)
    have notNumber : stoull "*".toList = none := by decide
    rw [star, notNumber] at isNumber
    cases isNumber
  rw [tryParseContentRange_of_header slashFree header, if_neg number,
    stoull_toString (show object.size < modulus from object.property)]

theorem toldSize_of_total (told : TellsTotal object response) : toldSize response = object.size := by
  rw [toldSize, tryParseContentRange_of_total told]
  rfl

theorem tryParseContentRange_of_no_total (untold : TellsNoTotal response) :
    tryParseContentRange response = none := by
  rcases untold with header | ⟨unit, slashFree, header⟩
  · exact tryParseContentRange_of_none header
  · have star : response.header? "Content-Range" = some (unit ++ "/" ++ "*") := by
      rw [header, String.append_assoc]
      rfl
    rw [tryParseContentRange_of_header slashFree star, if_pos rfl]

theorem toldSize_of_lengthOrNone (told : TellsLengthOrNone object response)
    (noRange : response.header? "Content-Range" = none) :
    toldSize response = object.size ∨ toldSize response = 0 := by
  rw [toldSize, tryParseContentRange_of_none noRange]
  rcases told with header | header
  · rw [tryParseContentLength_of_header header object.property]
    exact .inl rfl
  · rw [tryParseContentLength_of_none header]
    exact .inr rfl

/-- Two bytes without a total tell nothing but their own number. -/
theorem toldSize_of_no_total (untold : TellsNoTotal response)
    (header : response.header? "Content-Length" = some (toString (min 2 object.size))) :
    toldSize response = min 2 object.size := by
  rw [toldSize, tryParseContentRange_of_no_total untold,
    tryParseContentLength_of_header header (by unfold modulus; omega)]
  rfl

end Object

/-! ## Requests -/

section Object

variable {object : Object} {session : Session} (serves : Serves object session)
  (readConfig : HTTPReadConfig)

include serves

theorem Serves.wholeFile : ∃ response chunks,
    session.wholeFile readConfig = .answered response chunks ∧ response.requestError = "" ∧
      response.status = 200 ∧ chunks.flatten = object.val :=
  serves.whole _ (range_prepareFullGetHeaders session.configuredHeaders readConfig)

omit serves in
theorem range_firstTwo : HTTPHeaders.get? (rangeGetRequest session.util session.path
    session.configuredHeaders readConfig firstTwo).headers "Range" = some "bytes=0-1" := by
  rw [rangeGetRequest, range_applyReadCondition, HTTPHeaders.get?_set]
  rfl

theorem Serves.firstTwo : ∃ response chunks,
    session.lastAttempt readConfig firstTwo = .answered response chunks ∧
      response.requestError = "" ∧ AnswersProbe object response chunks.flatten :=
  serves.probe _ (range_firstTwo readConfig)

/-- What a path has cached, if anything, is the object. -/
def CachesObject (object : Object) (world : World) : Prop :=
  ∀ cachedFile, world.fileState.cachedFile = some cachedFile → cachedFile = object.val

/-- A full download gives the object. -/
theorem Serves.fullDownload {world after : World} {file : Block} (caches : CachesObject object world)
    (returns : (session.fullDownload readConfig).run world = (.ok file, after)) :
    file = object.val := by
  rcases session.fullDownload_cases readConfig returns with
    ⟨cached, -⟩ | ⟨-, -, response, chunks, last, -, -, rfl⟩
  · exact caches file cached
  · rcases serves.wholeFile readConfig with ⟨served, body, servedEq, -, -, isObject⟩
    rw [last] at servedEq
    cases servedEq
    exact isObject

/-- An `ETag` that is not another than the one of all answers. -/
def ETagOf (etag : Option String) (handleEtag : String) : Prop :=
  handleEtag = "" ∨ etag = some handleEtag

omit serves in
theorem etagAgrees_of_same {etag : Option String} {handle : HTTPFileHandle} {response : HTTPResponse}
    (params : FileParams) (known : ETagOf etag handle.etag)
    (carries : response.header? "ETag" = etag) :
    etagAgrees (handle.buildReadConfig params) response = true := by
  rw [etagAgrees]
  split
  · rfl
  · rename_i checked
    rcases known with empty | same
    · rw [HTTPFileHandle.buildReadConfig, empty] at checked
      simp at checked
    · rw [carries, same]
      simp [HTTPFileHandle.buildReadConfig]

theorem Serves.fullDownload_returns {world : World} (caches : CachesObject object world)
    (agrees : ∀ response chunks, session.wholeFile readConfig = .answered response chunks →
      etagAgrees readConfig response = true) :
    ∃ after, (session.fullDownload readConfig).run world = (.ok object.val, after) := by
  cases cached : world.fileState.cachedFile with
  | some file =>
      rw [session.fullDownload_of_cached readConfig cached, caches file cached]
      exact ⟨world, rfl⟩
  | none =>
      rcases serves.wholeFile readConfig with ⟨response, chunks, last, received, status, isObject⟩
      rw [session.fullDownload_of_answered readConfig cached last received status
        (agrees response chunks last), isObject]
      exact ⟨_, rfl⟩

end Object

/-! ## Loading the information about a file -/

namespace Session

variable (session : Session) (handle : HTTPFileHandle)

theorem applyFileInfo_run (response : HTTPResponse) (world : World) :
    ∃ after, (session.applyFileInfo handle response).run world =
        (.ok (session.withFileInfo handle response), after) ∧
      after.fileState.cachedFile = world.fileState.cachedFile := by
  simp only [applyFileInfo, Action.run_bind, Action.run_ite, Action.run_modify, Action.run_pure]
  split
  · exact ⟨_, rfl, rfl⟩
  · exact ⟨_, rfl, rfl⟩

theorem loadFileInfo_of_cached {world : World} {file : Block}
    (cached : world.fileState.cachedFile = some file) :
    (session.loadFileInfo handle).run world =
      (.ok { handle with length := file.length, initialized := true }, world) := by
  simp only [loadFileInfo, Action.run_bind, Action.run_get, tryLoadFileInfoWithoutRequest, cached,
    Action.run_pure]

theorem loadFileInfo_of_known {world : World} (uncached : world.fileState.cachedFile = none)
    (known : handle.initialized = true ∨ handle.forceFullDownload = true) :
    (session.loadFileInfo handle).run world = (.ok handle, world) := by
  have either : (handle.initialized || handle.forceFullDownload) = true := by
    rwa [Bool.or_eq_true]
  simp only [loadFileInfo, Action.run_bind, Action.run_get, tryLoadFileInfoWithoutRequest, uncached,
    if_pos either, Action.run_pure]

/-- Nothing is known about the file without a request. -/
structure NotKnown (world : World) : Prop where
  uncached : world.fileState.cachedFile = none
  uninitialized : handle.initialized = false
  unforced : handle.forceFullDownload = false
  kept : handle.writeOverwriteMode = false

variable {handle}

theorem loadFileInfo_of_requested {world between : World} {requested : HTTPFileHandle}
    {response : HTTPResponse} (unknown : NotKnown handle world)
    (requests : (session.requestFileInfo handle).run world =
      (.ok (requested, some response), between)) :
    ∃ after, (session.loadFileInfo handle).run world =
        (.ok (session.withFileInfo requested response), after) ∧
      after.fileState.cachedFile = between.fileState.cachedFile := by
  rcases session.applyFileInfo_run requested response between with ⟨after, applied, same⟩
  refine ⟨after, ?_, same⟩
  simp only [loadFileInfo, Action.run_bind, Action.run_get, tryLoadFileInfoWithoutRequest,
    unknown.uncached, unknown.uninitialized, unknown.unforced, unknown.kept, Bool.or_self,
    Bool.false_eq_true, if_false, requests, applied]

theorem loadFileInfo_of_throws {world between : World} {error : ErrorData}
    (unknown : NotKnown handle world)
    (throws : (session.requestFileInfo handle).run world = (.error error, between)) :
    (session.loadFileInfo handle).run world = (.error error, between) := by
  simp only [loadFileInfo, Action.run_bind, Action.run_get, tryLoadFileInfoWithoutRequest,
    unknown.uncached, unknown.uninitialized, unknown.unforced, unknown.kept, Bool.or_self,
    Bool.false_eq_true, if_false, throws]

theorem requestFileInfo_of_ok {response : HTTPResponse}
    (answered : session.server.head session.configuredHeaders = .ok response)
    (status : response.status = 200) (world : World) :
    (session.requestFileInfo handle).run world = (.ok (handle, some response), world) := by
  simp only [requestFileInfo, Action.run_bind, Action.run_lift, answered, if_pos status,
    Action.run_pure]

theorem requestFileInfo_of_rejected {response : HTTPResponse}
    (answered : session.server.head session.configuredHeaders = .ok response)
    (notOk : response.status ≠ 200) (found : response.status ≠ 404)
    (stays : response.status ≠ 301) (reading : handle.flags.openForReading = true)
    (world : World) :
    (session.requestFileInfo handle).run world =
      match (session.retryFileInfoWithRange handle).run world with
      | (.ok (handle, response), after) => (.ok (handle, some response), after)
      | (.error error, after) => (.error error, after) := by
  have retries : handle.flags.openForReading = true ∧ response.status ≠ 404 ∧
      response.status ≠ 301 := ⟨reading, found, stays⟩
  simp only [requestFileInfo, Action.run_bind, Action.run_lift, answered, if_neg notOk,
    if_neg (show ¬ (handle.flags.openForWriting = true ∧ response.status = 404) from
      fun missing => found missing.2), if_pos retries, Action.run_pure]
  rcases (session.retryFileInfoWithRange handle).run world with ⟨reply, after⟩
  cases reply with
  | error error => rfl
  | ok retried => rfl

/-! ## Asking for two bytes -/

theorem retryFileInfoWithRange_of_declined {world : World}
    (declined : Declined (handle.buildReadConfig session.params) world) :
    ∃ response, response.headers = [] ∧ (session.retryFileInfoWithRange handle).run world =
      (.ok ({ handle with forceFullDownload := true }, response), world) := by
  refine ⟨RangeTransfer.setRangeRequestNotSupported session.util ⟨0, "", [], ""⟩, rfl, ?_⟩
  have tells : (respondedWithRangeRequestNotSupported session.util
      (RangeTransfer.setRangeRequestNotSupported session.util ⟨0, "", [], ""⟩) &&
        (handle.buildReadConfig session.params).autoFallbackToFullDownload) = true := by
    simp [respondedWithRangeRequestNotSupported, RangeTransfer.setRangeRequestNotSupported,
      HTTPResponse.hasRequestError, session.util.rangeErrorText_ne,
      session.util.parseError_rangeErrorText, declined.2]
  simp only [retryFileInfoWithRange, Action.run_bind,
    session.getRangeRequest_of_declined _ _ declined, Action.run_ite]
  rw [if_neg (by simp [RangeTransfer.setRangeRequestNotSupported]), if_pos tells]
  rfl

theorem retryFileInfoWithRange_of_answered {world after : World} {response : HTTPResponse}
    (answered : (session.getRangeRequest (handle.buildReadConfig session.params) firstTwo).run world =
      (.ok response, after))
    (status : response.status = 200 ∨ response.status = 206) :
    (session.retryFileInfoWithRange handle).run world = (.ok (handle, response), after) := by
  have good : response.status = 206 ∨ response.status = 202 ∨ response.status = 200 := by omega
  refine (Action.run_bind_of_ok answered).trans ?_
  simp only [if_pos good, Action.run_pure]

/-- An answer without a status is only taken to ask for the whole file. -/
theorem retryFileInfoWithRange_of_no_status {world after : World} {retried : HTTPFileHandle}
    {response : HTTPResponse}
    (noStatus : ∀ outcome,
      ((session.getRangeRequest (handle.buildReadConfig session.params) firstTwo).run world).1 =
        .ok outcome → outcome.status = 0)
    (returns : (session.retryFileInfoWithRange handle).run world =
      (.ok (retried, response), after)) :
    retried = { handle with forceFullDownload := true } := by
  rw [retryFileInfoWithRange, Action.run_bind_eq_ok_iff] at returns
  rcases returns with ⟨outcome, between, answered, returns⟩
  have status := noStatus outcome (congrArg Prod.fst answered)
  have bad : ¬ (outcome.status = 206 ∨ outcome.status = 202 ∨ outcome.status = 200) := by omega
  simp only [if_neg bad, Action.run_ite, Action.run_pure, Action.run_throw] at returns
  split at returns
  · cases returns
    rfl
  · cases returns

theorem retryFileInfoWithRange_cachedFile (world : World) :
    ((session.retryFileInfoWithRange handle).run world).2.fileState.cachedFile =
      world.fileState.cachedFile := by
  let uncaches := fun after : World => after.fileState.cachedFile = world.fileState.cachedFile
  have asks : ∀ state, uncaches state → uncaches ((session.getRangeRequest
      (handle.buildReadConfig session.params) firstTwo).run state).2 := fun state same =>
    (session.getRangeRequest_cachedFile _ firstTwo state).trans same
  refine Action.bind_preserves asks ?_ world rfl
  intro response state same
  simp only [Action.run_ite, Action.run_pure, Action.run_throw]
  split
  · exact same
  · split <;> exact same

section Rejected

variable {response : HTTPResponse} {world : World}

/-- Where a HEAD is rejected, the request for two bytes decides. -/
theorem loadFileInfo_of_retried
    (answered : session.server.head session.configuredHeaders = .ok response)
    (notOk : response.status ≠ 200) (found : response.status ≠ 404) (stays : response.status ≠ 301)
    (reading : handle.flags.openForReading = true) (unknown : NotKnown handle world)
    {retried : HTTPFileHandle} {outcome : HTTPResponse} {between : World}
    (retries : (session.retryFileInfoWithRange handle).run world =
      (.ok (retried, outcome), between)) :
    ∃ after, (session.loadFileInfo handle).run world =
        (.ok (session.withFileInfo retried outcome), after) ∧
      after.fileState.cachedFile = none := by
  have requests := session.requestFileInfo_of_rejected answered notOk found stays reading world
  rw [retries] at requests
  rcases session.loadFileInfo_of_requested unknown requests with ⟨after, loads, same⟩
  refine ⟨after, loads, ?_⟩
  have kept : ((session.retryFileInfoWithRange handle).run world).2.fileState.cachedFile =
      world.fileState.cachedFile := session.retryFileInfoWithRange_cachedFile world
  rw [retries] at kept
  exact same.trans (kept.trans unknown.uncached)

theorem exists_retried_of_loadFileInfo
    (answered : session.server.head session.configuredHeaders = .ok response)
    (notOk : response.status ≠ 200) (found : response.status ≠ 404) (stays : response.status ≠ 301)
    (reading : handle.flags.openForReading = true) (unknown : NotKnown handle world)
    {loaded : HTTPFileHandle} {after : World}
    (returns : (session.loadFileInfo handle).run world = (.ok loaded, after)) :
    ∃ retried outcome between, (session.retryFileInfoWithRange handle).run world =
        (.ok (retried, outcome), between) ∧
      loaded = session.withFileInfo retried outcome ∧ after.fileState.cachedFile = none := by
  cases retriesEq : (session.retryFileInfoWithRange handle).run world with
  | mk reply between =>
      cases reply with
      | error error =>
          have requests :=
            session.requestFileInfo_of_rejected answered notOk found stays reading world
          rw [retriesEq] at requests
          rw [session.loadFileInfo_of_throws unknown requests] at returns
          cases returns
      | ok retried =>
          rcases session.loadFileInfo_of_retried answered notOk found stays reading unknown
            retriesEq with ⟨other, loads, uncached⟩
          rw [loads] at returns
          cases returns
          exact ⟨retried.1, retried.2, between, rfl, rfl, uncached⟩

end Rejected

end Session

/-! ## What is known after loading -/

/-- The size was taken from two bytes that came without a total. -/
structure Untold (object : Object) (session : Session) (handle : HTTPFileHandle) (world : World) :
    Prop where
  unknown : Session.NotKnown handle world
  rejected : ∀ response, session.server.head session.configuredHeaders = .ok response →
    response.status ≠ 200
  asked : ¬ Session.Declined (handle.buildReadConfig session.params) world
  untold : ∀ response chunks, session.lastAttempt (handle.buildReadConfig session.params) firstTwo =
    .answered response chunks → response.status = 206 ∧ TellsNoTotal response ∧
      etagAgrees (handle.buildReadConfig session.params) response = true
  longer : 2 < object.size
  noThreshold : session.params.forceDownloadThreshold ≤ 2

/-- The size is right, or will be taken from a full download. -/
def Accounted (object : Object) (session : Session) (handle : HTTPFileHandle) : Prop :=
  handle.length = object.size ∨ session.shouldFullDownload handle = true

theorem accounted_of_forced {object : Object} {session : Session} {handle : HTTPFileHandle}
    (forced : handle.forceFullDownload = true) : Accounted object session handle :=
  .inr (by rw [Session.shouldFullDownload, forced, Bool.or_true])

theorem accounted_of_size_or_zero {object : Object} {session : Session} {handle : HTTPFileHandle}
    (told : handle.length = object.size ∨ handle.length = 0) : Accounted object session handle := by
  rcases told with size | zero
  · exact .inl size
  · exact .inr (by simp [Session.shouldFullDownload, zero])

section Loading

variable {object : Object} {session : Session} {handle : HTTPFileHandle} {world : World}

/-- Two bytes account for the size with a total, and also without one if there are no
more or the threshold is higher. -/
theorem accounted_of_probe {response : HTTPResponse} {body : Block}
    (answers : AnswersProbe object response body)
    (enough : response.status = 206 → TellsNoTotal response →
      object.size ≤ 2 ∨ 2 < session.params.forceDownloadThreshold)
    (length : handle.length = toldSize response) : Accounted object session handle := by
  cases answers with
  | whole _ _ told noRange =>
      rcases Object.toldSize_of_lengthOrNone told noRange with size | zero
      · exact .inl (length.trans size)
      · exact accounted_of_size_or_zero (.inr (length.trans zero))
  | twoBytes status _ header total =>
      rcases total with total | noTotal
      · exact .inl (by rw [length, Object.toldSize_of_total total])
      · rw [Object.toldSize_of_no_total noTotal header] at length
        rcases enough status noTotal with short | high
        · exact .inl (by omega)
        · by_cases zero : handle.length = 0
          · exact accounted_of_size_or_zero (.inr zero)
          · refine .inr ?_
            have below : handle.length < session.params.forceDownloadThreshold := by omega
            simp [Session.shouldFullDownload, below, zero]

theorem CachesObject.of_none {after : World} (uncached : after.fileState.cachedFile = none) :
    CachesObject object after := by
  intro file cached
  rw [uncached] at cached
  cases cached

theorem Serves.loadFileInfo_accounted (serves : Serves object session)
    (reading : handle.flags.openForReading = true) (keeps : handle.writeOverwriteMode = false)
    (known : handle.initialized = true → handle.length = object.size)
    (caches : CachesObject object world) (told : ¬ Untold object session handle world)
    {loaded : HTTPFileHandle} {between : World}
    (returns : (session.loadFileInfo handle).run world = (.ok loaded, between)) :
    loaded.flags = handle.flags ∧ CachesObject object between ∧ Accounted object session loaded := by
  cases cached : world.fileState.cachedFile with
  | some file =>
      rw [session.loadFileInfo_of_cached handle cached] at returns
      cases returns
      exact ⟨rfl, caches, .inl (congrArg List.length (caches file cached))⟩
  | none =>
      by_cases already : handle.initialized = true ∨ handle.forceFullDownload = true
      · rw [session.loadFileInfo_of_known handle cached already] at returns
        cases returns
        refine ⟨rfl, caches, ?_⟩
        rcases already with initialized | forced
        · exact .inl (known initialized)
        · exact accounted_of_forced forced
      · rw [not_or, Bool.not_eq_true, Bool.not_eq_true] at already
        have unknown : Session.NotKnown handle world := ⟨cached, already.1, already.2, keeps⟩
        rcases serves.head with ⟨response, answered, ⟨status, lengths, noRange⟩ |
          ⟨notOk, found, stays⟩⟩
        · rcases session.loadFileInfo_of_requested unknown
            (session.requestFileInfo_of_ok answered status world) with ⟨after, loads, same⟩
          rw [loads] at returns
          cases returns
          exact ⟨rfl, .of_none (same.trans cached),
            accounted_of_size_or_zero (Object.toldSize_of_lengthOrNone lengths noRange)⟩
        · rcases session.exists_retried_of_loadFileInfo answered notOk found stays reading unknown
            returns with ⟨retried, outcome, after, retries, rfl, uncached⟩
          by_cases declined : Session.Declined (handle.buildReadConfig session.params) world
          · rcases session.retryFileInfoWithRange_of_declined declined with ⟨_, -, forces⟩
            rw [forces] at retries
            cases retries
            exact ⟨rfl, .of_none uncached, accounted_of_forced rfl⟩
          · rcases serves.firstTwo (handle.buildReadConfig session.params) with
              ⟨probed, chunks, last, received, answers⟩
            have probe := session.getRangeRequest_of_no_buffer _ rfl declined last received
              answers.status
            cases agrees : etagAgrees (handle.buildReadConfig session.params) probed with
            | false =>
                rw [agrees, if_neg Bool.false_ne_true] at probe
                cases session.retryFileInfoWithRange_of_no_status probe retries
                exact ⟨rfl, .of_none uncached, accounted_of_forced rfl⟩
            | true =>
                rw [agrees, if_pos rfl] at probe
                rcases probe with ⟨same, replyEq, statusEq, headersEq⟩
                have answersSame : same.status = 200 ∨ same.status = 206 := by
                  rw [statusEq]
                  exact answers.status
                rw [session.retryFileInfoWithRange_of_answered (Prod.ext replyEq rfl) answersSame]
                  at retries
                cases retries
                refine ⟨rfl, .of_none uncached, accounted_of_probe answers ?_
                  (toldSize_congr headersEq)⟩
                intro status noTotal
                by_contra neither
                rw [not_or] at neither
                refine told ⟨unknown, ?_, declined, ?_, by omega, by omega⟩
                · intro other otherEq
                  rw [answered] at otherEq
                  cases otherEq
                  exact notOk
                · intro other otherChunks otherLast
                  rw [last] at otherLast
                  cases otherLast
                  exact ⟨status, noTotal, agrees⟩

/-- In the one case that is not accounted for, the size is two. -/
theorem Serves.loadFileInfo_of_untold (serves : Serves object session)
    (reading : handle.flags.openForReading = true)
    (untold : Untold object session handle world) :
    ∃ loaded after, (session.loadFileInfo handle).run world = (.ok loaded, after) ∧
      loaded.flags = handle.flags ∧ loaded.length = 2 ∧ loaded.forceFullDownload = false := by
  rcases serves.head with ⟨response, answered, ⟨status, -, -⟩ | ⟨notOk, found, stays⟩⟩
  · exact absurd status (untold.rejected response answered)
  · rcases serves.firstTwo (handle.buildReadConfig session.params) with
      ⟨probed, chunks, last, received, answers⟩
    rcases untold.untold probed chunks last with ⟨status, noTotal, agrees⟩
    have probe := session.getRangeRequest_of_no_buffer _ rfl untold.asked last received
      answers.status
    rw [agrees, if_pos rfl] at probe
    rcases probe with ⟨same, replyEq, statusEq, headersEq⟩
    have retries := session.retryFileInfoWithRange_of_answered (Prod.ext replyEq rfl)
      (.inr (statusEq.trans status))
    rcases session.loadFileInfo_of_retried answered notOk found stays reading untold.unknown
      retries with ⟨after, loads, -⟩
    refine ⟨_, after, loads, rfl, ?_, untold.unknown.unforced⟩
    change toldSize same = 2
    rw [toldSize_congr headersEq]
    cases answers with
    | whole isWhole =>
        rw [status] at isWhole
        contradiction
    | twoBytes _ _ header =>
        rw [Object.toldSize_of_no_total noTotal header]
        exact Nat.min_eq_left untold.longer.le

/-- All answers carry the same `ETag`, and the first two bytes come with the size. -/
structure ToldCorrectly (object : Object) (session : Session) (etag : Option String) : Prop where
  head : ∀ response, session.server.head session.configuredHeaders = .ok response →
    response.header? "ETag" = etag
  probe : ∀ headers, HTTPHeaders.get? headers "Range" = some "bytes=0-1" → ∀ response chunks,
    (session.server.get headers).last = .answered response chunks →
      response.status = 206 ∧ TellsTotal object response ∧ response.header? "ETag" = etag
  whole : ∀ headers, HTTPHeaders.get? headers "Range" = none → ∀ response chunks,
    (session.server.get headers).last = .answered response chunks →
      response.header? "ETag" = etag

theorem ETagOf.withFileInfo {etag : Option String} (known : ETagOf etag handle.etag)
    {response : HTTPResponse}
    (carries : response.header? "ETag" = etag ∨ response.header? "ETag" = none) :
    ETagOf etag (session.withFileInfo handle response).etag := by
  change ETagOf etag ((response.header? "ETag").getD handle.etag)
  rcases carries with carries | absent
  · rw [carries]
    cases etag with
    | none => exact known
    | some value => exact .inr rfl
  · rw [absent]
    exact known

theorem Serves.loadFileInfo_returns (serves : Serves object session)
    (reading : handle.flags.openForReading = true) (keeps : handle.writeOverwriteMode = false)
    {etag : Option String} (told : ToldCorrectly object session etag)
    (known : ETagOf etag handle.etag) :
    ∃ loaded after, (session.loadFileInfo handle).run world = (.ok loaded, after) ∧
      loaded.flags = handle.flags ∧ ETagOf etag loaded.etag := by
  cases cached : world.fileState.cachedFile with
  | some file => exact ⟨_, _, session.loadFileInfo_of_cached handle cached, rfl, known⟩
  | none =>
      by_cases already : handle.initialized = true ∨ handle.forceFullDownload = true
      · exact ⟨_, _, session.loadFileInfo_of_known handle cached already, rfl, known⟩
      · rw [not_or, Bool.not_eq_true, Bool.not_eq_true] at already
        have unknown : Session.NotKnown handle world := ⟨cached, already.1, already.2, keeps⟩
        rcases serves.head with ⟨response, answered, ⟨status, -, -⟩ | ⟨notOk, found, stays⟩⟩
        · rcases session.loadFileInfo_of_requested unknown
            (session.requestFileInfo_of_ok answered status world) with ⟨after, loads, -⟩
          exact ⟨_, after, loads, rfl, known.withFileInfo (.inl (told.head response answered))⟩
        · by_cases declined : Session.Declined (handle.buildReadConfig session.params) world
          · rcases session.retryFileInfoWithRange_of_declined declined with
              ⟨outcome, headers, forces⟩
            rcases session.loadFileInfo_of_retried answered notOk found stays reading unknown
              forces with ⟨after, loads, -⟩
            have absent : outcome.header? "ETag" = none := by
              rw [HTTPResponse.header?, headers]
              rfl
            have knownForced :
                ETagOf etag ({ handle with forceFullDownload := true } : HTTPFileHandle).etag := known
            exact ⟨_, after, loads, rfl, knownForced.withFileInfo (.inr absent)⟩
          · rcases serves.firstTwo (handle.buildReadConfig session.params) with
              ⟨probed, chunks, last, received, answers⟩
            rcases told.probe _ (range_firstTwo (handle.buildReadConfig session.params)) probed chunks
              last with ⟨status, -, carries⟩
            have probe := session.getRangeRequest_of_no_buffer _ rfl declined last received
              answers.status
            rw [etagAgrees_of_same session.params known carries, if_pos rfl] at probe
            rcases probe with ⟨outcome, replyEq, statusEq, headersEq⟩
            have retries := session.retryFileInfoWithRange_of_answered (Prod.ext replyEq rfl)
              (.inr (statusEq.trans status))
            rcases session.loadFileInfo_of_retried answered notOk found stays reading unknown
              retries with ⟨after, loads, -⟩
            have carriesSame : outcome.header? "ETag" = etag := by
              rw [HTTPResponse.header?, headersEq]
              exact carries
            exact ⟨_, after, loads, rfl, known.withFileInfo (.inl carriesSame)⟩

end Loading

/-! ## Opening -/

namespace Session

variable (session : Session) {handle : HTTPFileHandle} {world : World}

/-- The handle after a full download. -/
def downloaded (handle : HTTPFileHandle) (world : World) : Except ErrorData HTTPFileHandle :=
  ((session.fullDownload (handle.buildReadConfig session.params)).run world).1.map fun file =>
    { handle.finalizeReadConfig session.params with length := file.length }

theorem initializeHandle_of_forced (reading : handle.flags.openForReading = true)
    (forced : session.params.forceDownload = true) :
    ((session.initializeHandle handle).run world).1 = session.downloaded handle world := by
  rw [downloaded]
  cases downloads :
      (session.fullDownload (handle.buildReadConfig session.params)).run world with
  | mk reply after =>
      cases reply with
      | error error =>
          simp only [initializeHandle, tryInitializeRead, reading, forced, Bool.not_true,
            Bool.false_eq_true, if_false, if_true, Action.run_bind,
            HTTPFileHandle.finalizeReadConfig_readConfig, downloads]
          rfl
      | ok file =>
          simp only [initializeHandle, tryInitializeRead, reading, forced, Bool.not_true,
            Bool.false_eq_true, if_false, if_true, Action.run_bind, Action.run_pure,
            HTTPFileHandle.finalizeReadConfig_readConfig, downloads]
          rfl

theorem initializeHandle_of_entry (reading : handle.flags.openForReading = true)
    (unforced : session.params.forceDownload = false) {entry : HTTPMetadataCacheEntry}
    (found : world.metadataCache = some (some entry)) :
    ((session.initializeHandle handle).run world).1 =
      .ok ((handle.initializeFromCacheEntry entry).finalizeReadConfig session.params) := by
  simp only [initializeHandle, tryInitializeRead, reading, unforced, Bool.not_true,
    Bool.false_eq_true, if_false, Action.run_bind, Action.run_get, found, Action.run_pure]

theorem initializeHandle_of_unknown (reading : handle.flags.openForReading = true)
    (unforced : session.params.forceDownload = false)
    (missing : ∀ entry, world.metadataCache ≠ some (some entry)) :
    ((session.initializeHandle handle).run world).1 =
      ((session.initializeFileInfo handle world.metadataCache.isSome).run world).1 := by
  have unknown : (session.tryInitializeRead handle).run world =
      (.ok (none, world.metadataCache.isSome), world) := by
    simp only [tryInitializeRead, reading, unforced, Bool.not_true, Bool.false_eq_true, if_false,
      Action.run_bind, Action.run_get]
    cases cache : world.metadataCache with
    | none => rfl
    | some found =>
        cases found with
        | none => rfl
        | some entry => exact absurd cache (missing entry)
  rw [initializeHandle, Action.run_bind_of_ok unknown]
  cases loads : (session.initializeFileInfo handle world.metadataCache.isSome).run world with
  | mk reply after =>
      cases reply with
      | error error => rw [Action.run_bind_of_error loads]
      | ok loaded =>
          rw [Action.run_bind_of_ok loads]
          simp only [Action.run_ite, Action.run_bind, Action.run_modify, Action.run_pure]
          split <;> rfl

theorem initializeFileInfo_run (shouldWriteCache : Bool) {loaded : HTTPFileHandle} {between : World}
    (loads : (session.loadFileInfo handle).run world = (.ok loaded, between))
    (reading : loaded.flags.openForReading = true) :
    ((session.initializeFileInfo handle shouldWriteCache).run world).1 =
      if session.shouldFullDownload loaded then session.downloaded loaded between
      else .ok (loaded.finalizeReadConfig session.params) := by
  have readingStill :
      (!(loaded.finalizeReadConfig session.params).flags.openForReading) = false := by
    change (!loaded.flags.openForReading) = false
    rw [reading]
    rfl
  have sameDecision : session.shouldFullDownload (loaded.finalizeReadConfig session.params) =
      session.shouldFullDownload loaded := rfl
  rw [initializeFileInfo, Action.run_bind_of_ok loads]
  simp only [readingStill, Bool.false_eq_true, if_false, sameDecision, Action.run_ite,
    Action.run_bind, HTTPFileHandle.finalizeReadConfig_readConfig, Action.run_modify,
    Action.run_pure]
  split
  · rw [downloaded]
    rcases (session.fullDownload (loaded.buildReadConfig session.params)).run between with
      ⟨reply, after⟩
    cases reply with
    | error error => rfl
    | ok file => rfl
  · split <;> rfl

end Session

/-! ## The size of an opened file -/

/-- The size is taken from the answer to the request for two bytes, which does not tell
it. -/
structure Unmeasured (object : Object) (session : Session) (handle : HTTPFileHandle)
    (world : World) : Prop where
  unforced : session.params.forceDownload = false
  missing : ∀ entry, world.metadataCache ≠ some (some entry)
  untold : Untold object session handle world

section Opening

variable {object : Object} {session : Session} {handle : HTTPFileHandle} {world : World}

theorem Serves.downloaded_length (serves : Serves object session)
    (caches : CachesObject object world) {opened : HTTPFileHandle}
    (returns : session.downloaded handle world = .ok opened) : opened.length = object.size := by
  rw [Session.downloaded] at returns
  cases downloads :
      (session.fullDownload (handle.buildReadConfig session.params)).run world with
  | mk reply after =>
      rw [downloads] at returns
      cases reply with
      | error error => cases returns
      | ok file =>
          cases returns
          exact congrArg List.length (serves.fullDownload _ caches downloads)

theorem Serves.downloaded_returns (serves : Serves object session)
    (caches : CachesObject object world) {etag : Option String}
    (told : ToldCorrectly object session etag) (known : ETagOf etag handle.etag) :
    ∃ opened, session.downloaded handle world = .ok opened := by
  rcases serves.fullDownload_returns (handle.buildReadConfig session.params) caches
      (fun response chunks last => etagAgrees_of_same session.params known
        (told.whole _ (range_prepareFullGetHeaders _ _) response chunks last)) with
    ⟨after, downloads⟩
  rw [Session.downloaded, downloads]
  exact ⟨_, rfl⟩

/-- What comes with the name of a file tells its size or not. -/
theorem create_length {flags : FileOpenFlags} {info : Option ExtendedFileInfo}
    (infoTrue : ∀ given, info = some given → ∀ size, given.fileSize = some size →
      size = object.size)
    (initialized : (HTTPFileHandle.create flags info).initialized = true) :
    (HTTPFileHandle.create flags info).length = object.size := by
  cases info with
  | none => cases initialized
  | some given =>
      simp only [HTTPFileHandle.create, Bool.and_eq_true, Option.isSome_iff_exists] at initialized
      rcases initialized with ⟨-, size, fileSize⟩
      simp only [HTTPFileHandle.create, fileSize, Option.getD_some]
      exact infoTrue given rfl size fileSize

theorem create_flags (flags : FileOpenFlags) (info : Option ExtendedFileInfo) :
    (HTTPFileHandle.create flags info).flags = flags ∧
      (HTTPFileHandle.create flags info).writeOverwriteMode = false := by
  cases info with
  | none => exact ⟨rfl, rfl⟩
  | some given => exact ⟨rfl, rfl⟩

theorem not_untold_of_told (serves : Serves object session) {etag : Option String}
    (told : ToldCorrectly object session etag) : ¬ Untold object session handle world := by
  intro untold
  rcases serves.firstTwo (handle.buildReadConfig session.params) with ⟨probed, chunks, last, -, -⟩
  have total := Object.tryParseContentRange_of_total
    (told.probe _ (range_firstTwo _) probed chunks last).2.1
  have noTotal := (untold.untold probed chunks last).2.1
  rw [Object.tryParseContentRange_of_no_total noTotal] at total
  cases total

theorem Serves.initializeHandle_length (serves : Serves object session)
    (reading : handle.flags.openForReading = true) (keeps : handle.writeOverwriteMode = false)
    (known : handle.initialized = true → handle.length = object.size)
    (caches : CachesObject object world)
    (metadataTrue : ∀ entry, world.metadataCache = some (some entry) → entry.length = object.size)
    (measured : ¬ Unmeasured object session handle world) {opened : HTTPFileHandle} {after : World}
    (returns : (session.initializeHandle handle).run world = (.ok opened, after)) :
    opened.length = object.size := by
  have replies := congrArg Prod.fst returns
  cases forced : session.params.forceDownload with
  | true =>
      rw [session.initializeHandle_of_forced reading forced] at replies
      exact serves.downloaded_length caches replies
  | false =>
      by_cases found : ∃ entry, world.metadataCache = some (some entry)
      · rcases found with ⟨entry, found⟩
        rw [session.initializeHandle_of_entry reading forced found] at replies
        cases replies
        exact metadataTrue entry found
      · have missing := not_exists.mp found
        have told : ¬ Untold object session handle world :=
          fun untold => measured ⟨forced, missing, untold⟩
        rw [session.initializeHandle_of_unknown reading forced missing] at replies
        cases loads : (session.loadFileInfo handle).run world with
        | mk reply between =>
            cases reply with
            | error error =>
                rw [Session.initializeFileInfo, Action.run_bind_of_error loads] at replies
                cases replies
            | ok loaded =>
                rcases serves.loadFileInfo_accounted reading keeps known caches told loads with
                  ⟨flagsEq, cachesStill, accounted⟩
                rw [session.initializeFileInfo_run _ loads (by rw [flagsEq]; exact reading)]
                  at replies
                split at replies
                · exact serves.downloaded_length cachesStill replies
                · rename_i notDownloaded
                  cases replies
                  exact accounted.resolve_right notDownloaded

theorem Serves.initializeHandle_returns (serves : Serves object session)
    (reading : handle.flags.openForReading = true) (keeps : handle.writeOverwriteMode = false)
    (known : handle.initialized = true → handle.length = object.size)
    (caches : CachesObject object world) {etag : Option String}
    (told : ToldCorrectly object session etag) (knownEtag : ETagOf etag handle.etag) :
    ∃ opened after, (session.initializeHandle handle).run world = (.ok opened, after) := by
  suffices replies : ∃ opened, ((session.initializeHandle handle).run world).1 = .ok opened by
    rcases replies with ⟨opened, replies⟩
    exact ⟨opened, _, Prod.ext replies rfl⟩
  cases forced : session.params.forceDownload with
  | true =>
      rw [session.initializeHandle_of_forced reading forced]
      exact serves.downloaded_returns caches told knownEtag
  | false =>
      by_cases found : ∃ entry, world.metadataCache = some (some entry)
      · rcases found with ⟨entry, found⟩
        exact ⟨_, session.initializeHandle_of_entry reading forced found⟩
      · have missing := not_exists.mp found
        rcases serves.loadFileInfo_returns reading keeps told knownEtag with
          ⟨loaded, between, loads, flagsEq, loadedEtag⟩
        rcases serves.loadFileInfo_accounted reading keeps known caches
          (not_untold_of_told serves told) loads with ⟨-, cachesStill, -⟩
        rw [session.initializeHandle_of_unknown reading forced missing,
          session.initializeFileInfo_run _ loads (by rw [flagsEq]; exact reading)]
        split
        · exact serves.downloaded_returns cachesStill told loadedEtag
        · exact ⟨_, rfl⟩

theorem Serves.initializeHandle_of_unmeasured (serves : Serves object session)
    (reading : handle.flags.openForReading = true)
    (unmeasured : Unmeasured object session handle world) :
    ∃ opened after, (session.initializeHandle handle).run world = (.ok opened, after) ∧
      opened.length = 2 := by
  rcases serves.loadFileInfo_of_untold reading unmeasured.untold with
    ⟨loaded, between, loads, flagsEq, length, unforced⟩
  have kept : session.shouldFullDownload loaded = false := by
    have high : ¬ 2 < session.params.forceDownloadThreshold :=
      Nat.not_lt.mpr unmeasured.untold.noThreshold
    simp [Session.shouldFullDownload, length, unforced, high]
  have replies := session.initializeHandle_of_unknown reading unmeasured.unforced unmeasured.missing
  rw [session.initializeFileInfo_run _ loads (by rw [flagsEq]; exact reading), kept,
    if_neg Bool.false_ne_true] at replies
  exact ⟨_, _, Prod.ext replies rfl, length⟩

end Opening

private def threeBytes : Object :=
  ⟨[1, 2, 3], by decide⟩

/-- A server of three bytes, with its answer to a HEAD and the headers of its answer to
the request for two bytes. -/
private def threeBytesSession (head : HTTPResponse) (headers : List (String × String)) : Session where
  util := .plain
  server :=
    { head := fun _ => .ok head
      get := fun request =>
        if HTTPHeaders.get? request "Range" = none then
          ⟨[], .answered ⟨200, "", [], ""⟩ [[1, 2, 3]]⟩
        else ⟨[], .answered ⟨206, "", headers, ""⟩ [[1, 2]]⟩ }
  path := "http://host/file"
  params := {}
  configuredHeaders := []

private theorem threeBytesSession_get (head : HTTPResponse) (headers : List (String × String))
    {request : HTTPHeaders} (range : request.get? "Range" = some "bytes=0-1") :
    ((threeBytesSession head headers).server.get request).last =
      .answered ⟨206, "", headers, ""⟩ [[1, 2]] := by
  simp only [threeBytesSession, range, reduceCtorEq, if_false]

private theorem threeBytesSession_serves {head : HTTPResponse} {headers : List (String × String)}
    (answersHead : AnswersHead threeBytes head)
    (answersProbe : AnswersProbe threeBytes ⟨206, "", headers, ""⟩ [1, 2]) :
    Serves threeBytes (threeBytesSession head headers) where
  head := ⟨head, rfl, answersHead⟩
  probe request range :=
    ⟨⟨206, "", headers, ""⟩, [[1, 2]], threeBytesSession_get head headers range, rfl, answersProbe⟩
  whole request noRange := by
    refine ⟨⟨200, "", [], ""⟩, [[1, 2, 3]], ?_, rfl, rfl, rfl⟩
    simp only [threeBytesSession, noRange, if_true]

/-- A HEAD that tells the size. -/
private def toldHead : HTTPResponse :=
  ⟨200, "", [("Content-Length", "3")], ""⟩

private theorem twoBytes_answersProbe :
    AnswersProbe threeBytes ⟨206, "", [("Content-Length", "2")], ""⟩ [1, 2] :=
  .twoBytes rfl rfl (by decide +kernel) (.inr (.inl (by decide +kernel)))

end Httpfs.Http.File
