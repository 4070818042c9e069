import Httpfs.Http.File.Requests

/-!
# What a request for a range writes

The pieces of a body go into the buffer one behind the other; a piece that does not
fit is refused.  A request that counts as answered filled the buffer with the body of
its last attempt.
-/

namespace Httpfs.Http.File

open FullDownload RangeRequest Word64

/-! ## Memory outside the buffer -/

/-- The two memories differ in the buffer only. -/
structure Framed (buffer length : Nat) (before after : Block) : Prop where
  size : after.length = before.length
  outside : ∀ index, index < buffer ∨ buffer + length ≤ index → after[index]? = before[index]?

namespace Framed

variable {buffer length : Nat} {before between after : Block}

theorem refl (memory : Block) : Framed buffer length memory memory :=
  ⟨rfl, fun _ _ => rfl⟩

theorem trans (first : Framed buffer length before between)
    (second : Framed buffer length between after) : Framed buffer length before after where
  size := second.size.trans first.size
  outside index isOutside := (second.outside index isOutside).trans (first.outside index isOutside)

theorem memcpy {offset : Nat} {source : Block} (starts : buffer ≤ offset)
    (ends : offset + source.length ≤ buffer + length) (within : buffer + length ≤ before.length) :
    Framed buffer length before (FullDownload.memcpy before offset source) where
  size := length_memcpy (by omega)
  outside index isOutside := getElem?_memcpy_outside (by omega) (by omega)

end Framed

/-! ## Pieces in a buffer -/

namespace RangeTransfer

variable {range : Range} {buffer : Nat} (isBuffer : range.bufferOut = some buffer)

/-- The buffer begins with some bytes, and the next piece goes behind them. -/
structure Holds (buffer : Nat) (bytes : Block) (transfer : RangeTransfer) : Prop where
  outOffset : transfer.outOffset = bytes.length
  stored : ∀ index, index < bytes.length →
    transfer.world.memory[buffer + index]? = bytes[index]?

include isBuffer

/-- A piece that fits is stored behind the others. -/
theorem handleContent_of_fits (chunk : Block) {bytes : Block} {transfer : RangeTransfer}
    (holds : Holds buffer bytes transfer)
    (fits : bytes.length + chunk.length ≤ range.bufferOutLen)
    (within : buffer + range.bufferOutLen ≤ transfer.world.memory.length) :
    ∃ after, (handleContent range chunk).run transfer = (.ok true, after) ∧
      Holds buffer (bytes ++ chunk) after ∧
      after.rangeRequestNotSupported = transfer.rangeRequestNotSupported := by
  have room : ¬ (range.bufferOutLen < transfer.outOffset ∨
      range.bufferOutLen - transfer.outOffset < chunk.length) := by
    rw [holds.outOffset]
    omega
  simp only [handleContent, isBuffer, Action.run_bind, Action.run_get, if_neg room, Action.run_set,
    Action.run_pure]
  refine ⟨_, rfl, ⟨?_, ?_⟩, rfl⟩
  · simp only [holds.outOffset, List.length_append]
  · intro index inside
    rw [List.length_append] at inside
    dsimp only
    rw [holds.outOffset]
    by_cases old : index < bytes.length
    · rw [getElem?_memcpy_outside (by omega) (.inl (by omega)), holds.stored index old,
        List.getElem?_append_left old]
    · have position : buffer + index = buffer + bytes.length + (index - bytes.length) := by omega
      rw [position, getElem?_memcpy_inside (by omega) (by omega),
        List.getElem?_append_right (by omega)]

/-- A piece that does not fit is refused. -/
theorem handleContent_of_overflows (chunk : Block) {bytes : Block} {transfer : RangeTransfer}
    (holds : Holds buffer bytes transfer)
    (overflows : range.bufferOutLen < bytes.length + chunk.length) :
    ∃ error, (handleContent range chunk).run transfer = (.error error, transfer) := by
  have tooMuch : range.bufferOutLen < transfer.outOffset ∨
      range.bufferOutLen - transfer.outOffset < chunk.length := by
    rw [holds.outOffset]
    omega
  simp only [handleContent, isBuffer, Action.run_bind, Action.run_get, if_pos tooMuch,
    Action.run_throw]
  exact ⟨_, rfl⟩

/-- Whatever is delivered, nothing outside the buffer changes. -/
theorem handleContent_framed {memory : Block} (within : buffer + range.bufferOutLen ≤ memory.length)
    (chunk : Block) (transfer : RangeTransfer)
    (framed : Framed buffer range.bufferOutLen memory transfer.world.memory) :
    Framed buffer range.bufferOutLen memory
      ((handleContent range chunk).run transfer).2.world.memory := by
  simp only [handleContent, isBuffer, Action.run_bind, Action.run_get, Action.run_ite,
    Action.run_throw, Action.run_set, Action.run_pure]
  split
  · exact framed
  · have size := framed.size
    exact framed.trans (.memcpy (by omega) (by omega) (by omega))

omit isBuffer in
theorem handleResponse_framed {memory : Block} (util : HTTPUtil) (path : String)
    (readConfig : HTTPReadConfig) (response : HTTPResponse) (transfer : RangeTransfer)
    (framed : Framed buffer range.bufferOutLen memory transfer.world.memory) :
    Framed buffer range.bufferOutLen memory
      ((handleResponse util path readConfig range response).run transfer).2.world.memory := by
  have outcome := handled util path readConfig range response transfer
  generalize (handleResponse util path readConfig range response).run transfer = result at *
  cases outcome with
  | refused | violated | redirected | otherVersion | otherLength => exact framed
  | begins after _ _ _ _ _ same => rwa [same]

/-- All pieces are stored if they fit. -/
theorem deliver_of_fits (util : HTTPUtil) (path : String) (headerMap : HTTPHeaders)
    (readConfig : HTTPReadConfig) (chunks : List Block) {bytes : Block} {transfer : RangeTransfer}
    (holds : Holds buffer bytes transfer)
    (fits : bytes.length + chunks.flatten.length ≤ range.bufferOutLen)
    (within : buffer + range.bufferOutLen ≤ transfer.world.memory.length) :
    ∃ after, ((rangeGetRequest util path headerMap readConfig range).deliver chunks).run transfer =
        (.ok true, after) ∧ Holds buffer (bytes ++ chunks.flatten) after ∧
      after.rangeRequestNotSupported = transfer.rangeRequestNotSupported := by
  induction chunks generalizing bytes transfer with
  | nil =>
      refine ⟨transfer, rfl, ?_, rfl⟩
      rwa [List.flatten_nil, List.append_nil]
  | cons chunk rest inductionHypothesis =>
      rw [List.flatten_cons, List.length_append] at fits
      rcases handleContent_of_fits isBuffer chunk holds (by omega) within with
        ⟨between, takes, holdsMore, sameFlag⟩
      have framed := handleContent_framed isBuffer within chunk transfer (.refl _)
      rw [takes] at framed
      have withinStill : buffer + range.bufferOutLen ≤ between.world.memory.length := by
        rw [framed.size]
        exact within
      rcases inductionHypothesis holdsMore (by rw [List.length_append]; omega) withinStill with
        ⟨after, delivers, holdsAll, sameFlag'⟩
      refine ⟨after, ?_, ?_, sameFlag'.trans sameFlag⟩
      · rw [GetRequestInfo.deliver]
        exact (Action.run_bind_of_ok takes).trans delivers
      · rwa [List.flatten_cons, ← List.append_assoc]

/-- Pieces that do not fit end the attempt. -/
theorem deliver_of_overflows (util : HTTPUtil) (path : String) (headerMap : HTTPHeaders)
    (readConfig : HTTPReadConfig) (chunks : List Block) {bytes : Block} {transfer : RangeTransfer}
    (holds : Holds buffer bytes transfer) (fitsSoFar : bytes.length ≤ range.bufferOutLen)
    (overflows : range.bufferOutLen < bytes.length + chunks.flatten.length)
    (within : buffer + range.bufferOutLen ≤ transfer.world.memory.length) :
    ∃ error after, ((rangeGetRequest util path headerMap readConfig range).deliver chunks).run
      transfer = (.error error, after) := by
  induction chunks generalizing bytes transfer with
  | nil =>
      rw [List.flatten_nil, List.length_nil] at overflows
      omega
  | cons chunk rest inductionHypothesis =>
      rw [List.flatten_cons, List.length_append] at overflows
      by_cases fits : bytes.length + chunk.length ≤ range.bufferOutLen
      · rcases handleContent_of_fits isBuffer chunk holds fits within with
          ⟨between, takes, holdsMore, -⟩
        have framed := handleContent_framed isBuffer within chunk transfer (.refl _)
        rw [takes] at framed
        have withinStill : buffer + range.bufferOutLen ≤ between.world.memory.length := by
          rw [framed.size]
          exact within
        rcases inductionHypothesis holdsMore (by rw [List.length_append]; exact fits)
          (by rw [List.length_append]; omega) withinStill with ⟨error, after, throws⟩
        refine ⟨error, after, ?_⟩
        rw [GetRequestInfo.deliver]
        exact (Action.run_bind_of_ok takes).trans throws
      · rcases handleContent_of_overflows isBuffer chunk holds (by omega) with ⟨error, throws⟩
        exact ⟨error, transfer, Action.run_bind_of_error throws⟩

end RangeTransfer

/-! ## Refused lengths -/

/-- An attempt that is stopped because of its length header. -/
def RefusedForLength (readConfig : HTTPReadConfig) (bufferOutLen : Nat) : Attempt → Prop
  | .unanswered _ => False
  | .answered response _ => response.status < 300 ∧ etagAgrees readConfig response = true ∧
      ¬ RangeTransfer.LengthPasses bufferOutLen response

namespace RangeTransfer

variable (util : HTTPUtil) (path : String) (headerMap : HTTPHeaders) (readConfig : HTTPReadConfig)
  (range : Range)

theorem handleContent_flag {flag : Bool} (chunk : Block) (transfer : RangeTransfer)
    (same : transfer.rangeRequestNotSupported = flag) :
    ((handleContent range chunk).run transfer).2.rangeRequestNotSupported = flag := by
  unfold handleContent
  cases range.bufferOut with
  | none => exact same
  | some bufferOut =>
      simp only [Action.run_bind, Action.run_get, Action.run_ite, Action.run_throw]
      split <;> exact same

theorem attempt_flag (attempt : Attempt) (transfer : RangeTransfer) :
    (((rangeGetRequest util path headerMap readConfig range).attempt attempt).run
        transfer).2.rangeRequestNotSupported = true ↔
      transfer.rangeRequestNotSupported = true ∨
        RefusedForLength readConfig range.bufferOutLen attempt := by
  cases attempt with
  | unanswered error => exact (or_iff_left id).symm
  | answered response chunks =>
      have outcome := handled util path readConfig range (started response) transfer
      generalize handles :
        (handleResponse util path readConfig range (started response)).run transfer = result
        at outcome
      have flagEq : (((rangeGetRequest util path headerMap readConfig range).attempt
          (.answered response chunks)).run transfer).2.rangeRequestNotSupported =
            result.2.rangeRequestNotSupported :=
        GetRequestInfo.attempt_preserves_of_handled
          (motive := fun state : RangeTransfer => state.rangeRequestNotSupported =
            result.2.rangeRequestNotSupported)
          (handleContent_flag range) handles chunks rfl
      have onlyGood : 300 ≤ response.status →
          (transfer.rangeRequestNotSupported = true ↔ transfer.rangeRequestNotSupported = true ∨
            RefusedForLength readConfig range.bufferOutLen (.answered response chunks)) :=
        fun bad => (or_iff_left fun refused => absurd refused.1 (Nat.not_lt.mpr bad)).symm
      rw [flagEq]
      cases outcome with
      | refused _ refused => exact onlyGood (Nat.le_trans (by decide) refused)
      | violated violated =>
          exact onlyGood (Nat.le_trans (by decide) (Nat.le_of_eq (Eq.symm violated)))
      | redirected redirected => exact onlyGood redirected
      | otherVersion _ _ disagrees =>
          refine (or_iff_left ?_).symm
          exact fun refused => Bool.false_ne_true (Eq.trans disagrees.symm refused.2.1)
      | otherLength good agrees mismatch =>
          exact iff_of_true rfl (.inr ⟨good, agrees, mismatch⟩)
      | begins after good agrees passes _ flag =>
          rw [flag]
          exact (or_iff_left fun refused => refused.2.2 passes).symm

theorem afterFailed_flag (failed : List Attempt) (transfer : RangeTransfer) :
    ((rangeGetRequest util path headerMap readConfig range).afterFailed failed
        transfer).rangeRequestNotSupported = true ↔
      transfer.rangeRequestNotSupported = true ∨
        ∃ attempt ∈ failed, RefusedForLength readConfig range.bufferOutLen attempt := by
  induction failed generalizing transfer with
  | nil => simp [GetRequestInfo.afterFailed]
  | cons attempt rest inductionHypothesis =>
      rw [GetRequestInfo.afterFailed, List.foldl_cons]
      refine (inductionHypothesis _).trans ?_
      rw [attempt_flag util path headerMap readConfig range attempt transfer, or_assoc]
      simp

end RangeTransfer

/-! ## Answered requests -/

/-- An answer that fills the buffer. -/
structure Fills (readConfig : HTTPReadConfig) (bufferOutLen : Nat) (response : HTTPResponse)
    (body : Block) : Prop where
  received : response.requestError = ""
  agrees : etagAgrees readConfig response = true
  passes : RangeTransfer.LengthPasses bufferOutLen response
  length : body.length = bufferOutLen

/-- The buffer is filled with a body. -/
def Filled (buffer : Nat) (body : Block) (world : World) : Prop :=
  ∀ index, index < body.length → world.memory[buffer + index]? = body[index]?

namespace Session

variable (session : Session) (readConfig : HTTPReadConfig) (range : Range)

/-- The attempts at a range before the last one. -/
def failedAttempts : List Attempt :=
  (session.server.get (rangeGetRequest session.util session.path session.configuredHeaders
    readConfig range).headers).failed

/-- No attempt before the last one was stopped because of its length header. -/
def NoneRefused : Prop :=
  ∀ attempt ∈ session.failedAttempts readConfig range,
    ¬ RefusedForLength readConfig range.bufferOutLen attempt

theorem beforeLast_flag_iff (world : World) :
    (session.beforeLast readConfig range world).rangeRequestNotSupported = false ↔
      session.NoneRefused readConfig range := by
  rw [← Bool.not_eq_true, beforeLast, RangeTransfer.afterFailed_flag]
  simp [begun, NoneRefused, failedAttempts]

/-- A request for a range changes the memory of its buffer only. -/
theorem getRangeRequest_framed {range : Range} {buffer : Nat}
    (isBuffer : range.bufferOut = some buffer) {world : World}
    (within : buffer + range.bufferOutLen ≤ world.memory.length) :
    Framed buffer range.bufferOutLen world.memory
      ((session.getRangeRequest readConfig range).run world).2.memory := by
  by_cases declined : Declined readConfig world
  · rw [session.getRangeRequest_of_declined readConfig range declined]
    exact .refl _
  · rw [session.getRangeRequest_of_asked readConfig range declined]
    refine Action.bind_preserves (motive := fun transfer : RangeTransfer =>
      Framed buffer range.bufferOutLen world.memory transfer.world.memory) ?_ ?_
      (begun readConfig world) (.refl _)
    · exact GetRequestInfo.send_preserves session.util
        (RangeTransfer.handleResponse_framed session.util session.path readConfig)
        (RangeTransfer.handleContent_framed isBuffer within) _
    · intro response transfer framed
      rw [RangeTransfer.run_finalize]
      split
      · exact framed
      · split
        · exact framed
        · split <;> exact framed

theorem beforeLast_framed {range : Range} {buffer : Nat}
    (isBuffer : range.bufferOut = some buffer) {world : World}
    (within : buffer + range.bufferOutLen ≤ world.memory.length) :
    Framed buffer range.bufferOutLen world.memory
      (session.beforeLast readConfig range world).world.memory :=
  GetRequestInfo.afterFailed_preserves
    (motive := fun transfer : RangeTransfer =>
      Framed buffer range.bufferOutLen world.memory transfer.world.memory)
    (RangeTransfer.handleResponse_framed session.util session.path readConfig)
    (RangeTransfer.handleContent_framed isBuffer within) _ _ (.refl _)

section Answered

variable {range : Range} {buffer : Nat} (isBuffer : range.bufferOut = some buffer) {world : World}
  (within : buffer + range.bufferOutLen ≤ world.memory.length)

include isBuffer within

/-- An answer with a good status begins to fill the buffer at its start. -/
theorem attemptLast_of_fits {response : HTTPResponse} {chunks : List Block}
    (last : session.lastAttempt readConfig range = .answered response chunks)
    {begins : RangeTransfer}
    (handles : (RangeTransfer.handleResponse session.util session.path readConfig range
      (started response)).run (session.beforeLast readConfig range world) = (.ok true, begins))
    (outOffset : begins.outOffset = 0)
    (memory : begins.world.memory = (session.beforeLast readConfig range world).world.memory)
    (fits : chunks.flatten.length ≤ range.bufferOutLen) :
    ∃ after, session.attemptLast readConfig range world = (.ok response, after) ∧
      RangeTransfer.Holds buffer chunks.flatten after ∧
      after.rangeRequestNotSupported = begins.rangeRequestNotSupported := by
  have framed := session.beforeLast_framed readConfig isBuffer within
  rcases RangeTransfer.deliver_of_fits isBuffer session.util session.path
    session.configuredHeaders readConfig chunks
    (show RangeTransfer.Holds buffer [] begins from ⟨outOffset, nofun⟩)
    (by rw [List.length_nil, Nat.zero_add]; exact fits)
    (by rw [memory, framed.size]; exact within) with ⟨after, delivers, holds, flag⟩
  rw [attemptLast, last]
  exact ⟨after, GetRequestInfo.attempt_of_accepts handles delivers, holds, flag⟩

theorem attemptLast_of_overflows {response : HTTPResponse} {chunks : List Block}
    (last : session.lastAttempt readConfig range = .answered response chunks)
    {begins : RangeTransfer}
    (handles : (RangeTransfer.handleResponse session.util session.path readConfig range
      (started response)).run (session.beforeLast readConfig range world) = (.ok true, begins))
    (outOffset : begins.outOffset = 0)
    (memory : begins.world.memory = (session.beforeLast readConfig range world).world.memory)
    (overflows : range.bufferOutLen < chunks.flatten.length) :
    ∃ error after, session.attemptLast readConfig range world = (.error error, after) := by
  have framed := session.beforeLast_framed readConfig isBuffer within
  rcases RangeTransfer.deliver_of_overflows isBuffer session.util session.path
    session.configuredHeaders readConfig chunks
    (show RangeTransfer.Holds buffer [] begins from ⟨outOffset, nofun⟩) (Nat.zero_le _)
    (by rw [List.length_nil, Nat.zero_add]; exact overflows)
    (by rw [memory, framed.size]; exact within) with ⟨error, after, throws⟩
  rw [attemptLast, last]
  exact ⟨error, after, GetRequestInfo.attempt_of_deliver_throws handles throws⟩

/-- The last attempt ends with a response, and no length was refused: either its status
is not that of a body, or its body is in the buffer. -/
theorem attemptLast_cases {response : HTTPResponse} {after : RangeTransfer}
    (ends : session.attemptLast readConfig range world = (.ok response, after))
    (flag : after.rangeRequestNotSupported = false) :
    response.status = 0 ∨
      (300 ≤ response.status ∧ ∃ received chunks,
        session.lastAttempt readConfig range = .answered received chunks ∧
        response.status = received.status) ∨
      (session.NoneRefused readConfig range ∧ ∃ chunks,
        session.lastAttempt readConfig range = .answered response chunks ∧
        response.status < 300 ∧ etagAgrees readConfig response = true ∧
        RangeTransfer.LengthPasses range.bufferOutLen response ∧
        RangeTransfer.Holds buffer chunks.flatten after) := by
  cases last : session.lastAttempt readConfig range with
  | unanswered error =>
      rw [attemptLast, last] at ends
      cases ends
      exact .inl rfl
  | answered received chunks =>
      have ends' := ends
      rw [attemptLast, last] at ends'
      have outcome := RangeTransfer.handled session.util session.path readConfig range
        (started received) (session.beforeLast readConfig range world)
      generalize handles : (RangeTransfer.handleResponse session.util session.path readConfig range
        (started received)).run (session.beforeLast readConfig range world) = result at outcome
      cases outcome with
      | refused =>
          rw [GetRequestInfo.attempt_of_throws handles] at ends'
          cases ends'
      | otherVersion =>
          rw [GetRequestInfo.attempt_of_throws handles] at ends'
          cases ends'
      | violated violated =>
          rw [GetRequestInfo.attempt_of_stops handles] at ends'
          cases ends'
          exact .inr (.inl ⟨by rw [violated]; decide, received, chunks, rfl, rfl⟩)
      | redirected redirected =>
          have status := GetRequestInfo.status_of_attempt ends'
          refine .inr (.inl ⟨?_, received, chunks, rfl, status⟩)
          rw [status]
          exact redirected
      | otherLength =>
          rw [GetRequestInfo.attempt_of_stops handles] at ends'
          cases ends'
          cases flag
      | begins begins good agrees passes outOffset sameFlag memory =>
          by_cases fits : chunks.flatten.length ≤ range.bufferOutLen
          · rcases session.attemptLast_of_fits readConfig isBuffer within last handles outOffset
              memory fits with ⟨other, ends'', holds, flagEq⟩
            rw [ends] at ends''
            cases ends''
            refine .inr (.inr ⟨?_, chunks, rfl, good, agrees, passes, holds⟩)
            rw [← session.beforeLast_flag_iff readConfig range world, ← sameFlag, ← flagEq]
            exact flag
          · rcases session.attemptLast_of_overflows readConfig isBuffer within last handles
              outOffset memory (Nat.lt_of_not_le fits) with ⟨error, other, throws⟩
            rw [ends] at throws
            cases throws

omit isBuffer within in
/-- A request whose outcome has no request error was made, no length was refused, and
what it received was as long as it should be. -/
theorem getRangeRequest_received {outcome : HTTPResponse} {after : World}
    (returns : (session.getRangeRequest readConfig range).run world = (.ok outcome, after))
    (received : outcome.requestError = "") :
    ¬ Declined readConfig world ∧ ∃ transfer,
      session.attemptLast readConfig range world = (.ok outcome, transfer) ∧
      transfer.rangeRequestNotSupported = false ∧
      RangeTransfer.validateReadLength session.util session.path range transfer.outOffset outcome =
        .ok () ∧
      after.memory = transfer.world.memory := by
  by_cases declined : Declined readConfig world
  · rw [session.getRangeRequest_of_declined readConfig range declined] at returns
    cases returns
    exact absurd received session.util.rangeErrorText_ne
  · refine ⟨declined, ?_⟩
    rw [session.getRangeRequest_of_asked readConfig range declined,
      session.transferRange_run readConfig range world] at returns
    cases ends : session.attemptLast readConfig range world with
    | mk reply transfer =>
        rw [ends] at returns
        cases reported : session.util.report readConfig.autoFallbackToFullDownload reply with
        | error error =>
            simp only [reported] at returns
            cases returns
        | ok response =>
            simp only [reported, RangeTransfer.run_finalize] at returns
            split at returns
            · cases returns
              exact absurd received session.util.rangeErrorText_ne
            · rename_i flag
              cases long : RangeTransfer.validateReadLength session.util session.path range
                  transfer.outOffset response with
              | error error =>
                  rw [long] at returns
                  cases returns
              | ok _ =>
                  rw [long] at returns
                  cases returns
                  cases reply with
                  | error error =>
                      exact absurd received (session.util.report_thrown _ _ _ reported).2.2
                  | ok same =>
                      cases session.util.report_received _ _ _ reported
                      refine ⟨transfer, rfl, Bool.eq_false_iff.mpr flag, long, ?_⟩
                      change (if RangeTransfer.isSuccessfulResponse session.util outcome then
                        transfer.markSupported else transfer).world.memory = transfer.world.memory
                      split <;> rfl

/-- A request for a range that counts as answered filled the buffer, unless the answer
was that nothing was modified. -/
theorem tryRangeRequest_of_true {after : World}
    (returns : (session.tryRangeRequest readConfig range).run world = (.ok true, after)) :
    (∃ response chunks, session.lastAttempt readConfig range = .answered response chunks ∧
      response.status = 304) ∨
    (¬ Declined readConfig world ∧ session.NoneRefused readConfig range ∧
      ∃ response chunks, session.lastAttempt readConfig range = .answered response chunks ∧
        response.status < 300 ∧ Fills readConfig range.bufferOutLen response chunks.flatten ∧
        Filled buffer chunks.flatten after) := by
  rw [tryRangeRequest, Action.run_bind_eq_ok_iff] at returns
  rcases returns with ⟨outcome, between, requests, returns⟩
  rw [Action.run_bind_eq_ok_iff] at returns
  rcases returns with ⟨_, between', checked, returns⟩
  have same : between = between' := congrArg Prod.snd checked
  subst same
  simp only [Action.run_ite, Action.run_pure, Action.run_throw] at returns
  split at returns
  · split at returns
    · cases returns
    · cases returns
  · rename_i noError
    have received : outcome.requestError = "" := by
      simpa [HTTPResponse.hasRequestError] using noError
    split at returns
    · rename_i successful
      cases returns
      rcases session.getRangeRequest_received readConfig requests received with
        ⟨asked, transfer, ends, flag, long, memory⟩
      have statuses : (200 ≤ outcome.status ∧ outcome.status < 300) ∨ outcome.status = 304 := by
        simp only [RangeTransfer.isSuccessfulResponse, Bool.or_eq_true, beq_iff_eq,
          session.util.success_iff] at successful
        omega
      rcases session.attemptLast_cases readConfig isBuffer within ends flag with
        none | ⟨high, answer, chunks, last, status⟩ |
          ⟨noneRefused, chunks, last, good, agrees, passes, holds⟩
      · omega
      · exact .inl ⟨answer, chunks, last, by omega⟩
      · refine .inr ⟨asked, noneRefused, outcome, chunks, last, good,
          ⟨received, agrees, passes, ?_⟩, ?_⟩
        · rw [RangeTransfer.validateReadLength] at long
          split at long
          · rename_i full
            have success := (session.util.success_iff outcome).mpr ⟨received, statuses⟩
            rw [← holds.outOffset]
            simpa [noError, success, isBuffer] using full
          · cases long
        · intro index inside
          rw [memory]
          exact holds.stored index inside
    · cases returns

/-- An answer that fills the buffer makes the request count as answered. -/
theorem tryRangeRequest_of_fills (asked : ¬ Declined readConfig world)
    (noneRefused : session.NoneRefused readConfig range) {response : HTTPResponse}
    {chunks : List Block}
    (last : session.lastAttempt readConfig range = .answered response chunks)
    (status : response.status = 200 ∨ response.status = 206)
    (fills : Fills readConfig range.bufferOutLen response chunks.flatten) :
    ∃ after, (session.tryRangeRequest readConfig range).run world = (.ok true, after) ∧
      Filled buffer chunks.flatten after := by
  have outcome := RangeTransfer.handled session.util session.path readConfig range
    (started response) (session.beforeLast readConfig range world)
  generalize handles : (RangeTransfer.handleResponse session.util session.path readConfig range
    (started response)).run (session.beforeLast readConfig range world) = result at outcome
  have startedStatus : (started response).status = response.status := rfl
  cases outcome with
  | refused _ refused => omega
  | violated violated => omega
  | redirected redirected => omega
  | otherVersion _ _ disagrees =>
      exact absurd (Eq.trans (Eq.symm disagrees) fills.agrees) Bool.false_ne_true
  | otherLength _ _ mismatch => exact absurd fills.passes mismatch
  | begins begins _ _ _ outOffset sameFlag memory =>
      rcases session.attemptLast_of_fits readConfig isBuffer within last handles outOffset memory
        (Nat.le_of_eq fills.length) with ⟨transfer, ends, holds, flagEq⟩
      have flag : transfer.rangeRequestNotSupported = false := by
        rw [flagEq, sameFlag]
        exact (session.beforeLast_flag_iff readConfig range world).mpr noneRefused
      have long : RangeTransfer.validateReadLength session.util session.path range
          transfer.outOffset response = .ok () :=
        if_pos (.inr (.inr (.inr (holds.outOffset.trans fills.length))))
      have success := session.util.success_of_status fills.received status
      have requests : ∃ after, (session.getRangeRequest readConfig range).run world =
          (.ok response, after) ∧ after.memory = transfer.world.memory := by
        rw [session.getRangeRequest_of_asked readConfig range asked,
          session.transferRange_run readConfig range world, ends]
        simp only [session.util.report_of_status fills.received status,
          RangeTransfer.run_finalize, flag, Bool.false_eq_true, if_false, long]
        refine ⟨_, rfl, ?_⟩
        change (if RangeTransfer.isSuccessfulResponse session.util response then
          transfer.markSupported else transfer).world.memory = transfer.world.memory
        split <;> rfl
      rcases requests with ⟨after, requests, memoryEq⟩
      refine ⟨after, ?_, ?_⟩
      · have noError : response.hasRequestError = false := by
          simp [HTTPResponse.hasRequestError, fills.received]
        have successful : RangeTransfer.isSuccessfulResponse session.util response = true := by
          rw [RangeTransfer.isSuccessfulResponse, success, Bool.true_or, Bool.true_or]
        rw [tryRangeRequest, Action.run_bind_of_ok requests]
        simp only [Action.run_bind, Action.run_lift,
          throwIfReadConditionFailed_of_status session.path readConfig
            (show response.status ≠ 412 by omega), noError, Bool.false_eq_true, if_false,
          if_pos successful, Action.run_pure]
      · intro index inside
        rw [memoryEq]
        exact holds.stored index inside

end Answered

end Session

end Httpfs.Http.File
