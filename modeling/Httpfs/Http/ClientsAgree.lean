import Httpfs.Http.HttplibDelivery

/-!
# Both clients make the same calls

The protocol of the handlers leaves no choice to a client: it says which calls are made of
a transfer that is complete.  So it does not matter to the handlers of a request which of
the clients sends it.
-/

namespace Httpfs.Http

open Curl Curl.GetRequest Curl.GetTransferState Httplib

/-! ## Calls that agree -/

/-- Responses with the same code and headers. -/
structure Curl.HTTPResponse.Agrees (made other : Curl.HTTPResponse) : Prop where
  status : made.status = other.status
  headers : made.headers.entries.Perm other.headers.entries

inductive Curl.Call.Agrees : Call → Call → Prop
  | response {made other : Curl.HTTPResponse} (agrees : made.Agrees other) :
      Curl.Call.Agrees (.response made) (.response other)
  | content (data : Text) : Curl.Call.Agrees (.content data) (.content data)

/-- The handlers judge by the codes, the headers and the contents they are given. -/
def Curl.GetRequest.Judges (request : GetRequest) : Prop :=
  ∀ calls others, List.Forall₂ Curl.Call.Agrees calls others →
    (request.answer calls).toOption = (request.answer others).toOption

/-! ## What the protocol determines -/

section Protocol

variable {request : GetRequest} {block : TransferBlock} {calls others : List Call}
  {reply other : Except ErrorData Curl.HTTPResponse}

theorem contents_of_no_response {rest : List Call}
    (noResponse : rest.filterMap Call.response? = []) :
    (rest.filterMap Call.content?).map Call.content = rest := by
  induction rest with
  | nil => rfl
  | cons call rest inductionHypothesis =>
      cases call with
      | response made => contradiction
      | content data =>
          exact congrArg (.content data :: ·) (inductionHypothesis noResponse)

/-- First the response, then contents. -/
theorem Httplib.Hands.shape (hands : Hands request (some block) 0 calls reply)
    (handled : request.hasResponseHandler = true) :
    ∃ made given, calls = .response made :: given.map .content ∧
      given <+: streamed request (some block) := by
  cases calls with
  | nil => exact absurd rfl (hands.protocol.called rfl handled)
  | cons first rest =>
      cases first with
      | content data =>
          exact absurd rfl ((hands.protocol.responseFirst [] data rest rfl).2 handled)
      | response made =>
          have noResponse : rest.filterMap Call.response? = [] := by
            have once : (rest.filterMap Call.response?).length + 1 ≤ 1 := hands.protocol.once
            exact List.length_eq_zero_iff.mp (Nat.le_zero.mp (Nat.le_of_succ_le_succ once))
          refine ⟨made, rest.filterMap Call.content?, ?_, hands.protocol.contents⟩
          rw [contents_of_no_response noResponse]

/-- What is called before the last call was answered with true. -/
theorem Httplib.Hands.goesOn_front (hands : Hands request (some block) 0 calls reply)
    {front back : List Call} (cut : calls = front ++ back) (more : back ≠ []) :
    GoesOn request front := by
  intro before call between frontEq
  by_contra stops
  rw [frontEq, List.append_assoc, List.cons_append] at cut
  have none := hands.protocol.silent before call (between ++ back) cut stops
  exact more (List.append_eq_nil_iff.mp none).2

theorem Curl.GetRequest.Judges.goesOn (judges : request.Judges)
    (agrees : List.Forall₂ Curl.Call.Agrees calls others) (goesOn : GoesOn request others) :
    GoesOn request calls := by
  intro front call back cut
  have taken : calls.take (front.length + 1) = front ++ [call] := by
    rw [cut, List.take_append, List.take_of_length_le (Nat.le_succ _), Nat.add_sub_cancel_left]
    rfl
  have both := List.forall₂_take (front.length + 1) agrees
  rw [taken] at both
  have same := judges _ _ both
  have length : (others.take (front.length + 1)).length = front.length + 1 := by
    rw [← both.length_eq, List.length_append]
    rfl
  rcases List.eq_nil_or_concat (others.take (front.length + 1)) with nothing | ⟨first, last, isLast⟩
  · rw [nothing] at length
    contradiction
  · rw [List.concat_eq_append] at isLast
    have whole : others = first ++ last :: others.drop (front.length + 1) := by
      rw [← List.singleton_append, ← List.append_assoc, ← isLast, List.take_append_drop]
    rw [isLast, goesOn first last _ whole] at same
    cases answer : request.answer (front ++ [call]) with
    | error error =>
        rw [answer] at same
        contradiction
    | ok goesOn =>
        rw [answer] at same
        exact congrArg Except.ok (Option.some.inj same)

theorem agrees_contents {made told : Curl.HTTPResponse} (agrees : made.Agrees told)
    (given : List Text) :
    List.Forall₂ Curl.Call.Agrees (.response made :: given.map .content)
      (.response told :: given.map .content) := by
  refine .cons (.response agrees) ?_
  rw [List.forall₂_map_left_iff, List.forall₂_map_right_iff, List.forall₂_same]
  exact fun data _ => .content data

/-- The calls of a client are not fewer than those of another. -/
theorem contents_eq (judges : request.Judges)
    {made told : Curl.HTTPResponse} (agrees : made.Agrees told) {given more : List Text}
    (hands : Hands request (some block) 0 (.response made :: given.map .content) reply)
    (hands' : Hands request (some block) 0 (.response told :: more.map .content) other)
    (isFront : given <+: more) : given = more := by
  obtain ⟨rest, rfl⟩ := isFront
  cases rest with
  | nil => rw [List.append_nil]
  | cons data rest =>
      have front : GoesOn request (.response told :: given.map .content) := by
        have cut : Call.response told :: (given ++ data :: rest).map Call.content =
            (.response told :: given.map .content) ++ .content data :: rest.map .content := by
          rw [List.map_append]
          rfl
        exact hands'.goesOn_front cut (List.cons_ne_nil _ _)
      have goesOn := judges.goesOn (agrees_contents agrees given) front
      have complete : given = streamed request (some block) := by
        rw [← hands.protocol.complete rfl goesOn]
        exact (filterMap_content_contents given).symm
      have within : given ++ data :: rest <+: given := by
        have contents := hands'.protocol.contents
        rw [← complete] at contents
        rw [← filterMap_content_contents (given ++ data :: rest)]
        exact contents
      have shorter := within.length_le
      rw [List.length_append, List.length_cons] at shorter
      exact absurd shorter (by omega)

theorem Curl.HTTPResponse.Agrees.symm {made told : Curl.HTTPResponse} (agrees : made.Agrees told) :
    told.Agrees made :=
  ⟨agrees.status.symm, agrees.headers.symm⟩

/-- The response is told of as it came. -/
theorem Httplib.Hands.agrees {made told : Curl.HTTPResponse} {given more : List Text}
    (hands : Hands request (some block) 0 (.response made :: given.map .content) reply)
    (hands' : Hands request (some block) 0 (.response told :: more.map .content) other) :
    made.Agrees told := by
  obtain ⟨status, headers⟩ := hands.reports made List.mem_cons_self block rfl
  obtain ⟨status', headers'⟩ := hands'.reports told List.mem_cons_self block rfl
  exact ⟨status.trans status'.symm, headers.trans headers'.symm⟩

theorem Curl.GetRequest.Judges.throws (judges : request.Judges)
    (agrees : List.Forall₂ Curl.Call.Agrees calls others) :
    (∃ error, request.answer calls = .error error) ↔
      ∃ error, request.answer others = .error error := by
  have same := judges calls others agrees
  generalize request.answer calls = answer at same ⊢
  generalize request.answer others = answer' at same ⊢
  cases answer with
  | error error =>
      cases answer' with
      | error error' => exact iff_of_true ⟨error, rfl⟩ ⟨error', rfl⟩
      | ok goesOn => contradiction
  | ok goesOn =>
      cases answer' with
      | error error => contradiction
      | ok goesOn' => exact iff_of_false (by simp) (by simp)

/-- The protocol says which calls are made of a transfer that is complete, and whether a
request throws, and with which body it returns. -/
theorem Httplib.Hands.determined (judges : request.Judges)
    (handled : request.hasResponseHandler = true)
    (hands : Hands request (some block) 0 calls reply)
    (hands' : Hands request (some block) 0 others other) :
    List.Forall₂ Curl.Call.Agrees calls others ∧
      ((∃ error, reply = .error error) ↔ ∃ error, other = .error error) ∧
      ∀ made told, reply = .ok made → other = .ok told → made.body = told.body := by
  obtain ⟨made, given, rfl, isFront⟩ := hands.shape handled
  obtain ⟨told, more, rfl, isFront'⟩ := hands'.shape handled
  have agrees := hands.agrees hands'
  obtain rfl : given = more := by
    rcases List.prefix_or_prefix_of_prefix isFront isFront' with shorter | longer
    · exact contents_eq judges agrees hands hands' shorter
    · exact (contents_eq judges agrees.symm hands' hands longer).symm
  have both := agrees_contents agrees given
  refine ⟨both, ?_, ?_⟩
  · have throws := judges.throws both
    simp only [hands.protocol.thrown, hands'.protocol.thrown]
    simpa using throws
  · intro made told replied replied'
    rw [hands.protocol.body rfl made replied, hands'.protocol.body rfl told replied']

end Protocol

/-! ## The code of the curl client -/

/-- Whatever a handler was told of has some code. -/
def Curl.GetTransferState.Tells (code : Nat) (state : Curl.GetTransferState) : Prop :=
  ∀ made, Call.response made ∈ state.calls → made.status = code

/-- A step at some code tells of this code only. -/
def TellsAt {α : Type} (code : Nat) (action : Action Curl.GetTransferState α) : Prop :=
  ∀ state, state.curlCode = code ∧ state.Tells code →
    (action.run state).2.curlCode = code ∧ (action.run state).2.Tells code

section Curl

variable {α β : Type} {code : Nat} {request : GetRequest}

theorem TellsAt.bind {first : Action Curl.GetTransferState α}
    {next : α → Action Curl.GetTransferState β} (firstTells : TellsAt code first)
    (nextTells : ∀ value, TellsAt code (next value)) : TellsAt code (first >>= next) :=
  Action.bind_preserves firstTells nextTells

theorem TellsAt.ite {condition : Prop} [Decidable condition]
    {yes no : Action Curl.GetTransferState α} (yesTells : TellsAt code yes)
    (noTells : TellsAt code no) : TellsAt code (if condition then yes else no) := by
  split
  · exact yesTells
  · exact noTells

theorem tellsAt_pure (value : α) : TellsAt code (pure value) :=
  fun _ tells => tells

theorem tellsAt_lift (result : Except ErrorData α) : TellsAt code (Action.lift result) :=
  fun _ tells => tells

theorem tellsAt_modify {change : Curl.GetTransferState → Curl.GetTransferState}
    (sameCode : ∀ state, (change state).curlCode = state.curlCode)
    (sameCalls : ∀ state, (change state).calls = state.calls) :
    TellsAt code (modify change) := by
  intro state tells
  refine ⟨(sameCode state).trans tells.1, ?_⟩
  intro made member
  exact tells.2 made (sameCalls state ▸ member)

theorem TellsAt.caught {action : Action Curl.GetTransferState Nat} (tells : TellsAt code action) :
    TellsAt code (caught action) := by
  intro state holds
  have between := tells state holds
  cases runEq : action.run state with
  | mk reply after =>
      rw [runEq] at between
      cases reply with
      | error error =>
          rw [run_caught_of_error runEq]
          exact between
      | ok value =>
          rw [run_caught_of_ok runEq]
          exact between

theorem tellsAt_handle {call : Call} (told : ∀ made, call = .response made → made.status = code) :
    TellsAt code (request.handle call) := by
  intro state tells
  refine ⟨tells.1, ?_⟩
  intro made member
  rcases List.mem_append.mp member with before | new
  · exact tells.2 made before
  · exact told made (List.mem_singleton.mp new).symm

theorem status_transformResponseCurl (messages : Messages) (requestInfo : RequestInfo)
    (result : Nat) (includeBody : Bool) :
    (transformResponseCurl messages requestInfo result includeBody).status =
      requestInfo.responseCode := by
  rw [transformResponseCurl]
  split <;> rfl

/-- The state is looked at where the response has this code. -/
theorem tellsAt_startResponse : TellsAt code request.startResponse := by
  intro state tells
  rw [startResponse, run_get_bind]
  dsimp only
  split
  · exact tells
  · rw [run_modify_bind]
    split
    · exact tells
    · rw [run_modify_bind]
      split
      · exact tells
      · rw [run_modify_bind]
        split
        · rw [run_get_bind]
          refine TellsAt.bind (tellsAt_handle ?_) ?_ _ tells
          · rintro made same
            rw [← Call.response.inj same, status_transformResponseCurl]
            exact tells.1
          · intro goesOn
            apply TellsAt.ite (tellsAt_pure _)
            exact TellsAt.bind (tellsAt_modify (fun _ => rfl) fun _ => rfl) fun _ => tellsAt_pure _
        · exact tells

theorem tellsAt_get : TellsAt code (get : Action Curl.GetTransferState _) :=
  fun _ tells => tells

theorem tellsAt_takenUnstarted (size : Nat) : TellsAt code (takenUnstarted size) :=
  tellsAt_get.bind fun _ => tellsAt_pure _

theorem tellsAt_writeStarted (contents : Text) : TellsAt code (request.writeStarted contents) := by
  apply tellsAt_get.bind
  intro state
  apply TellsAt.ite
  · refine TellsAt.bind (tellsAt_modify (fun _ => rfl) fun _ => rfl) fun _ => ?_
    exact TellsAt.bind (tellsAt_modify (fun _ => rfl) fun _ => rfl) fun _ => tellsAt_pure _
  · apply (tellsAt_handle (fun made same => by contradiction)).bind
    intro goesOn
    apply TellsAt.ite
    · exact TellsAt.bind (tellsAt_modify (fun _ => rfl) fun _ => rfl) fun _ => tellsAt_pure _
    · exact TellsAt.bind (tellsAt_modify (fun _ => rfl) fun _ => rfl) fun _ => tellsAt_pure _

theorem tellsAt_callback (event : Event) : TellsAt code (request.callback event) := by
  have starts : ∀ {next : Bool → Action Curl.GetTransferState Nat},
      (∀ started, TellsAt code (next started)) →
      TellsAt code (request.startResponse >>= next) := tellsAt_startResponse.bind
  cases event with
  | header line =>
      apply tellsAt_get.bind
      intro state
      apply (tellsAt_lift _).bind
      intro received
      dsimp only
      refine TellsAt.bind (tellsAt_modify (fun _ => rfl) fun _ => rfl) fun _ => ?_
      apply tellsAt_get.bind
      intro _
      apply TellsAt.ite (tellsAt_pure _)
      apply TellsAt.caught
      apply TellsAt.ite (tellsAt_pure _)
      exact starts fun _ => (tellsAt_pure _).ite (tellsAt_takenUnstarted _)
  | write contents =>
      apply TellsAt.caught
      apply tellsAt_get.bind
      intro state
      apply TellsAt.ite (tellsAt_writeStarted contents)
      exact starts fun _ => (tellsAt_writeStarted contents).ite (tellsAt_takenUnstarted _)

/-- Events at one code tell of it. -/
theorem tells_perform {events : List (Nat × Event)} (sameCode : ∀ event ∈ events, event.1 = code)
    {state : Curl.GetTransferState} (tells : state.Tells code) :
    ((request.perform events).run state).2.Tells code := by
  induction events generalizing state with
  | nil => exact tells
  | cons event events inductionHypothesis =>
      rw [List.forall_mem_cons] at sameCode
      obtain ⟨eventCode, event⟩ := event
      obtain rfl : eventCode = code := sameCode.1
      have kept : _ ∧ ((request.callback event).run (atCode state eventCode)).2.Tells eventCode :=
        tellsAt_callback event (atCode state eventCode) ⟨rfl, tells⟩
      cases run : (request.callback event).run (atCode state eventCode) with
      | mk reply after =>
          rw [run] at kept
          cases reply with
          | error error =>
              have throws : (request.perform ((eventCode, event) :: events)).run state =
                  (.error error, after) := by
                rw [GetRequest.perform, run_modify_bind]
                exact Action.run_bind_of_error run
              rw [throws]
              exact kept.2
          | ok taken =>
              rw [run_perform_cons run]
              split
              · exact inductionHypothesis sameCode.2 kept.2
              · exact kept.2

theorem tellsAt_finish (result : Nat) : TellsAt code (request.finish result) := by
  intro state tells
  cases errorEq : state.error with
  | some error =>
      have same : (state.setResponseCode state.curlCode).error = some error := errorEq
      rw [GetRequest.finish, run_modify_bind, run_get_bind]
      dsimp only
      rw [same]
      exact tells
  | none =>
      rw [run_finish_of_no_error errorEq]
      generalize (if state.stopped then 0 else result) = outcome
      split
      · rw [run_modify_bind]
        split
        · refine TellsAt.bind (tellsAt_handle ?_) (fun _ => tellsAt_pure _) _ tells
          rintro made same
          rw [← Call.response.inj same, endResponse, status_transformResponseCurl]
          exact tells.1
        · exact tells
      · exact tells

end Curl

/-! ## Whole transfers of the curl client -/

/-- A transfer that ends with a final response without trailers. -/
structure CompleteTransfer (earlier : List TransferBlock) (block : TransferBlock) : Prop where
  areEarlier : ∀ other ∈ earlier, other.Earlier
  isFinal : block.IsFinal
  splits : ∀ other ∈ earlier ++ [block], other.Splits
  noColon : ':' ∉ block.header.status
  noTrailers : block.trailers = []

section Transfers

variable {request : GetRequest} {earlier : List TransferBlock} {block : TransferBlock}

/-- The events up to the end of the header of the final response, and the others. -/
theorem CompleteTransfer.events_eq (complete : CompleteTransfer earlier block) :
    eventsFrom 0 (earlier ++ [block]) =
      (eventsFrom 0 earlier ++ block.headerEvents.map (block.code, ·)) ++
        (TransferBlock.bodyEvents block.header.emptyEnd block.chunks block.trailers).map
          (block.code, ·) := by
  rw [eventsFrom_concat earlier complete.isFinal.response, TransferBlock.events, List.map_append,
    List.append_assoc]

theorem CompleteTransfer.quiet (complete : CompleteTransfer earlier block) :
    ∀ event ∈ eventsFrom 0 earlier ++ block.headerEvents.map (block.code, ·), Quiet event := by
  rw [List.forall_mem_append]
  exact ⟨quiet_eventsFrom complete.areEarlier (by decide), quiet_headerEvents block block.code⟩

/-- The curl client keeps the protocol and tells of the response with its code. -/
theorem CompleteTransfer.delivers (complete : CompleteTransfer earlier block) (url : Text) :
    let received := eventsFrom 0 (earlier ++ [block])
    let start : Curl.GetTransferState := { requestInfo := { url } }
    Delivers request (earlier ++ [block]) (some block) 0
        ((request.transfer received 0).run start).2.calls
        ((request.transfer received 0).run start).1 ∧
      ((request.transfer received 0).run start).2.Tells block.code := by
  intro received start
  obtain ⟨headers, allHeaders⟩ := exists_foldlM_eventsFrom complete.splits 0 []
  have areHeaders := allHeaders
  rw [complete.events_eq] at areHeaders
  obtain ⟨between, areBetween, isBody⟩ := foldlM_body areHeaders
  obtain ⟨middle, run, idle, middleHeaders⟩ :=
    @run_perform_quiet request _ complete.quiet _ (idle_start url) between areBetween
  rw [← middleHeaders] at isBody
  obtain ⟨all, after, bodyRun, phase⟩ := @run_perform_body request _ complete.isFinal.final
    block.header.emptyEnd _ complete.isFinal.chunked _ _ idle headers isBody
  have sameCode : ∀ event ∈ (TransferBlock.bodyEvents block.header.emptyEnd block.chunks
      block.trailers).map (block.code, ·), event.1 = block.code := by
    simp
  have isCode : after.curlCode = block.code := by
    have ofEvents := @curlCode_perform request block.code _ sameCode middle
      (by simp [TransferBlock.bodyEvents])
    rw [bodyRun] at ofEvents
    exact ofEvents
  have tells : after.Tells block.code := by
    have untold : middle.Tells block.code := by
      intro made member
      rw [idle.noCalls] at member
      exact absurd member List.not_mem_nil
    have ofEvents : ((request.perform _).run middle).2.Tells block.code :=
      tells_perform sameCode untold
    rw [bodyRun] at ofEvents
    exact ofEvents
  have reported : LastHeaders (earlier ++ [block])
      (responseHeaders middle.requestInfo.headerCollection) := by
    rw [middleHeaders]
    exact lastHeaders_of_header (complete.splits block (List.mem_append_right _ List.mem_cons_self))
      complete.noColon areBetween
  have wholeRun : (request.perform received).run start = (.ok all, after) := by
    rw [show received = _ from complete.events_eq, run_perform_append,
      Action.run_bind_of_ok run, if_pos rfl, bodyRun]
  constructor
  · apply delivers_of_perform wholeRun
    rcases phase with ⟨rfl, underway, afterHeaders⟩ | ended
    · apply delivers_of_underway isCode List.prefix_rfl reported underway
      intro _
      refine ⟨rfl, afterHeaders.symm ▸ lastHeaders_of_events complete.splits ?_ allHeaders⟩
      intro last isLast
      rw [List.getLast?_concat] at isLast
      obtain rfl := Option.some.inj isLast
      exact complete.noColon
    · exact delivers_of_ended isCode List.prefix_rfl reported ended _
  · rw [GetRequest.transfer, Action.run_bind_of_ok wholeRun]
    exact (tellsAt_finish _ after ⟨isCode, tells⟩).2

theorem CompleteTransfer.hands (complete : CompleteTransfer earlier block) (url : Text) :
    let received := eventsFrom 0 (earlier ++ [block])
    let start : Curl.GetTransferState := { requestInfo := { url } }
    Hands request (some block) 0 ((request.transfer received 0).run start).2.calls
      ((request.transfer received 0).run start).1 := by
  intro received start
  obtain ⟨delivers, tells⟩ := @CompleteTransfer.delivers request _ _ complete url
  refine ⟨{ delivers with headers := fun made _ => lastHeaders_nil made.headers }, ?_⟩
  rintro made member _ ⟨⟩
  obtain ⟨call, isCall, isMade⟩ := List.mem_filterMap.mp member
  cases call with
  | content data => contradiction
  | response other =>
      obtain rfl := Option.some.inj isMade
      refine ⟨tells _ isCall, ?_⟩
      obtain ⟨shown, isShown, entries⟩ := delivers.headers _ member block List.getLast?_concat
      have noneShown : shown = [] := by
        rw [complete.noTrailers, or_self] at isShown
        exact isShown
      rw [entries, noneShown, TransferBlock.headerWith, List.append_nil]

end Transfers

end Httpfs.Http
