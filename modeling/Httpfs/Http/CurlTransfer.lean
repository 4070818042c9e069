import Httpfs.Http.CurlGet

/-!
# Runs of callbacks

What the callbacks make of the events of a transfer, up to the end of a final response,
and what the transfer is finished with.
-/

namespace Httpfs.Http.Curl

open GetTransferState Text

/-! ## Blocks -/

/-- A response as curl passes it, or the answer of a proxy to a connect request, whose
code curl does not report. -/
structure TransferBlock where
  header : HeaderBlock
  code : Nat
  connect : Bool
  chunks : List Text
  trailers : List HeaderField

namespace TransferBlock

/-- The code that curl reports behind the status line. -/
def codeAfter (block : TransferBlock) (code : Nat) : Nat :=
  if block.connect then code else block.code

/-- The lines of the header but the empty one. -/
def headerEvents (block : TransferBlock) : List Event :=
  .header (block.header.status ++ block.header.statusEnd.text) ::
    block.header.fields.map fun field => .header field.text

def trailerEvents (fields : List HeaderField) : List Event :=
  fields.map fun field => .header field.text

/-- What follows the lines of a header. -/
def bodyEvents (emptyEnd : LineEnd) (chunks : List Text) (trailers : List HeaderField) :
    List Event :=
  .header emptyEnd.text :: (chunks.map Event.write ++ trailerEvents trailers)

def events (block : TransferBlock) : List Event :=
  block.headerEvents ++ bodyEvents block.header.emptyEnd block.chunks block.trailers

/-- A block that is no final response. -/
def Earlier (block : TransferBlock) : Prop :=
  block.connect = true ∨ Interim block.code

/-- The final response; only its last piece may be empty. -/
structure IsFinal (block : TransferBlock) : Prop where
  response : block.connect = false
  final : GetRequest.Final block.code
  chunked : ∀ chunk ∈ block.chunks.dropLast, chunk ≠ []

end TransferBlock

/-! ## Events one after the other -/

/-- The header lines among some events. -/
def headerLines (events : List (Nat × Event)) : List Text :=
  events.filterMap fun event =>
    match event.2 with
    | .header line => some line
    | .write _ => none

namespace GetRequest

variable {request : GetRequest}

def atCode (state : GetTransferState) (code : Nat) : GetTransferState :=
  { state with curlCode := code }

theorem run_perform_cons {code : Nat} {event : Event} {rest : List (Nat × Event)}
    {state after : GetTransferState} {taken : Nat}
    (run : (request.callback event).run (atCode state code) = (.ok taken, after)) :
    (request.perform ((code, event) :: rest)).run state =
      if taken = event.size then (request.perform rest).run after else (.ok false, after) := by
  rw [perform, run_modify_bind]
  change (request.callback event >>= _).run (atCode state code) = _
  rw [Action.run_bind_of_ok run]
  split <;> rfl

/-- Events of which none starts a final response. -/
def Quiet (event : Nat × Event) : Prop :=
  match event.2 with
  | .header line => isEndOfHeaders line = true → Interim event.1
  | .write _ => Interim event.1

/-- Such events change the headers only. -/
theorem run_perform_quiet {events : List (Nat × Event)} (quiet : ∀ event ∈ events, Quiet event)
    {state : GetTransferState} (idle : state.Idle) {headers : List HTTPHeaders}
    (received : (headerLines events).foldlM headersAfter state.requestInfo.headerCollection =
      .ok headers) :
    ∃ after, (request.perform events).run state = (.ok true, after) ∧ after.Idle ∧
      after.requestInfo.headerCollection = headers := by
  induction events generalizing state with
  | nil => exact ⟨state, rfl, idle, Except.ok.inj received⟩
  | cons event events inductionHypothesis =>
      rw [List.forall_mem_cons] at quiet
      obtain ⟨code, event⟩ := event
      have idleThere : (atCode state code).Idle :=
        ⟨idle.unstarted, idle.uncalled, idle.unstopped, idle.noError, idle.noCalls, idle.noBody⟩
      cases event with
      | header line =>
          have cut : headerLines ((code, .header line) :: events) = line :: headerLines events := rfl
          rw [cut, List.foldlM_cons] at received
          obtain ⟨between, first, later⟩ := bind_eq_ok_iff.mp received
          have isFirst : headersAfter (atCode state code).requestInfo.headerCollection line =
              .ok between := first
          obtain ⟨middle, run, middleIdle, middleHeaders⟩ : ∃ middle,
              (request.headerCallback line).run (atCode state code) = (.ok line.length, middle) ∧
                middle.Idle ∧ middle.requestInfo.headerCollection = between := by
            cases isEnd : isEndOfHeaders line with
            | true => exact run_headerCallback_interim isFirst idleThere (quiet.1 isEnd)
            | false =>
                exact ⟨_, run_headerCallback_line isFirst isEnd,
                  ⟨idle.unstarted, idle.uncalled, idle.unstopped, idle.noError, idle.noCalls,
                    idle.noBody⟩, rfl⟩
          rw [← middleHeaders] at later
          have callback : (request.callback (.header line)).run (atCode state code) =
              (.ok line.length, middle) := run
          rw [run_perform_cons callback, if_pos (show line.length = Event.size (.header line) from rfl)]
          exact inductionHypothesis quiet.2 middleIdle later
      | write contents =>
          have callback : (request.callback (.write contents)).run (atCode state code) =
              (.ok contents.length, (atCode state code).setResponseCode code) :=
            run_writeCallback_interim idleThere quiet.1 contents
          rw [run_perform_cons callback,
            if_pos (show contents.length = Event.size (.write contents) from rfl)]
          exact inductionHypothesis quiet.2
            ⟨idle.unstarted, idle.uncalled, idle.unstopped, idle.noError, idle.noCalls,
              idle.noBody⟩ received

theorem run_perform_append (front back : List (Nat × Event)) (state : GetTransferState) :
    (request.perform (front ++ back)).run state =
      (request.perform front >>= fun all =>
        if all then request.perform back else pure false).run state := by
  induction front generalizing state with
  | nil => rfl
  | cons event front inductionHypothesis =>
      obtain ⟨code, event⟩ := event
      cases run : (request.callback event).run (atCode state code) with
      | mk reply after =>
          cases reply with
          | error error =>
              have throws : ∀ rest, (request.perform ((code, event) :: rest)).run state =
                  (.error error, after) := by
                intro rest
                rw [perform, run_modify_bind]
                exact Action.run_bind_of_error run
              rw [List.cons_append, throws, Action.run_bind_of_error (throws front)]
          | ok taken =>
              rw [List.cons_append, run_perform_cons run, Action.run_bind, run_perform_cons run]
              split
              · rw [inductionHypothesis, Action.run_bind]
              · rfl

/-- Lines that do not end a header change the headers only. -/
theorem run_perform_lines {motive : GetTransferState → Prop} {code : Nat}
    (closed : ∀ state headers, motive state → motive ((atCode state code).setHeaders headers))
    {lines : List Text} (notEnd : ∀ line ∈ lines, isEndOfHeaders line = false)
    {state : GetTransferState} {headers : List HTTPHeaders}
    (received : lines.foldlM headersAfter state.requestInfo.headerCollection = .ok headers)
    (holds : motive state) :
    ∃ after, (request.perform (lines.map (code, Event.header ·))).run state = (.ok true, after) ∧
      motive after ∧ after.requestInfo.headerCollection = headers := by
  induction lines generalizing state with
  | nil => exact ⟨state, rfl, holds, Except.ok.inj received⟩
  | cons line lines inductionHypothesis =>
      rw [List.forall_mem_cons] at notEnd
      rw [List.foldlM_cons] at received
      obtain ⟨between, first, later⟩ := bind_eq_ok_iff.mp received
      have callback : (request.callback (.header line)).run (atCode state code) =
          (.ok line.length, (atCode state code).setHeaders between) :=
        run_headerCallback_line first notEnd.1
      rw [List.map_cons, run_perform_cons callback,
        if_pos (show line.length = Event.size (.header line) from rfl)]
      exact inductionHypothesis notEnd.2 later (closed state between holds)

/-! ## The code of the last event -/

/-- An action that does not change what curl reports. -/
def KeepsCode {α : Type} (action : Action GetTransferState α) : Prop :=
  ∀ state, (action.run state).2.curlCode = state.curlCode

section

variable {α β : Type}

theorem keepsCode_pure (value : α) : KeepsCode (pure value) :=
  fun _ => rfl

theorem keepsCode_get : KeepsCode get :=
  fun _ => rfl

theorem keepsCode_throw (error : ErrorData) : KeepsCode (throw error : Action GetTransferState α) :=
  fun _ => rfl

theorem keepsCode_lift (result : Except ErrorData α) : KeepsCode (Action.lift result) :=
  fun _ => rfl

theorem keepsCode_modify {change : GetTransferState → GetTransferState}
    (same : ∀ state, (change state).curlCode = state.curlCode) : KeepsCode (modify change) :=
  same

theorem KeepsCode.bind {first : Action GetTransferState α} {next : α → Action GetTransferState β}
    (firstKeeps : KeepsCode first) (nextKeeps : ∀ value, KeepsCode (next value)) :
    KeepsCode (first >>= next) := by
  intro state
  have between := firstKeeps state
  cases firstEq : first.run state with
  | mk reply after =>
      rw [firstEq] at between
      cases reply with
      | error error =>
          rw [Action.run_bind_of_error firstEq]
          exact between
      | ok value =>
          rw [Action.run_bind_of_ok firstEq]
          exact (nextKeeps value after).trans between

theorem KeepsCode.ite {condition : Prop} [Decidable condition] {yes no : Action GetTransferState α}
    (yesKeeps : KeepsCode yes) (noKeeps : KeepsCode no) :
    KeepsCode (if condition then yes else no) := by
  split
  · exact yesKeeps
  · exact noKeeps

theorem KeepsCode.caught {action : Action GetTransferState Nat} (keeps : KeepsCode action) :
    KeepsCode (caught action) := by
  intro state
  have between := keeps state
  cases runEq : action.run state with
  | mk reply after =>
      rw [runEq] at between
      cases reply with
      | error error =>
          rw [run_caught_of_error runEq]
          exact between
      | ok value =>
          rw [run_caught_of_ok runEq]
          exact between

end

theorem keepsCode_handle (call : Call) : KeepsCode (request.handle call) :=
  fun _ => rfl

theorem keepsCode_startResponse : KeepsCode request.startResponse := by
  apply KeepsCode.bind keepsCode_get
  intro state
  apply KeepsCode.ite (keepsCode_throw _)
  refine KeepsCode.bind (keepsCode_modify fun _ => rfl) fun _ => ?_
  apply KeepsCode.ite (keepsCode_pure _)
  refine KeepsCode.bind (keepsCode_modify fun _ => rfl) fun _ => ?_
  apply KeepsCode.ite (keepsCode_pure _)
  refine KeepsCode.bind (keepsCode_modify fun _ => rfl) fun _ => ?_
  apply KeepsCode.ite _ (keepsCode_pure _)
  apply KeepsCode.bind keepsCode_get
  intro _
  apply KeepsCode.bind (keepsCode_handle _)
  intro _
  apply KeepsCode.ite (keepsCode_pure _)
  exact KeepsCode.bind (keepsCode_modify fun _ => rfl) fun _ => keepsCode_pure _

theorem keepsCode_takenUnstarted (size : Nat) : KeepsCode (takenUnstarted size) :=
  keepsCode_get.bind fun _ => keepsCode_pure _

theorem keepsCode_writeStarted (contents : Text) : KeepsCode (request.writeStarted contents) := by
  apply KeepsCode.bind keepsCode_get
  intro state
  apply KeepsCode.ite
  · refine KeepsCode.bind (keepsCode_modify fun _ => rfl) fun _ => ?_
    exact KeepsCode.bind (keepsCode_modify fun _ => rfl) fun _ => keepsCode_pure _
  · apply KeepsCode.bind (keepsCode_handle _)
    intro _
    apply KeepsCode.ite
    · exact KeepsCode.bind (keepsCode_modify fun _ => rfl) fun _ => keepsCode_pure _
    · exact KeepsCode.bind (keepsCode_modify fun _ => rfl) fun _ => keepsCode_pure _

theorem keepsCode_callback (event : Event) : KeepsCode (request.callback event) := by
  have starts : ∀ {next : Bool → Action GetTransferState Nat}, (∀ started, KeepsCode (next started)) →
      KeepsCode (request.startResponse >>= next) := keepsCode_startResponse.bind
  cases event with
  | header line =>
      apply KeepsCode.bind keepsCode_get
      intro state
      apply KeepsCode.bind (keepsCode_lift _)
      intro received
      dsimp only
      refine KeepsCode.bind (keepsCode_modify fun _ => rfl) fun _ => ?_
      apply KeepsCode.bind keepsCode_get
      intro _
      apply KeepsCode.ite (keepsCode_pure _)
      apply KeepsCode.caught
      apply KeepsCode.ite (keepsCode_pure _)
      exact starts fun _ => (keepsCode_pure _).ite (keepsCode_takenUnstarted _)
  | write contents =>
      apply KeepsCode.caught
      apply KeepsCode.bind keepsCode_get
      intro state
      apply KeepsCode.ite (keepsCode_writeStarted contents)
      exact starts fun _ => (keepsCode_writeStarted contents).ite (keepsCode_takenUnstarted _)

/-- Events at one code leave this code. -/
theorem curlCode_perform {code : Nat} {events : List (Nat × Event)}
    (sameCode : ∀ event ∈ events, event.1 = code) {state : GetTransferState}
    (start : events = [] → state.curlCode = code) :
    ((request.perform events).run state).2.curlCode = code := by
  induction events generalizing state with
  | nil => exact start rfl
  | cons event events inductionHypothesis =>
      rw [List.forall_mem_cons] at sameCode
      obtain ⟨eventCode, event⟩ := event
      obtain rfl : eventCode = code := sameCode.1
      have kept : ((request.callback event).run (atCode state eventCode)).2.curlCode = eventCode :=
        keepsCode_callback event (atCode state eventCode)
      cases run : (request.callback event).run (atCode state eventCode) with
      | mk reply after =>
          rw [run] at kept
          cases reply with
          | error error =>
              have throws : (request.perform ((eventCode, event) :: events)).run state =
                  (.error error, after) := by
                rw [perform, run_modify_bind]
                exact Action.run_bind_of_error run
              rw [throws]
              exact kept
          | ok taken =>
              rw [run_perform_cons run]
              split
              · exact inductionHypothesis sameCode.2 fun _ => kept
              · exact kept

/-! ## The final response -/

/-- The calls that open the body of a response with some headers. -/
inductive Opens (request : GetRequest) (headerCollection : List HTTPHeaders) : List Call → Prop
  | unhandled (missing : request.hasResponseHandler = false) : Opens request headerCollection []
  | handled (present : request.hasResponseHandler = true) {made : HTTPResponse}
      (headers : made.headers = responseHeaders headerCollection) (noBody : made.body = []) :
      Opens request headerCollection [.response made]

theorem opens_opening (request : GetRequest) (state : GetTransferState) :
    Opens request state.requestInfo.headerCollection (opening request state) := by
  rw [opening]
  cases handler : request.hasResponseHandler with
  | false => exact .unhandled handler
  | true => exact .handled handler rfl rfl

/-- A final response with some pieces of its body. -/
inductive Underway (request : GetRequest) (headers : List HTTPHeaders) (code : Nat)
    (pieces : List Text) (state : GetTransferState) : Prop
  | waiting (idle : state.Idle) (nothing : pieces = [])
  | buffering (buffers : request.buffers code = true)
      (kept : state.Buffering request pieces.flatten)
  | streaming (streams : request.buffers code = false) (opened : List Call)
      (opens : Opens request headers opened)
      (given : state.Streaming request (opened ++ pieces.map .content))

/-- A final response whose handlers have ended the transfer. -/
structure Ended (request : GetRequest) (headers : List HTTPHeaders) (code : Nat)
    (pieces : List Text) (state : GetTransferState) : Prop where
  streams : request.buffers code = false
  halted : ∃ opened given, Opens request headers opened ∧ given <+: pieces ∧
    state.Halted request (opened ++ given.map .content)

section

variable {headers : List HTTPHeaders} {code : Nat} {pieces : List Text}
  {state : GetTransferState}

theorem Ended.append (ended : Ended request headers code pieces state) (later : List Text) :
    Ended request headers code (pieces ++ later) state := by
  obtain ⟨opened, given, opens, isFront, halted⟩ := ended.halted
  exact ⟨ended.streams, opened, given, opens, isFront.trans (List.prefix_append _ _), halted⟩

theorem Underway.keeps (underway : Underway request headers code pieces state)
    (current : List HTTPHeaders) :
    Underway request headers code pieces ((atCode state code).setHeaders current) := by
  cases underway with
  | waiting idle nothing =>
      exact .waiting ⟨idle.unstarted, idle.uncalled, idle.unstopped, idle.noError, idle.noCalls,
        idle.noBody⟩ nothing
  | buffering buffers kept =>
      exact .buffering buffers ⟨kept.started, kept.uncalled, kept.unstopped, kept.noError,
        kept.noCalls, kept.isBody, kept.buffers⟩
  | streaming streams opened opens given =>
      exact .streaming streams opened opens ⟨given.started, given.called, given.unstopped,
        given.noError, given.areCalls, given.goesOn, given.streams⟩

theorem Ended.keeps (ended : Ended request headers code pieces state)
    (current : List HTTPHeaders) :
    Ended request headers code pieces ((atCode state code).setHeaders current) := by
  obtain ⟨opened, given, opens, isFront, halted⟩ := ended.halted
  exact ⟨ended.streams, opened, given, opens, isFront, halted.called, halted.started,
    halted.areCalls, halted.ends, halted.stopped, halted.failed⟩

/-- A handler that ends the transfer was called. -/
theorem ended_of_halted (streams : request.buffers code = false) {opened done : List Call}
    (opens : Opens request headers opened) (isFront : done <+: opened ++ pieces.map .content)
    (halted : state.Halted request done) : Ended request headers code pieces state := by
  obtain ⟨front, call, cut, -⟩ := halted.ends
  cases opens with
  | unhandled missing =>
      obtain ⟨given, isGiven, rfl⟩ := List.prefix_map_iff.mp isFront
      exact ⟨streams, [], given, .unhandled missing, isGiven, halted⟩
  | @handled present made sameHeaders noBody =>
      cases done with
      | nil => simp at cut
      | cons first rest =>
          obtain ⟨rfl, isRest⟩ := List.cons_prefix_cons.mp isFront
          obtain ⟨given, isGiven, rfl⟩ := List.prefix_map_iff.mp isRest
          exact ⟨streams, [.response made], given, .handled present sameHeaders noBody, isGiven,
            halted⟩

theorem underway_or_ended (streams : request.buffers code = false) {opened : List Call}
    (opens : Opens request headers opened) {size taken : Nat}
    (isTaken : Taken request (opened ++ pieces.map .content) size taken state) :
    taken = size ∧ Underway request headers code pieces state ∨
      taken = 0 ∧ Ended request headers code pieces state := by
  rcases isTaken with ⟨all, given⟩ | ⟨none, done, isFront, halted⟩
  · exact .inl ⟨all, .streaming streams opened opens given⟩
  · exact .inr ⟨none, ended_of_halted streams opens isFront halted⟩

/-- One more piece of the body. -/
theorem run_callback_write (final : Final code)
    (underway : Underway request headers code pieces state)
    (sameHeaders : state.requestInfo.headerCollection = headers) (piece : Text) :
    ∃ taken after,
      (request.callback (.write piece)).run (atCode state code) = (.ok taken, after) ∧
        after.requestInfo.headerCollection = headers ∧
        (taken = piece.length ∧ Underway request headers code (pieces ++ [piece]) after ∨
          taken = 0 ∧ Ended request headers code (pieces ++ [piece]) after) := by
  cases underway.keeps state.requestInfo.headerCollection with
  | waiting idle nothing =>
      subst nothing
      cases buffers : request.buffers code with
      | true =>
          obtain ⟨after, run, buffering, afterHeaders⟩ :=
            run_writeCallback_idle_buffers idle final buffers piece
          refine ⟨piece.length, after, run, afterHeaders.trans sameHeaders,
            .inl ⟨rfl, .buffering buffers ?_⟩⟩
          rw [List.nil_append, List.flatten_singleton]
          exact buffering
      | false =>
          obtain ⟨taken, after, run, isTaken, afterHeaders⟩ :=
            run_writeCallback_idle_streams idle final buffers piece
          have opens := opens_opening request (atCode state code)
          rw [show (atCode state code).requestInfo.headerCollection = headers from sameHeaders]
            at opens
          exact ⟨taken, after, run, afterHeaders.trans sameHeaders,
            underway_or_ended buffers opens isTaken⟩
  | buffering buffers kept =>
      obtain ⟨after, run, buffering, afterHeaders⟩ := run_writeCallback_buffers kept piece
      refine ⟨piece.length, after, run, afterHeaders.trans sameHeaders,
        .inl ⟨rfl, .buffering buffers ?_⟩⟩
      rw [List.flatten_append, List.flatten_singleton]
      exact buffering
  | streaming streams opened opens given =>
      obtain ⟨taken, after, run, isTaken, afterHeaders⟩ := run_writeCallback_streams given piece
      refine ⟨taken, after, run, afterHeaders.trans sameHeaders,
        underway_or_ended streams opens ?_⟩
      rw [List.map_append, ← List.append_assoc]
      exact isTaken

/-- Pieces of which only the last may be empty. -/
theorem run_perform_chunks (final : Final code) {chunks : List Text}
    (chunked : ∀ chunk ∈ chunks.dropLast, chunk ≠ [])
    (underway : Underway request headers code pieces state)
    (sameHeaders : state.requestInfo.headerCollection = headers) :
    ∃ all after, (request.perform (chunks.map (code, Event.write ·))).run state =
        (.ok all, after) ∧ after.requestInfo.headerCollection = headers ∧
      (all = true ∧ Underway request headers code (pieces ++ chunks) after ∨
        Ended request headers code (pieces ++ chunks) after) := by
  induction chunks generalizing pieces state with
  | nil =>
      rw [List.append_nil]
      exact ⟨true, state, rfl, sameHeaders, .inl ⟨rfl, underway⟩⟩
  | cons chunk chunks inductionHypothesis =>
      have later : ∀ other ∈ chunks.dropLast, other ≠ [] := by
        intro other member
        apply chunked other
        rw [List.dropLast_cons_of_ne_nil (List.ne_nil_of_mem ((List.dropLast_subset chunks) member))]
        exact List.mem_cons_of_mem chunk member
      obtain ⟨taken, middle, run, middleHeaders, taking⟩ :=
        run_callback_write final underway sameHeaders chunk
      rw [List.map_cons, run_perform_cons run, ← List.singleton_append, ← List.append_assoc]
      rcases taking with ⟨whole, underway⟩ | ⟨nothing, ended⟩
      · rw [if_pos (show taken = Event.size (.write chunk) from whole)]
        exact inductionHypothesis later underway middleHeaders
      · split
        · rename_i same
          have empty : chunk = [] := List.length_eq_zero_iff.mp (same.symm.trans nothing)
          have isLast : chunks = [] := by
            by_contra more
            rw [List.dropLast_cons_of_ne_nil more] at chunked
            exact chunked chunk List.mem_cons_self empty
          subst isLast
          exact ⟨true, middle, rfl, middleHeaders, .inr (ended.append [])⟩
        · exact ⟨false, middle, rfl, middleHeaders, .inr (ended.append chunks)⟩

end

theorem isEndOfHeaders_of_mem {char : Char} {line : Text} (member : char ∈ line)
    (visible : char ≠ '\r' ∧ char ≠ '\n') : isEndOfHeaders line = false := by
  rw [isEndOfHeaders, Bool.or_eq_false_iff, decide_eq_false_iff_not, decide_eq_false_iff_not]
  constructor
  · rintro rfl
    simp [visible] at member
  · rintro rfl
    simp [visible] at member

theorem isEndOfHeaders_field (field : HeaderField) : isEndOfHeaders field.text = false :=
  isEndOfHeaders_of_mem
    (List.mem_append_left _ (List.mem_append_right _ List.mem_cons_self)) (by decide)

theorem isEndOfHeaders_status (block : HeaderBlock) :
    isEndOfHeaders (block.status ++ block.statusEnd.text) = false :=
  isEndOfHeaders_of_mem
    (List.mem_append_left _ (block.isStatus.subset (show 'H' ∈ "HTTP/".toList by decide)))
    (by decide)

/-- The whole body of a final response. -/
theorem run_perform_body {code : Nat} (final : Final code) (emptyEnd : LineEnd)
    {chunks : List Text} (chunked : ∀ chunk ∈ chunks.dropLast, chunk ≠ [])
    {trailers : List HeaderField} {state : GetTransferState} (idle : state.Idle)
    {shown : List HTTPHeaders}
    (received : (trailers.map HeaderField.text).foldlM headersAfter
      state.requestInfo.headerCollection = .ok shown) :
    ∃ all after,
      (request.perform ((TransferBlock.bodyEvents emptyEnd chunks trailers).map (code, ·))).run
          state = (.ok all, after) ∧
        (all = true ∧
            Underway request state.requestInfo.headerCollection code chunks after ∧
            after.requestInfo.headerCollection = shown ∨
          Ended request state.requestInfo.headerCollection code chunks after) := by
  generalize headersEq : state.requestInfo.headerCollection = headers at received ⊢
  have eventsEq : (TransferBlock.bodyEvents emptyEnd chunks trailers).map (code, ·) =
      (code, Event.header emptyEnd.text) :: (chunks.map (code, Event.write ·) ++
        (trailers.map HeaderField.text).map (code, Event.header ·)) := by
    simp [TransferBlock.bodyEvents, TransferBlock.trailerEvents, Function.comp_def]
  have same : headersAfter (atCode state code).requestInfo.headerCollection emptyEnd.text =
      .ok headers := by
    rw [show (atCode state code).requestInfo.headerCollection = headers from headersEq]
    exact headersAfter_empty emptyEnd headers
  have stillIdle : ((atCode state code).setHeaders headers).Idle :=
    ⟨idle.unstarted, idle.uncalled, idle.unstopped, idle.noError, idle.noCalls, idle.noBody⟩
  have nonempty : emptyEnd.text.length ≠ 0 := by
    cases emptyEnd <;> exact Nat.succ_ne_zero _
  obtain ⟨taken, opened, run, openedHeaders, starts⟩ :=
    @run_headerCallback_final request _ _ _ same stillIdle final
  have begins : taken = emptyEnd.text.length ∧ Underway request headers code [] opened ∨
      taken = 0 ∧ Ended request headers code [] opened := by
    rcases starts with ⟨whole, rfl⟩ | ⟨buffers, whole, kept⟩ | ⟨streams, isTaken⟩
    · exact .inl ⟨whole, .waiting stillIdle rfl⟩
    · exact .inl ⟨whole, .buffering buffers kept⟩
    · have opens : Opens request headers
          (opening request ((atCode state code).setHeaders headers)) :=
        opens_opening request ((atCode state code).setHeaders headers)
      apply underway_or_ended streams opens
      rw [List.map_nil, List.append_nil]
      exact isTaken
  have callback : (request.callback (.header emptyEnd.text)).run (atCode state code) =
      (.ok taken, opened) := run
  rw [eventsEq, run_perform_cons callback]
  rcases begins with ⟨whole, underway⟩ | ⟨none, ended⟩
  · rw [if_pos (show taken = Event.size (.header emptyEnd.text) from whole), run_perform_append]
    have notEnd : ∀ line ∈ trailers.map HeaderField.text, isEndOfHeaders line = false := by
      rw [List.forall_mem_map]
      exact fun field _ => isEndOfHeaders_field field
    obtain ⟨all, middle, chunksRun, middleHeaders, phase⟩ :=
      run_perform_chunks final chunked underway openedHeaders
    rw [← middleHeaders] at received
    rw [Action.run_bind_of_ok chunksRun]
    cases all with
    | false =>
        rcases phase with ⟨impossible, -⟩ | ended
        · contradiction
        · exact ⟨false, middle, rfl, .inr ended⟩
    | true =>
        rw [if_pos rfl]
        rcases phase with ⟨-, underway⟩ | ended
        · obtain ⟨after, linesRun, stays, afterHeaders⟩ :=
            run_perform_lines (motive := Underway request headers code chunks)
              (fun _ current holds => holds.keeps current) notEnd received underway
          exact ⟨true, after, linesRun, .inl ⟨rfl, stays, afterHeaders⟩⟩
        · obtain ⟨after, linesRun, stays, -⟩ :=
            run_perform_lines (motive := Ended request headers code chunks)
              (fun _ current holds => holds.keeps current) notEnd received ended
          exact ⟨true, after, linesRun, .inr stays⟩
  · rw [if_neg (show ¬ taken = Event.size (.header emptyEnd.text) from none ▸ nonempty.symm)]
    exact ⟨false, opened, rfl, .inr (ended.append chunks)⟩

/-! ## Finish -/

/-- No handler was called. -/
structure Uncalled (state : GetTransferState) : Prop where
  uncalled : state.responseHandlerCalled = false
  unstopped : state.stopped = false
  noError : state.error = none
  noCalls : state.calls = []

/-- The response at the end of a transfer. -/
def endResponse (request : GetRequest) (state : GetTransferState) (result : Nat) : HTTPResponse :=
  transformResponseCurl request.messages (state.setResponseCode state.curlCode).requestInfo result
    (request.buffers state.curlCode)

theorem body_transformResponseCurl (messages : Messages) (requestInfo : RequestInfo)
    (result : Nat) : (transformResponseCurl messages requestInfo result false).body = [] := by
  rw [transformResponseCurl]
  split <;> rfl

section

variable {state : GetTransferState} {calls : List Call}

/-- Where no callback has failed, a handler may still be called. -/
theorem run_finish_of_no_error (noError : state.error = none) (result : Nat) :
    (request.finish result).run state =
      (if (if state.stopped then 0 else result) = 0 && !state.responseHandlerCalled then do
          modify fun state => { state with responseHandlerCalled := true }
          if request.hasResponseHandler then do
            let _ ← request.handle
              (.response (endResponse request state (if state.stopped then 0 else result)))
            pure (endResponse request state (if state.stopped then 0 else result))
          else pure (endResponse request state (if state.stopped then 0 else result))
        else pure (endResponse request state (if state.stopped then 0 else result)) :
        Action GetTransferState HTTPResponse).run (state.setResponseCode state.curlCode) := by
  have same : (state.setResponseCode state.curlCode).error = none := noError
  rw [finish, run_modify_bind, run_get_bind]
  dsimp only
  rw [same]
  rfl

theorem run_finish_calls (uncalled : Uncalled state) (handled : request.hasResponseHandler = true) :
    ∃ after, (request.finish 0).run state =
        ((request.answer [.response (endResponse request state 0)]).map fun _ => endResponse request state 0,
          after) ∧
      after.calls = [.response (endResponse request state 0)] := by
  have unstopped : ¬ state.stopped = true := by
    rw [uncalled.unstopped]
    decide
  rw [run_finish_of_no_error uncalled.noError, if_neg unstopped, uncalled.uncalled,
    if_pos (by decide), run_modify_bind, if_pos handled]
  generalize endResponse request state 0 = response
  have answered : (request.handle (.response response)).run
      { state.setResponseCode state.curlCode with responseHandlerCalled := true } =
      (request.answer [.response response],
        ({ state.setResponseCode state.curlCode with responseHandlerCalled := true } :
          GetTransferState).addCall (.response response)) := by
    rw [run_handle]
    dsimp only [GetTransferState.setResponseCode]
    rw [uncalled.noCalls, List.nil_append]
  refine ⟨({ state.setResponseCode state.curlCode with responseHandlerCalled := true } :
    GetTransferState).addCall (.response response), ?_, ?_⟩
  · cases reply : request.answer [.response response] with
    | error error =>
        rw [reply] at answered
        exact Action.run_bind_of_error answered
    | ok goesOn =>
        rw [reply] at answered
        exact Action.run_bind_of_ok answered
  · dsimp only [GetTransferState.addCall, GetTransferState.setResponseCode]
    rw [uncalled.noCalls, List.nil_append]

theorem run_finish_silent (uncalled : Uncalled state) {result : Nat}
    (silent : result = 0 → request.hasResponseHandler = false) :
    ∃ after, (request.finish result).run state = (.ok (endResponse request state result), after) ∧
      after.calls = [] := by
  have unstopped : ¬ state.stopped = true := by
    rw [uncalled.unstopped]
    decide
  rw [run_finish_of_no_error uncalled.noError, if_neg unstopped, uncalled.uncalled]
  by_cases success : result = 0
  · rw [if_pos (by simp [success]), run_modify_bind, if_neg (by simp [silent success])]
    exact ⟨_, rfl, uncalled.noCalls⟩
  · rw [if_neg (by simp [success])]
    exact ⟨_, rfl, uncalled.noCalls⟩

theorem run_finish_called (called : state.responseHandlerCalled = true) (result : Nat) :
    ∃ reply after, (request.finish result).run state = (reply, after) ∧
      after.calls = state.calls ∧ (∀ error, reply = .error error ↔ state.error = some error) ∧
      (request.buffers state.curlCode = false → ∀ response, reply = .ok response →
        response.body = []) := by
  cases errorEq : state.error with
  | some error =>
      have same : (state.setResponseCode state.curlCode).error = some error := errorEq
      refine ⟨.error error, state.setResponseCode state.curlCode, ?_, rfl, ?_, ?_⟩
      · rw [finish, run_modify_bind, run_get_bind]
        dsimp only
        rw [same]
        rfl
      · intro other
        rw [Except.error.injEq, Option.some.injEq]
      · intro _ response impossible
        contradiction
  | none =>
      rw [run_finish_of_no_error errorEq, called, if_neg (by simp)]
      generalize (if state.stopped then 0 else result) = result
      refine ⟨.ok (endResponse request state result), _, rfl, rfl, ?_, ?_⟩
      · intro error
        exact iff_of_false (by simp) (by simp)
      · rintro streams response same
        obtain rfl := Except.ok.inj same
        rw [endResponse, streams]
        exact body_transformResponseCurl _ _ _

end

end GetRequest

end Httpfs.Http.Curl
