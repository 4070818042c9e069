import Httpfs.Http.CurlTransfer

/-!
# What a GET delivers

A transfer brings any number of blocks that are no final response, and then at most one
that is.  Each has its header, the pieces of its body and its trailers, and the transfer
may break off anywhere.
-/

namespace Httpfs.Http.Curl

open GetRequest GetTransferState Text

/-! ## Transfers -/

/-- The events of some blocks, with the code that curl reports then. -/
def eventsFrom : Nat → List TransferBlock → List (Nat × Event)
  | _, [] => []
  | code, block :: rest =>
      block.events.map (block.codeAfter code, ·) ++ eventsFrom (block.codeAfter code) rest

/-- All lines of a block can be split. -/
structure TransferBlock.Splits (block : TransferBlock) : Prop where
  header : block.header.Splits
  trailers : ∀ field ∈ block.trailers, field.value ≠ []

/-- The header with some trailers. -/
def TransferBlock.headerWith (block : TransferBlock) (shown : List HeaderField) : HeaderBlock :=
  { block.header with fields := block.header.fields ++ shown }

/-! ## What a transfer is to do -/

def Call.response? : Call → Option HTTPResponse
  | .response made => some made
  | .content _ => none

def Call.content? : Call → Option Text
  | .response _ => none
  | .content data => some data

/-- The pieces that are for the content handler. -/
def streamed (request : GetRequest) : Option TransferBlock → List Text
  | none => []
  | some block => if request.buffers block.code then [] else block.chunks

/-- The body that is kept for the response. -/
def keptBody (request : GetRequest) : Option TransferBlock → Text
  | none => []
  | some block => if request.buffers block.code then block.chunks.flatten else []

/-- The headers of the last block, of which the trailers may be missing. -/
def LastHeaders (blocks : List TransferBlock) (headers : HTTPHeaders) : Prop :=
  ∀ last ∈ blocks.getLast?, ∃ shown, (shown = [] ∨ shown = last.trailers) ∧
    headers.entries = firstOfEach (last.headerWith shown).pairs

/-- The calls of a transfer and its reply are those of the protocol. -/
structure Delivers (request : GetRequest) (blocks : List TransferBlock)
    (final? : Option TransferBlock) (result : Nat) (calls : List Call)
    (reply : Except ErrorData HTTPResponse) : Prop where
  once : (calls.filterMap Call.response?).length ≤ 1
  called : result = 0 → request.hasResponseHandler = true → calls.filterMap Call.response? ≠ []
  responseFirst : ∀ front data back, calls = front ++ .content data :: back →
    back.filterMap Call.response? = [] ∧
      (request.hasResponseHandler = true → front.filterMap Call.response? ≠ [])
  headers : ∀ made ∈ calls.filterMap Call.response?, LastHeaders blocks made.headers
  contents : calls.filterMap Call.content? <+: streamed request final?
  complete : result = 0 → GoesOn request calls →
    calls.filterMap Call.content? = streamed request final?
  body : result = 0 → ∀ made, reply = .ok made → made.body = keptBody request final?
  thrown : ∀ error, reply = .error error ↔ calls ≠ [] ∧ request.answer calls = .error error
  silent : ∀ front call back, calls = front ++ call :: back →
    request.answer (front ++ [call]) ≠ .ok true → back = []

/-! ## Lines of blocks -/

theorem headerLines_append (front back : List (Nat × Event)) :
    headerLines (front ++ back) = headerLines front ++ headerLines back :=
  List.filterMap_append

theorem headerLines_lines (code : Nat) (lines : List Text) :
    headerLines (lines.map (code, Event.header ·)) = lines := by
  rw [headerLines, List.filterMap_map]
  exact List.filterMap_some

theorem headerLines_chunks (code : Nat) (chunks : List Text) :
    headerLines (chunks.map (code, Event.write ·)) = [] := by
  rw [headerLines, List.filterMap_map]
  exact List.filterMap_eq_nil_iff.mpr fun _ _ => rfl

/-- The lines of a header but the empty one. -/
def shownLines (block : HeaderBlock) : List Text :=
  (block.status ++ block.statusEnd.text) :: block.fields.map HeaderField.text

theorem map_headerEvents (block : TransferBlock) (code : Nat) :
    block.headerEvents.map (code, ·) = (shownLines block.header).map (code, Event.header ·) := by
  simp [TransferBlock.headerEvents, shownLines, Function.comp_def]

theorem map_bodyEvents (emptyEnd : LineEnd) (chunks : List Text) (trailers : List HeaderField)
    (code : Nat) :
    (TransferBlock.bodyEvents emptyEnd chunks trailers).map (code, ·) =
      [emptyEnd.text].map (code, Event.header ·) ++ (chunks.map (code, Event.write ·) ++
        (trailers.map HeaderField.text).map (code, Event.header ·)) := by
  simp [TransferBlock.bodyEvents, TransferBlock.trailerEvents, Function.comp_def]

theorem headerLines_events (block : TransferBlock) (code : Nat) :
    headerLines (block.events.map (code, ·)) =
      block.header.lines ++ block.trailers.map HeaderField.text := by
  rw [TransferBlock.events, List.map_append, map_headerEvents, map_bodyEvents,
    headerLines_append, headerLines_append, headerLines_append, headerLines_lines,
    headerLines_lines, headerLines_chunks, headerLines_lines, List.nil_append,
    ← List.append_assoc]
  rfl

/-! ## Headers of blocks -/

theorem blockHeaders_headerWith (block : TransferBlock) (shown : List HeaderField) :
    blockHeaders (block.headerWith shown) =
      blockHeaders block.header >>= fun headers => shown.foldlM fieldInserted headers := by
  have status : (block.headerWith shown).status = block.header.status := rfl
  have fields : (block.headerWith shown).fields = block.header.fields ++ shown := rfl
  rw [blockHeaders, blockHeaders, status, fields, bind_assoc]
  simp only [List.foldlM_append]

theorem foldlM_headersAfter_shownLines (block : HeaderBlock) (earlier : List HTTPHeaders) :
    (shownLines block).foldlM headersAfter earlier =
      (blockHeaders block).map (earlier ++ [·]) := by
  have cut : block.lines = shownLines block ++ [block.emptyEnd.text] := rfl
  rw [← foldlM_headersAfter_lines, cut, List.foldlM_append]
  cases (shownLines block).foldlM headersAfter earlier with
  | error error => rfl
  | ok headers =>
      change _ = [block.emptyEnd.text].foldlM headersAfter headers
      rw [List.foldlM_cons, headersAfter_empty]
      rfl

theorem foldlM_headersAfter_events (block : TransferBlock) (code : Nat)
    (earlier : List HTTPHeaders) :
    (headerLines (block.events.map (code, ·))).foldlM headersAfter earlier =
      (blockHeaders (block.headerWith block.trailers)).map (earlier ++ [·]) := by
  rw [headerLines_events, List.foldlM_append, foldlM_headersAfter_lines, blockHeaders_headerWith]
  cases blockHeaders block.header with
  | error error => rfl
  | ok headers => exact foldlM_headersAfter_fields block.trailers earlier headers

theorem TransferBlock.Splits.headerWith {block : TransferBlock} (splits : block.Splits)
    {shown : List HeaderField} (areTrailers : shown ⊆ block.trailers) :
    (block.headerWith shown).Splits := by
  refine ⟨splits.header.status, ?_⟩
  intro field member
  rcases List.mem_append.mp member with inHeader | inTrailers
  · exact splits.header.fields field inHeader
  · exact splits.trailers field (areTrailers inTrailers)

/-- The lines of blocks that can be split are received. -/
theorem exists_foldlM_eventsFrom {blocks : List TransferBlock}
    (splits : ∀ block ∈ blocks, block.Splits) (code : Nat) (earlier : List HTTPHeaders) :
    ∃ headers, (headerLines (eventsFrom code blocks)).foldlM headersAfter earlier =
      .ok headers := by
  induction blocks generalizing code earlier with
  | nil => exact ⟨earlier, rfl⟩
  | cons block blocks inductionHypothesis =>
      rw [List.forall_mem_cons] at splits
      obtain ⟨headers, isBlock⟩ :=
        (blockHeaders_iff _).mpr (splits.1.headerWith (List.Subset.refl block.trailers))
      rw [eventsFrom, headerLines_append, List.foldlM_append, foldlM_headersAfter_events, isBlock]
      exact inductionHypothesis splits.2 (block.codeAfter code) (earlier ++ [headers])

/-- What is received is received up to any point. -/
theorem exists_foldlM_of_front {received whole : List (Nat × Event)}
    (isReceived : received <+: whole) {earlier headers : List HTTPHeaders}
    (done : (headerLines whole).foldlM headersAfter earlier = .ok headers) :
    ∃ between, (headerLines received).foldlM headersAfter earlier = .ok between := by
  obtain ⟨missing, rfl⟩ := isReceived
  rw [headerLines_append, List.foldlM_append] at done
  obtain ⟨between, isBetween, -⟩ := bind_eq_ok_iff.mp done
  exact ⟨between, isBetween⟩

theorem lastHeaders_of_blockHeaders {front : List TransferBlock} {last : TransferBlock}
    (splits : last.Splits) (noColon : ':' ∉ last.header.status) {shown : List HeaderField}
    (isShown : shown = [] ∨ shown = last.trailers) {headers : HTTPHeaders}
    (isBlock : blockHeaders (last.headerWith shown) = .ok headers) (earlier : List HTTPHeaders) :
    LastHeaders (front ++ [last]) (responseHeaders (earlier ++ [headers])) := by
  have areTrailers : shown ⊆ last.trailers := by
    rcases isShown with rfl | rfl
    · exact List.nil_subset _
    · exact List.Subset.refl _
  have reported : (headers.entries.filter fun header => header.1 ≠ responseStatus) =
      firstOfEach (last.headerWith shown).pairs :=
    reported_of_no_colon noColon (splits.headerWith areTrailers) isBlock
  intro block isLast
  rw [List.getLast?_concat, Option.mem_def, Option.some.injEq] at isLast
  subst isLast
  exact ⟨shown, isShown, (entries_responseHeaders earlier headers).trans reported⟩

theorem eventsFrom_append (front back : List TransferBlock) (code : Nat) :
    ∃ behind, eventsFrom code (front ++ back) = eventsFrom code front ++ eventsFrom behind back := by
  induction front generalizing code with
  | nil => exact ⟨code, rfl⟩
  | cons block front inductionHypothesis =>
      obtain ⟨behind, cut⟩ := inductionHypothesis (block.codeAfter code)
      refine ⟨behind, ?_⟩
      rw [List.cons_append, eventsFrom, eventsFrom, cut, List.append_assoc]

theorem lastHeaders_of_header {front : List TransferBlock} {last : TransferBlock}
    (splits : last.Splits) (noColon : ':' ∉ last.header.status) {events : List (Nat × Event)}
    {code : Nat} {headers : List HTTPHeaders}
    (received : (headerLines (events ++ last.headerEvents.map (code, ·))).foldlM headersAfter [] =
      .ok headers) :
    LastHeaders (front ++ [last]) (responseHeaders headers) := by
  rw [headerLines_append, List.foldlM_append, map_headerEvents, headerLines_lines] at received
  obtain ⟨earlier, -, isLast⟩ := bind_eq_ok_iff.mp received
  rw [foldlM_headersAfter_shownLines] at isLast
  cases isBlock : blockHeaders last.header with
  | error error =>
      rw [isBlock] at isLast
      contradiction
  | ok lastHeaders =>
      rw [isBlock] at isLast
      obtain rfl := Except.ok.inj isLast
      have withNothing : blockHeaders (last.headerWith []) = .ok lastHeaders := by
        rw [blockHeaders_headerWith, isBlock]
        rfl
      exact lastHeaders_of_blockHeaders splits noColon (.inl rfl) withNothing earlier

theorem lastHeaders_of_events {blocks : List TransferBlock}
    (splits : ∀ block ∈ blocks, block.Splits)
    (noColon : ∀ last ∈ blocks.getLast?, ':' ∉ last.header.status) {code : Nat}
    {headers : List HTTPHeaders}
    (received : (headerLines (eventsFrom code blocks)).foldlM headersAfter [] = .ok headers) :
    LastHeaders blocks (responseHeaders headers) := by
  rcases List.eq_nil_or_concat blocks with rfl | ⟨front, last, rfl⟩
  · intro last isLast
    contradiction
  · rw [List.concat_eq_append] at *
    obtain ⟨behind, cut⟩ := eventsFrom_append front [last] code
    rw [cut, eventsFrom, eventsFrom, List.append_nil, headerLines_append, List.foldlM_append]
      at received
    obtain ⟨earlier, -, isLast⟩ := bind_eq_ok_iff.mp received
    rw [foldlM_headersAfter_events] at isLast
    cases isBlock : blockHeaders (last.headerWith last.trailers) with
    | error error =>
        rw [isBlock] at isLast
        contradiction
    | ok lastHeaders =>
        rw [isBlock] at isLast
        obtain rfl := Except.ok.inj isLast
        exact lastHeaders_of_blockHeaders (splits last List.mem_concat_self)
          (noColon last List.getLast?_concat) (.inr rfl) isBlock earlier

/-! ## Blocks that are no final response -/

theorem quiet_of_not_end {event : Nat × Event} {line : Text} (isLine : event.2 = .header line)
    (notEnd : isEndOfHeaders line = false) : Quiet event := by
  obtain ⟨code, event⟩ := event
  dsimp only at isLine
  subst isLine
  intro isEnd
  rw [notEnd] at isEnd
  contradiction

theorem quiet_headerEvents (block : TransferBlock) (code : Nat) :
    ∀ event ∈ block.headerEvents.map (code, ·), Quiet event := by
  rw [map_headerEvents, List.forall_mem_map]
  intro line member
  apply quiet_of_not_end rfl
  rcases List.mem_cons.mp member with rfl | isField
  · exact isEndOfHeaders_status block.header
  · obtain ⟨field, -, rfl⟩ := List.mem_map.mp isField
    exact isEndOfHeaders_field field

theorem quiet_of_interim {event : Nat × Event} (interim : Interim event.1) : Quiet event := by
  obtain ⟨code, event⟩ := event
  cases event with
  | header line => exact fun _ => interim
  | write contents => exact interim

theorem TransferBlock.Earlier.codeAfter {block : TransferBlock} (earlier : block.Earlier)
    {code : Nat} (interim : Interim code) : Interim (block.codeAfter code) := by
  rw [TransferBlock.codeAfter]
  split
  · exact interim
  · rename_i noConnect
    exact earlier.resolve_left noConnect

theorem quiet_eventsFrom {blocks : List TransferBlock}
    (areEarlier : ∀ block ∈ blocks, block.Earlier) {code : Nat} (interim : Interim code) :
    ∀ event ∈ eventsFrom code blocks, Quiet event := by
  induction blocks generalizing code with
  | nil => exact fun _ member => absurd member List.not_mem_nil
  | cons block blocks inductionHypothesis =>
      rw [List.forall_mem_cons] at areEarlier
      have later := areEarlier.1.codeAfter interim
      rw [eventsFrom, List.forall_mem_append, List.forall_mem_map]
      exact ⟨fun _ _ => quiet_of_interim later, inductionHypothesis areEarlier.2 later⟩


/-! ## Cutting a transfer -/

theorem eventsFrom_concat (front : List TransferBlock) {last : TransferBlock}
    (response : last.connect = false) (code : Nat) :
    eventsFrom code (front ++ [last]) =
      eventsFrom code front ++ last.events.map (last.code, ·) := by
  obtain ⟨behind, cut⟩ := eventsFrom_append front [last] code
  have codeEq : last.codeAfter behind = last.code := by
    rw [TransferBlock.codeAfter, response]
    rfl
  rw [cut, eventsFrom, eventsFrom, codeEq, List.append_nil]

/-- The beginning of a list that is put together of two. -/
theorem prefix_append_cases {α : Type} {received front back : List α}
    (isReceived : received <+: front ++ back) :
    received <+: front ∨ ∃ more, more <+: back ∧ received = front ++ more := by
  rcases List.prefix_or_prefix_of_prefix isReceived (List.prefix_append front back) with
    inFront | ⟨more, rfl⟩
  · exact .inl inFront
  · exact .inr ⟨more, (List.prefix_append_right_inj front).mp isReceived, rfl⟩

theorem dropLast_subset_of_front {α : Type} {front whole : List α} (isFront : front <+: whole) :
    front.dropLast ⊆ whole.dropLast := by
  obtain ⟨rest, rfl⟩ := isFront
  by_cases nothing : rest = []
  · rw [nothing, List.append_nil]
    exact List.Subset.refl _
  · rw [List.dropLast_append_of_ne_nil nothing]
    exact List.Subset.trans (List.dropLast_subset front) (List.subset_append_left _ _)

/-- What is received of a body is that of a shorter one. -/
theorem exists_of_prefix_body {emptyEnd : LineEnd} {chunks : List Text}
    {trailers : List HeaderField} {code : Nat} {received : List (Nat × Event)}
    (isReceived : received <+: (TransferBlock.bodyEvents emptyEnd chunks trailers).map (code, ·)) :
    received = [] ∨ ∃ someChunks someTrailers, someChunks <+: chunks ∧ someTrailers <+: trailers ∧
      received = (TransferBlock.bodyEvents emptyEnd someChunks someTrailers).map (code, ·) ∧
      (received = (TransferBlock.bodyEvents emptyEnd chunks trailers).map (code, ·) →
        someChunks = chunks ∧ someTrailers = trailers) := by
  have whole : ∀ {someChunks : List Text} {someTrailers : List HeaderField},
      someChunks <+: chunks → someTrailers <+: trailers →
      (TransferBlock.bodyEvents emptyEnd someChunks someTrailers).map (code, ·) =
        (TransferBlock.bodyEvents emptyEnd chunks trailers).map (code, ·) →
      someChunks = chunks ∧ someTrailers = trailers := by
    intro someChunks someTrailers inChunks inTrailers same
    have lengths := congrArg List.length same
    simp only [TransferBlock.bodyEvents, TransferBlock.trailerEvents, List.length_map,
      List.length_cons, List.length_append] at lengths
    have chunksBound := inChunks.length_le
    have trailersBound := inTrailers.length_le
    exact ⟨inChunks.eq_of_length (by omega), inTrailers.eq_of_length (by omega)⟩
  have asBody : ∃ someChunks someTrailers, someChunks <+: chunks ∧ someTrailers <+: trailers ∧
      (received = [] ∨
        received = (TransferBlock.bodyEvents emptyEnd someChunks someTrailers).map (code, ·)) := by
    rw [map_bodyEvents] at isReceived
    rcases prefix_append_cases isReceived with inEmpty | ⟨more, isMore, rfl⟩
    · refine ⟨[], [], List.nil_prefix, List.nil_prefix, ?_⟩
      cases received with
      | nil => exact .inl rfl
      | cons event rest =>
          obtain ⟨rfl, isRest⟩ := List.cons_prefix_cons.mp inEmpty
          obtain rfl := List.prefix_nil.mp isRest
          exact .inr rfl
    · rcases prefix_append_cases isMore with inChunks | ⟨last, isLast, rfl⟩
      · obtain ⟨someChunks, isSome, rfl⟩ := List.prefix_map_iff.mp inChunks
        refine ⟨someChunks, [], isSome, List.nil_prefix, .inr ?_⟩
        rw [map_bodyEvents, List.map_nil, List.map_nil, List.append_nil]
      · rw [List.map_map] at isLast
        obtain ⟨someTrailers, inTrailers, rfl⟩ := List.prefix_map_iff.mp isLast
        refine ⟨chunks, someTrailers, List.prefix_rfl, inTrailers, .inr ?_⟩
        rw [map_bodyEvents, List.map_map]
  obtain ⟨someChunks, someTrailers, inChunks, inTrailers, rfl | rfl⟩ := asBody
  · exact .inl rfl
  · exact .inr ⟨someChunks, someTrailers, inChunks, inTrailers, rfl, whole inChunks inTrailers⟩

/-- A final response that is received breaks off in its header or in its body. -/
theorem received_cases {header received : List (Nat × Event)} {emptyEnd : LineEnd}
    {chunks : List Text} {trailers : List HeaderField} {code : Nat}
    (isReceived : received <+:
      header ++ (TransferBlock.bodyEvents emptyEnd chunks trailers).map (code, ·)) :
    received <+: header ∧
        received ≠ header ++ (TransferBlock.bodyEvents emptyEnd chunks trailers).map (code, ·) ∨
      ∃ someChunks someTrailers, someChunks <+: chunks ∧ someTrailers <+: trailers ∧
        received =
          header ++ (TransferBlock.bodyEvents emptyEnd someChunks someTrailers).map (code, ·) ∧
        (received = header ++ (TransferBlock.bodyEvents emptyEnd chunks trailers).map (code, ·) →
          someChunks = chunks ∧ someTrailers = trailers) := by
  have notAll : ∀ {front}, front <+: header →
      front ≠ header ++ (TransferBlock.bodyEvents emptyEnd chunks trailers).map (code, ·) := by
    rintro front inHeader rfl
    have bound := inHeader.length_le
    simp only [TransferBlock.bodyEvents, List.length_append, List.length_map, List.length_cons]
      at bound
    omega
  rcases prefix_append_cases isReceived with inHeader | ⟨more, isMore, rfl⟩
  · exact .inl ⟨inHeader, notAll inHeader⟩
  · rcases exists_of_prefix_body isMore with
      rfl | ⟨someChunks, someTrailers, inChunks, inTrailers, rfl, all⟩
    · rw [List.append_nil]
      exact .inl ⟨List.prefix_rfl, notAll List.prefix_rfl⟩
    · exact .inr ⟨someChunks, someTrailers, inChunks, inTrailers, rfl,
        fun same => all (List.append_cancel_left same)⟩

theorem foldlM_body {header : List (Nat × Event)} {emptyEnd : LineEnd} {chunks : List Text}
    {trailers : List HeaderField} {code : Nat} {earlier headers : List HTTPHeaders}
    (received : (headerLines (header ++
      (TransferBlock.bodyEvents emptyEnd chunks trailers).map (code, ·))).foldlM headersAfter
        earlier = .ok headers) :
    ∃ between, (headerLines header).foldlM headersAfter earlier = .ok between ∧
      (trailers.map HeaderField.text).foldlM headersAfter between = .ok headers := by
  rw [headerLines_append, List.foldlM_append] at received
  obtain ⟨between, areBetween, rest⟩ := bind_eq_ok_iff.mp received
  refine ⟨between, areBetween, ?_⟩
  rw [map_bodyEvents, headerLines_append, headerLines_append, headerLines_lines,
    headerLines_chunks, headerLines_lines, List.nil_append, List.foldlM_append, List.foldlM_cons,
    headersAfter_empty] at rest
  exact rest

/-! ## Calls and replies -/

section

variable {request : GetRequest} {blocks : List TransferBlock} {final? : Option TransferBlock}
  {result : Nat} {made : HTTPResponse}

theorem eq_of_concat_eq {α : Type} {front back : List α} {item other : α}
    (cut : [item] = front ++ other :: back) : front = [] ∧ item = other ∧ back = [] := by
  cases front with
  | nil => exact ⟨rfl, (List.cons.inj cut).1, (List.cons.inj cut).2.symm⟩
  | cons first rest => exact absurd (List.cons.inj cut).2 (by simp)

/-- Without a call. -/
theorem delivers_of_nothing
    (complete : result = 0 → request.hasResponseHandler = false ∧ streamed request final? = [] ∧
      made.body = keptBody request final?) :
    Delivers request blocks final? result [] (.ok made) where
  once := Nat.zero_le 1
  called success handled := by
    rw [(complete success).1] at handled
    contradiction
  responseFirst front data back cut := by simp at cut
  headers response member := absurd member List.not_mem_nil
  contents := List.nil_prefix
  complete success _ := (complete success).2.1.symm
  body success response same := by
    obtain rfl := Except.ok.inj same
    exact (complete success).2.2
  thrown error := iff_of_false (by simp) (by simp)
  silent front call back cut := by simp at cut

/-- With the call at the end of the transfer. -/
theorem delivers_of_response (reported : LastHeaders blocks made.headers)
    (noContents : streamed request final? = []) (isBody : made.body = keptBody request final?) :
    Delivers request blocks final? 0 [.response made]
      ((request.answer [.response made]).map fun _ => made) where
  once := Nat.le_refl 1
  called _ _ := List.cons_ne_nil _ _
  responseFirst front data back cut := by
    obtain ⟨-, impossible, -⟩ := eq_of_concat_eq cut
    contradiction
  headers response member := by
    obtain rfl := List.mem_singleton.mp member
    exact reported
  contents := List.nil_prefix
  complete _ _ := noContents.symm
  body _ response same := by
    cases reply : request.answer [.response made] with
    | error error =>
        rw [reply] at same
        contradiction
    | ok goesOn =>
        rw [reply] at same
        obtain rfl := Except.ok.inj same
        exact isBody
  thrown error := by
    cases reply : request.answer [.response made] with
    | error other =>
        change Except.error other = Except.error error ↔ _
        rw [Except.error.injEq, Except.error.injEq]
        exact (and_iff_right (List.cons_ne_nil _ _)).symm
    | ok goesOn => exact iff_of_false (by simp [Except.map]) (by simp)
  silent front call back cut _ := (eq_of_concat_eq cut).2.2

theorem filterMap_response_contents (given : List Text) :
    (given.map Call.content).filterMap Call.response? = [] := by
  rw [List.filterMap_map]
  exact List.filterMap_eq_nil_iff.mpr fun _ _ => rfl

theorem filterMap_content_contents (given : List Text) :
    (given.map Call.content).filterMap Call.content? = given := by
  rw [List.filterMap_map]
  exact List.filterMap_some

theorem silent_of_goesOn {calls : List Call} (goesOn : GoesOn request calls) {front back : List Call}
    {call : Call} (cut : calls = front ++ call :: back)
    (ends : request.answer (front ++ [call]) ≠ .ok true) : back = [] :=
  absurd (goesOn front call back cut) ends

theorem silent_of_ends {calls : List Call} (ended : Ends request calls) {front back : List Call}
    {call : Call} (cut : calls = front ++ call :: back)
    (ends : request.answer (front ++ [call]) ≠ .ok true) : back = [] := by
  obtain ⟨earlier, last, rfl, goesOn, -⟩ := ended
  rcases List.eq_nil_or_concat back with rfl | ⟨between, other, rfl⟩
  · rfl
  · rw [List.concat_eq_append, ← List.cons_append, ← List.append_assoc] at cut
    obtain ⟨earlierEq, -⟩ := List.append_inj' cut rfl
    exact absurd (goesOn front call between earlierEq) ends

/-- With the calls for a body that is streamed. -/
theorem delivers_of_body {headerCollection : List HTTPHeaders} {opened : List Call}
    {given : List Text} {reply : Except ErrorData HTTPResponse}
    (opens : Opens request headerCollection opened)
    (reported : LastHeaders blocks (responseHeaders headerCollection))
    (isGiven : given <+: streamed request final?)
    (complete : result = 0 → GoesOn request (opened ++ given.map .content) →
      given = streamed request final?)
    (noBody : keptBody request final? = [])
    (body : ∀ made, reply = .ok made → made.body = [])
    (thrown : ∀ error, reply = .error error ↔ opened ++ given.map .content ≠ [] ∧
      request.answer (opened ++ given.map .content) = .error error)
    (phase : GoesOn request (opened ++ given.map .content) ∨
      Ends request (opened ++ given.map .content)) :
    Delivers request blocks final? result (opened ++ given.map .content) reply where
  once := by
    rw [List.filterMap_append, filterMap_response_contents, List.append_nil]
    cases opens with
    | unhandled missing => exact Nat.zero_le 1
    | handled present sameHeaders empty => exact Nat.le_refl 1
  called _ handled := by
    rw [List.filterMap_append, filterMap_response_contents, List.append_nil]
    cases opens with
    | unhandled missing =>
        rw [missing] at handled
        contradiction
    | handled present sameHeaders empty => exact List.cons_ne_nil _ _
  responseFirst front data back cut := by
    cases opens with
    | unhandled missing =>
        have noResponse : (front ++ Call.content data :: back).filterMap Call.response? = [] := by
          rw [← cut, List.nil_append, filterMap_response_contents]
        rw [List.filterMap_append, List.append_eq_nil_iff] at noResponse
        refine ⟨noResponse.2, ?_⟩
        intro handled
        rw [missing] at handled
        contradiction
    | handled present sameHeaders empty =>
        cases front with
        | nil => exact absurd (List.cons.inj cut).1 (by simp)
        | cons first front =>
            obtain ⟨rfl, rest⟩ := List.cons.inj cut
            have cutRest : given.map Call.content = front ++ Call.content data :: back := rest
            have noResponse : (front ++ Call.content data :: back).filterMap Call.response? = [] := by
              rw [← cutRest, filterMap_response_contents]
            rw [List.filterMap_append, List.append_eq_nil_iff] at noResponse
            exact ⟨noResponse.2, fun _ => List.cons_ne_nil _ _⟩
  headers made member := by
    rw [List.filterMap_append, filterMap_response_contents, List.append_nil] at member
    cases opens with
    | unhandled missing => exact absurd member List.not_mem_nil
    | handled present sameHeaders empty =>
        obtain rfl := List.mem_singleton.mp member
        rw [sameHeaders]
        exact reported
  contents := by
    have noContents : opened.filterMap Call.content? = [] := by
      cases opens <;> rfl
    rw [List.filterMap_append, noContents, List.nil_append, filterMap_content_contents]
    exact isGiven
  complete success goesOn := by
    have noContents : opened.filterMap Call.content? = [] := by
      cases opens <;> rfl
    rw [List.filterMap_append, noContents, List.nil_append, filterMap_content_contents]
    exact complete success goesOn
  body _ made same := (body made same).trans noBody.symm
  thrown := thrown
  silent front call back cut ends := by
    rcases phase with goesOn | ended
    · exact silent_of_goesOn goesOn cut ends
    · exact silent_of_ends ended cut ends

/-! ## What is finished -/

theorem body_endResponse (request : GetRequest) (state : GetTransferState) :
    (endResponse request state 0).body =
      if request.buffers state.curlCode then state.requestInfo.body else [] :=
  rfl

theorem answer_of_goesOn {calls : List Call} (goesOn : GoesOn request calls) (some : calls ≠ []) :
    request.answer calls = .ok true := by
  rcases List.eq_nil_or_concat calls with rfl | ⟨front, last, rfl⟩
  · contradiction
  · rw [List.concat_eq_append] at goesOn ⊢
    exact goesOn front last [] rfl

theorem delivers_of_uncalled {state : GetTransferState} (uncalled : Uncalled state)
    (complete : result = 0 → streamed request final? = [] ∧
      (endResponse request state 0).body = keptBody request final? ∧
      LastHeaders blocks (responseHeaders state.requestInfo.headerCollection)) :
    ∃ reply after, (request.finish result).run state = (reply, after) ∧
      Delivers request blocks final? result after.calls reply := by
  by_cases calls : result = 0 ∧ request.hasResponseHandler = true
  · obtain ⟨rfl, handled⟩ := calls
    obtain ⟨noContents, isBody, reported⟩ := complete rfl
    obtain ⟨after, run, callsEq⟩ := run_finish_calls uncalled handled
    refine ⟨_, after, run, ?_⟩
    rw [callsEq]
    exact delivers_of_response reported noContents isBody
  · have silent : result = 0 → request.hasResponseHandler = false := by
      intro success
      exact Bool.eq_false_iff.mpr fun handled => calls ⟨success, handled⟩
    obtain ⟨after, run, callsEq⟩ := run_finish_silent uncalled silent
    refine ⟨_, after, run, ?_⟩
    rw [callsEq]
    apply delivers_of_nothing
    intro success
    obtain ⟨noContents, isBody, -⟩ := complete success
    subst success
    exact ⟨silent rfl, noContents, isBody⟩

section

variable {block : TransferBlock} {headers : List HTTPHeaders} {pieces : List Text}
  {state : GetTransferState} (sameCode : state.curlCode = block.code)
  (areChunks : pieces <+: block.chunks)
  (reported : LastHeaders blocks (responseHeaders headers))

include sameCode areChunks reported

theorem delivers_of_underway (underway : Underway request headers block.code pieces state)
    (complete : result = 0 → pieces = block.chunks ∧
      LastHeaders blocks (responseHeaders state.requestInfo.headerCollection)) :
    ∃ reply after, (request.finish result).run state = (reply, after) ∧
      Delivers request blocks (some block) result after.calls reply := by
  cases underway with
  | waiting idle nothing =>
      subst nothing
      have uncalled : Uncalled state :=
        ⟨idle.uncalled, idle.unstopped, idle.noError, idle.noCalls⟩
      apply delivers_of_uncalled uncalled
      intro success
      obtain ⟨noChunks, isReported⟩ := complete success
      refine ⟨?_, ?_, isReported⟩
      · rw [streamed, ← noChunks, ite_self]
      · rw [body_endResponse, idle.noBody, ite_self, keptBody, ← noChunks, List.flatten_nil,
          ite_self]
  | buffering buffers kept =>
      have uncalled : Uncalled state :=
        ⟨kept.uncalled, kept.unstopped, kept.noError, kept.noCalls⟩
      apply delivers_of_uncalled uncalled
      intro success
      obtain ⟨allChunks, isReported⟩ := complete success
      refine ⟨?_, ?_, isReported⟩
      · rw [streamed, if_pos buffers]
      · rw [body_endResponse, sameCode, if_pos buffers, kept.isBody, keptBody, if_pos buffers, allChunks]
  | streaming streams opened opens given =>
      have notBuffers : ¬ request.buffers block.code = true := Bool.eq_false_iff.mp streams
      have streamedEq : streamed request (some block) = block.chunks := by
        rw [streamed, if_neg notBuffers]
      have keptEq : keptBody request (some block) = [] := by
        rw [keptBody, if_neg notBuffers]
      obtain ⟨reply, after, run, callsEq, thrown, body⟩ :=
        @run_finish_called request state given.called result
      rw [given.areCalls] at callsEq
      refine ⟨reply, after, run, ?_⟩
      rw [callsEq]
      refine delivers_of_body opens reported (streamedEq ▸ areChunks)
        (fun success _ => (complete success).1.trans streamedEq.symm) keptEq
        (body (sameCode ▸ streams)) ?_ (.inl given.goesOn)
      intro error
      rw [thrown, given.noError]
      refine iff_of_false (by simp) ?_
      rintro ⟨some, answered⟩
      rw [answer_of_goesOn given.goesOn some] at answered
      contradiction

theorem delivers_of_ended (ended : Ended request headers block.code pieces state)
    (curlResult : Nat) :
    ∃ reply after, (request.finish curlResult).run state = (reply, after) ∧
      Delivers request blocks (some block) result after.calls reply := by
  obtain ⟨opened, given, opens, isGiven, halted⟩ := ended.halted
  have notBuffers : ¬ request.buffers block.code = true := Bool.eq_false_iff.mp ended.streams
  have streamedEq : streamed request (some block) = block.chunks := by
    rw [streamed, if_neg notBuffers]
  have keptEq : keptBody request (some block) = [] := by
    rw [keptBody, if_neg notBuffers]
  obtain ⟨front, call, cut, -, ends⟩ := halted.ends
  have some : opened ++ given.map Call.content ≠ [] := by
    rw [cut]
    exact List.append_ne_nil_of_right_ne_nil front (List.cons_ne_nil call [])
  obtain ⟨reply, after, run, callsEq, thrown, body⟩ :=
    @run_finish_called request state halted.called curlResult
  rw [halted.areCalls] at callsEq
  refine ⟨reply, after, run, ?_⟩
  rw [callsEq]
  refine delivers_of_body opens reported (streamedEq ▸ isGiven.trans areChunks) ?_ keptEq
    (body (sameCode ▸ ended.streams)) ?_ (.inr halted.ends)
  · intro _ goesOn
    exact absurd (answer_of_goesOn goesOn some) ends
  · intro error
    rw [thrown, halted.failed]
    exact (and_iff_right some).symm

end

end

/-! ## Whole transfers -/

section

variable {request : GetRequest} {blocks : List TransferBlock} {final? : Option TransferBlock}
  {result : Nat} {url : Text} {received : List (Nat × Event)}

theorem delivers_of_perform {all : Bool} {state between : GetTransferState}
    (run : (request.perform received).run state = (.ok all, between))
    (finishes : ∃ reply after,
      (request.finish (if all then result else writeError)).run between = (reply, after) ∧
        Delivers request blocks final? result after.calls reply) :
    Delivers request blocks final? result ((request.transfer received result).run state).2.calls
      ((request.transfer received result).run state).1 := by
  obtain ⟨reply, after, finishRun, delivers⟩ := finishes
  have transferRun : (request.transfer received result).run state = (reply, after) := by
    rw [transfer, Action.run_bind_of_ok run, finishRun]
  rw [transferRun]
  exact delivers

theorem idle_start (url : Text) : ({ requestInfo := { url } } : GetTransferState).Idle :=
  ⟨rfl, rfl, rfl, rfl, rfl, rfl⟩

/-- Where no final response has started. -/
theorem delivers_of_quiet (quiet : ∀ event ∈ received, Quiet event) {headers : List HTTPHeaders}
    (areHeaders : (headerLines received).foldlM headersAfter [] = .ok headers)
    (complete : result = 0 → streamed request final? = [] ∧ keptBody request final? = [] ∧
      LastHeaders blocks (responseHeaders headers)) :
    Delivers request blocks final? result
      ((request.transfer received result).run { requestInfo := { url } }).2.calls
      ((request.transfer received result).run { requestInfo := { url } }).1 := by
  obtain ⟨after, run, idle, afterHeaders⟩ :=
    @run_perform_quiet request received quiet _ (idle_start url) headers areHeaders
  apply delivers_of_perform run
  have uncalled : Uncalled after := ⟨idle.uncalled, idle.unstopped, idle.noError, idle.noCalls⟩
  apply delivers_of_uncalled uncalled
  intro success
  obtain ⟨noContents, noBody, reported⟩ := complete success
  refine ⟨noContents, ?_, afterHeaders.symm ▸ reported⟩
  rw [body_endResponse, idle.noBody, ite_self, noBody]

end

/-- Whatever a transfer brings and the handlers answer, it makes the calls of the
protocol and replies with the response. -/
theorem transfer_delivers (request : GetRequest) (url : Text) (earlier : List TransferBlock)
    (final? : Option TransferBlock) (areEarlier : ∀ block ∈ earlier, block.Earlier)
    (isFinal : ∀ block ∈ final?, block.IsFinal)
    (splits : ∀ block ∈ earlier ++ final?.toList, block.Splits)
    (noColon : ∀ last ∈ (earlier ++ final?.toList).getLast?, ':' ∉ last.header.status)
    (received : List (Nat × Event))
    (isReceived : received <+: eventsFrom 0 (earlier ++ final?.toList)) (result : Nat)
    (completes : result = 0 → received = eventsFrom 0 (earlier ++ final?.toList)) :
    Delivers request (earlier ++ final?.toList) final? result
      ((request.transfer received result).run { requestInfo := { url } }).2.calls
      ((request.transfer received result).run { requestInfo := { url } }).1 := by
  obtain ⟨headers, areHeaders⟩ := exists_foldlM_eventsFrom splits 0 []
  cases final? with
  | none =>
      rw [Option.toList_none, List.append_nil] at *
      obtain ⟨someHeaders, areSome⟩ := exists_foldlM_of_front isReceived areHeaders
      have quiet : ∀ event ∈ received, Quiet event := fun event member =>
        quiet_eventsFrom areEarlier (by decide) event (isReceived.subset member)
      apply delivers_of_quiet quiet areSome
      intro success
      rw [completes success] at areSome
      exact ⟨rfl, rfl, lastHeaders_of_events splits noColon areSome⟩
  | some block =>
      have blockFinal : block.IsFinal := isFinal block rfl
      have blocksEq : earlier ++ (some block).toList = earlier ++ [block] := rfl
      have blockSplits : block.Splits := splits block (List.mem_append_right _ List.mem_cons_self)
      have blockNoColon : ':' ∉ block.header.status := noColon block List.getLast?_concat
      have cut : eventsFrom 0 (earlier ++ (some block).toList) =
          (eventsFrom 0 earlier ++ block.headerEvents.map (block.code, ·)) ++
            (TransferBlock.bodyEvents block.header.emptyEnd block.chunks block.trailers).map
              (block.code, ·) := by
        rw [blocksEq, eventsFrom_concat earlier blockFinal.response, TransferBlock.events,
          List.map_append, List.append_assoc]
      have quiet : ∀ event ∈ eventsFrom 0 earlier ++ block.headerEvents.map (block.code, ·),
          Quiet event := by
        rw [List.forall_mem_append]
        exact ⟨quiet_eventsFrom areEarlier (by decide), quiet_headerEvents block block.code⟩
      rw [cut] at isReceived areHeaders
      rcases received_cases isReceived with
        ⟨inHeader, notAll⟩ | ⟨chunks, trailers, inChunks, inTrailers, rfl, all⟩
      · obtain ⟨someHeaders, areSome⟩ := exists_foldlM_of_front isReceived areHeaders
        apply delivers_of_quiet (fun event member => quiet event (inHeader.subset member)) areSome
        intro success
        exact absurd ((completes success).trans cut) notAll
      · obtain ⟨shown, areShown⟩ := exists_foldlM_of_front isReceived areHeaders
        obtain ⟨between, areBetween, isBody⟩ := foldlM_body areShown
        obtain ⟨middle, run, idle, middleHeaders⟩ :=
          @run_perform_quiet request _ quiet _ (idle_start url) between areBetween
        rw [← middleHeaders] at isBody
        have chunked : ∀ chunk ∈ chunks.dropLast, chunk ≠ [] := fun chunk member =>
          blockFinal.chunked chunk (dropLast_subset_of_front inChunks member)
        obtain ⟨taken, after, bodyRun, phase⟩ := @run_perform_body request _ blockFinal.final
          block.header.emptyEnd _ chunked _ _ idle shown isBody
        have sameCode : after.curlCode = block.code := by
          have ofEvents := @curlCode_perform request block.code
            ((TransferBlock.bodyEvents block.header.emptyEnd chunks trailers).map (block.code, ·))
            (by simp) middle (by simp [TransferBlock.bodyEvents])
          rw [bodyRun] at ofEvents
          exact ofEvents
        have reported : LastHeaders (earlier ++ [block])
            (responseHeaders middle.requestInfo.headerCollection) := by
          rw [middleHeaders]
          exact lastHeaders_of_header blockSplits blockNoColon areBetween
        have wholeRun := @run_perform_append request
          (eventsFrom 0 earlier ++ block.headerEvents.map (block.code, ·))
          ((TransferBlock.bodyEvents block.header.emptyEnd chunks trailers).map (block.code, ·))
          { requestInfo := { url } }
        rw [Action.run_bind_of_ok run, if_pos rfl, bodyRun] at wholeRun
        apply delivers_of_perform wholeRun
        rcases phase with ⟨rfl, underway, afterHeaders⟩ | ended
        · apply delivers_of_underway sameCode inChunks reported underway
          intro success
          have isWhole := (completes success).trans cut
          rw [completes success] at areShown
          exact ⟨(all isWhole).1, afterHeaders.symm ▸ lastHeaders_of_events splits noColon areShown⟩
        · exact delivers_of_ended sameCode inChunks reported ended _

/-- A redirect, and the response with a body in two pieces. -/
theorem transfer_delivers_redirected :
    let request : GetRequest := ⟨true, true, fun _ => .ok true, ⟨fun _ => [], fun _ => []⟩⟩
    let location : HeaderField := ⟨"Location".toList, " /b".toList, .crlf, by decide, trivial⟩
    let redirect : TransferBlock :=
      ⟨⟨"HTTP/1.1 302 Found".toList, .crlf, [location], .crlf, by decide, trivial⟩, 302, false,
        ["moved".toList], []⟩
    let block : TransferBlock :=
      ⟨⟨"HTTP/1.1 200 OK".toList, .crlf, [], .crlf, by decide, trivial⟩, 200, false,
        ["a".toList, "b".toList], []⟩
    let received := eventsFrom 0 ([redirect] ++ (some block).toList)
    Delivers request ([redirect] ++ (some block).toList) (some block) 0
      ((request.transfer received 0).run { requestInfo := { url := "/a".toList } }).2.calls
      ((request.transfer received 0).run { requestInfo := { url := "/a".toList } }).1 := by
  intro request location redirect block received
  refine transfer_delivers request "/a".toList [redirect] (some block) ?_ ?_ ?_ ?_ received
    List.prefix_rfl 0 fun _ => rfl
  · rw [List.forall_mem_singleton]
    exact .inr (by decide)
  · rintro _ ⟨⟩
    exact ⟨rfl, ⟨by decide, by decide⟩, by decide⟩
  · have noColon : ∀ {status : Text}, ':' ∉ status →
        ∀ name : Text, ':' ∉ name → status ≠ name ++ [':'] := by
      rintro status free name - rfl
      exact free (List.mem_append_right name List.mem_cons_self)
    intro other member
    rcases List.mem_cons.mp member with rfl | isBlock
    · exact ⟨⟨noColon (by decide), by decide⟩, by decide⟩
    · obtain rfl := List.mem_singleton.mp isBlock
      exact ⟨⟨noColon (by decide), by decide⟩, by decide⟩
  · rintro _ ⟨⟩
    decide

/-- A header without a value ends the transfer where no handler has. -/
theorem empty_value_ends_transfer :
    let request : GetRequest := ⟨true, true, fun _ => .ok true, ⟨fun _ => [], fun _ => []⟩⟩
    let field : HeaderField := ⟨"ETag".toList, [], .crlf, by decide, trivial⟩
    let block : TransferBlock :=
      ⟨⟨"HTTP/1.1 200 OK".toList, .crlf, [field], .crlf, by decide, trivial⟩, 200, false,
        ["data".toList], []⟩
    let received := eventsFrom 0 [block]
    block.IsFinal ∧
      ((request.transfer received 0).run {}).1 = .error outOfRange ∧
      ¬ Delivers request [block] (some block) 0 ((request.transfer received 0).run {}).2.calls
        ((request.transfer received 0).run {}).1 := by
  intro request field block received
  have noCalls : ((request.transfer received 0).run {}).2.calls = [] := by decide
  refine ⟨⟨rfl, ⟨by decide, by decide⟩, by decide⟩, by decide, ?_⟩
  · rw [noCalls]
    intro delivers
    have nothing := delivers.complete rfl (goesOn_nil request)
    revert nothing
    decide

end Httpfs.Http.Curl
