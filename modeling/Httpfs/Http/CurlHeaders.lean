import Httpfs.Core.Error
import Httpfs.Http.HeaderMap

/-!
# Headers that curl receives

Curl passes the header of every response line by line, also those of redirects and of
proxies.  Each status line starts a new collection of headers, and a response is made
from the last one.
-/

namespace Httpfs.Http.Curl

open Text

/-! ## Callbacks -/

/-- The name under which the status line is kept. -/
def responseStatus : Text :=
  "__RESPONSE_STATUS__".toList

/-- A line without its end. -/
def trimLineEnd (header : Text) : Text :=
  if header.getLast? = some '\n' then
    if header.dropLast.getLast? = some '\r' then header.dropLast.dropLast else header.dropLast
  else header

/-- `string::at` behind the end of a string. -/
def outOfRange : ErrorData :=
  ⟨[], .other "out_of_range", "basic_string::at"⟩

/-- The insertion into the last headers. -/
def insertBack (headerCollection : List HTTPHeaders) (name value : Text) :
    Except ErrorData (List HTTPHeaders) :=
  match headerCollection.getLast? with
  | none => throw (.internal "'back' called on an empty vector!")
  | some headers => pure (headerCollection.dropLast ++ [headers.insert name value])

/-- `RequestHeaderCallback`: the bytes that are taken, and the headers. -/
def requestHeaderCallback (contents : Text) (headerCollection : List HTTPHeaders) :
    Except ErrorData (Nat × List HTTPHeaders) := do
  let totalSize := contents.length
  let header := trimLineEnd contents
  let headerCollection :=
    if startsWith header "HTTP/".toList then
      headerCollection ++ [HTTPHeaders.empty.insert responseStatus header]
    else headerCollection
  match findFirstOf [':'] header with
  | none => pure (totalSize, headerCollection)
  | some colonPos =>
      let part1 := substr header 0 colonPos
      match substrFrom header (colonPos + 1) with
      | [] => throw outOfRange
      | first :: rest => do
          let part2 := if first = ' ' then rest else first :: rest
          let headerCollection ← insertBack headerCollection part1 part2
          pure (totalSize, headerCollection)

/-! ## Responses -/

/-- What a transfer collects for its response. -/
structure RequestInfo where
  url : Text := []
  body : Text := []
  responseCode : Nat := 0
  headerCollection : List HTTPHeaders := []

/-- Texts of the library: an error of a transfer, and a status. -/
structure Messages where
  strerror : Nat → Text
  status : Nat → Text

structure HTTPResponse where
  status : Nat
  requestError : Text := []
  body : Text := []
  url : Text := []
  reason : Text := []
  headers : HTTPHeaders := .empty
  deriving DecidableEq

/-- The headers of a response: the last ones, without the status line. -/
def responseHeaders (headerCollection : List HTTPHeaders) : HTTPHeaders :=
  match headerCollection.getLast? with
  | none => .empty
  | some headers =>
      headers.entries.foldl (fun inserted header =>
        if header.1 = responseStatus then inserted else inserted.insert header.1 header.2) .empty

/-- `TransformResponseCurl`; the result of a successful transfer is zero. -/
def transformResponseCurl (messages : Messages) (requestInfo : RequestInfo) (result : Nat)
    (includeBody : Bool := true) : HTTPResponse :=
  if result ≠ 0 then
    { status := requestInfo.responseCode, requestError := messages.strerror result }
  else
    { status := requestInfo.responseCode
      body := if includeBody then requestInfo.body else []
      url := requestInfo.url
      reason := messages.status requestInfo.responseCode
      headers := responseHeaders requestInfo.headerCollection }

/-! ## Lines -/

inductive LineEnd
  | crlf
  | lf

def LineEnd.text : LineEnd → Text
  | crlf => ['\r', '\n']
  | lf => ['\n']

/-- What ends a line is not part of it. -/
def LineEnd.Ends (lineEnd : LineEnd) (line : Text) : Prop :=
  match lineEnd with
  | crlf => True
  | lf => line.getLast? ≠ some '\r'

theorem trimLineEnd_append {line : Text} {lineEnd : LineEnd} (ends : lineEnd.Ends line) :
    trimLineEnd (line ++ lineEnd.text) = line := by
  cases lineEnd with
  | crlf =>
      have cut : line ++ LineEnd.crlf.text = (line ++ ['\r']) ++ ['\n'] := by
        rw [List.append_assoc]
        rfl
      rw [cut, trimLineEnd, List.getLast?_concat, if_pos rfl, List.dropLast_concat,
        List.getLast?_concat, if_pos rfl, List.dropLast_concat]
  | lf =>
      have cut : line ++ LineEnd.lf.text = line ++ ['\n'] := rfl
      rw [cut, trimLineEnd, List.getLast?_concat, if_pos rfl, List.dropLast_concat, if_neg ends]

/-- A name and a value as a server sends them.  A name has no colon and no slash. -/
structure HeaderField where
  name : Text
  value : Text
  lineEnd : LineEnd
  token : ':' ∉ name ∧ '/' ∉ name
  ends : lineEnd.Ends (name ++ ':' :: value)

def HeaderField.line (field : HeaderField) : Text :=
  field.name ++ ':' :: field.value

def HeaderField.text (field : HeaderField) : Text :=
  field.line ++ field.lineEnd.text

/-- A status line, header lines and an empty line. -/
structure HeaderBlock where
  status : Text
  statusEnd : LineEnd
  fields : List HeaderField
  emptyEnd : LineEnd
  isStatus : "HTTP/".toList <+: status
  ends : statusEnd.Ends status

/-- The lines of a block as curl passes them. -/
def HeaderBlock.lines (block : HeaderBlock) : List Text :=
  (block.status ++ block.statusEnd.text) :: block.fields.map HeaderField.text ++
    [block.emptyEnd.text]

/-- All lines of some blocks through the callback, with the bytes taken from each. -/
def receiveLines : List Text → List HTTPHeaders → Except ErrorData (List Nat × List HTTPHeaders)
  | [], headerCollection => .ok ([], headerCollection)
  | line :: rest, headerCollection => do
      let (taken, headerCollection) ← requestHeaderCallback line headerCollection
      let (others, headerCollection) ← receiveLines rest headerCollection
      pure (taken :: others, headerCollection)

/-! ## What is to be reported -/

/-- A value without a blank before it. -/
def withoutBlank : Text → Text
  | ' ' :: rest => rest
  | value => value

/-- The first value of every name. -/
def firstOfEach : List (Text × Text) → List (Text × Text)
  | [] => []
  | header :: rest =>
      header :: (firstOfEach rest).filter fun other => lower other.1 ≠ lower header.1

/-- Name and value of every line but the internal one. -/
def HeaderBlock.pairs (block : HeaderBlock) : List (Text × Text) :=
  (block.fields.map fun field => (field.name, withoutBlank field.value)).filter fun header =>
    lower header.1 ≠ lower responseStatus

/-- All lines are taken, and the response has the headers of the last block. -/
def ReportsLastBlock (messages : Messages) (blocks : List HeaderBlock) (last : HeaderBlock) : Prop :=
  ∃ headerCollection,
    receiveLines (blocks.flatMap HeaderBlock.lines ++ last.lines) [] =
        .ok ((blocks.flatMap HeaderBlock.lines ++ last.lines).map List.length, headerCollection) ∧
      (transformResponseCurl messages { headerCollection } 0).headers.entries =
        firstOfEach last.pairs

/-! ## First values -/

/-- Whether a header is kept may depend on its name only. -/
def ByName (kept : Text × Text → Bool) : Prop :=
  ∀ header other : Text × Text, lower header.1 = lower other.1 → kept header = kept other

theorem firstOfEach_filter {kept : Text × Text → Bool} (byName : ByName kept)
    (headers : List (Text × Text)) :
    firstOfEach (headers.filter kept) = (firstOfEach headers).filter kept := by
  induction headers with
  | nil => rfl
  | cons header rest inductionHypothesis =>
      by_cases isKept : kept header = true
      · rw [List.filter_cons_of_pos isKept, firstOfEach, firstOfEach, inductionHypothesis,
          List.filter_cons_of_pos isKept, List.filter_comm]
      · rw [List.filter_cons_of_neg isKept, firstOfEach, inductionHypothesis,
          List.filter_cons_of_neg isKept, List.filter_filter]
        apply List.filter_congr
        intro other _
        by_cases same : lower other.1 = lower header.1
        · simp [byName other header same, isKept]
        · simp [same]

/-- Insertion keeps the first value of every name that is not there. -/
theorem entries_foldl_insert (headers : HTTPHeaders) (inserted : List (Text × Text)) :
    (inserted.foldl (fun headers header => headers.insert header.1 header.2) headers).entries =
      headers.entries ++
        firstOfEach (inserted.filter fun header => lower header.1 ∉ headers.names) := by
  induction inserted generalizing headers with
  | nil => rw [List.filter_nil, firstOfEach, List.append_nil, List.foldl_nil]
  | cons header rest inductionHypothesis =>
      rw [List.foldl_cons, inductionHypothesis]
      by_cases present : lower header.1 ∈ headers.names
      · rw [HTTPHeaders.insert_of_mem present, List.filter_cons_of_neg (by simpa using present)]
      · have others : (rest.filter fun other =>
            lower other.1 ∉ (headers.insert header.1 header.2).names) =
              (rest.filter fun other => lower other.1 ∉ headers.names).filter fun other =>
                lower other.1 ≠ lower header.1 := by
          rw [List.filter_filter]
          apply List.filter_congr
          intro other _
          simp [HTTPHeaders.mem_names_insert]
        have byName : ByName fun other => lower other.1 ≠ lower header.1 := by
          intro first second same
          dsimp only
          rw [same]
        rw [HTTPHeaders.entries_insert present, List.filter_cons_of_pos (by simpa using present),
          firstOfEach, others, firstOfEach_filter byName, List.append_assoc]
        rfl

/-- Headers with different names are their own first values. -/
theorem firstOfEach_of_nodup {headers : List (Text × Text)}
    (distinct : (headers.map fun header => lower header.1).Nodup) : firstOfEach headers = headers := by
  induction headers with
  | nil => rfl
  | cons header rest inductionHypothesis =>
      rw [List.map_cons, List.nodup_cons] at distinct
      rw [firstOfEach, inductionHypothesis distinct.2, List.filter_eq_self.mpr]
      intro other member
      rw [decide_eq_true_iff]
      intro same
      apply distinct.1
      rw [← same]
      exact List.mem_map_of_mem member

/-! ## One line -/

def headersAfter (headerCollection : List HTTPHeaders) (line : Text) :
    Except ErrorData (List HTTPHeaders) :=
  (requestHeaderCallback line headerCollection).map Prod.snd

theorem insertBack_append (earlier : List HTTPHeaders) (headers : HTTPHeaders)
    (name value : Text) :
    insertBack (earlier ++ [headers]) name value = .ok (earlier ++ [headers.insert name value]) := by
  rw [insertBack, List.getLast?_concat, List.dropLast_concat]
  rfl

/-- A line is taken as a whole. -/
theorem length_of_requestHeaderCallback {line : Text} {headerCollection : List HTTPHeaders}
    {result : Nat × List HTTPHeaders}
    (received : requestHeaderCallback line headerCollection = .ok result) :
    result.1 = line.length := by
  rw [requestHeaderCallback] at received
  dsimp only at received
  split at received
  · obtain rfl := Except.ok.inj received
    rfl
  · split at received
    · contradiction
    · obtain ⟨inserted, -, same⟩ := bind_eq_ok_iff.mp received
      obtain rfl := Except.ok.inj same
      rfl

theorem requestHeaderCallback_eq (line : Text) (headerCollection : List HTTPHeaders) :
    requestHeaderCallback line headerCollection =
      (headersAfter headerCollection line).map (line.length, ·) := by
  rw [headersAfter]
  cases received : requestHeaderCallback line headerCollection with
  | error error => rfl
  | ok result =>
      rw [← length_of_requestHeaderCallback received]
      rfl

/-- The headers a line is inserted into: new ones behind a status line. -/
def startedBy (header : Text) (headerCollection : List HTTPHeaders) : List HTTPHeaders :=
  if startsWith header "HTTP/".toList then
    headerCollection ++ [HTTPHeaders.empty.insert responseStatus header]
  else headerCollection

section

variable {header name : Text} {lineEnd : LineEnd} (ends : lineEnd.Ends header)
  (headerCollection : List HTTPHeaders)

include ends

theorem headersAfter_of_no_colon (noColon : ':' ∉ header) :
    headersAfter headerCollection (header ++ lineEnd.text) =
      .ok (startedBy header headerCollection) := by
  rw [headersAfter, requestHeaderCallback]
  dsimp only
  rw [trimLineEnd_append ends, findFirstOf_singleton_eq_none noColon]
  rfl

theorem headersAfter_of_no_value (cut : header = name ++ [':']) (noColon : ':' ∉ name) :
    headersAfter headerCollection (header ++ lineEnd.text) = .error outOfRange := by
  have colon : findFirstOf [':'] header = some name.length := by
    rw [cut, findFirstOf_singleton_append noColon]
  have nothing : substrFrom header (name.length + 1) = [] := by
    rw [cut, substrFrom_append_cons]
  rw [headersAfter, requestHeaderCallback]
  dsimp only
  rw [trimLineEnd_append ends, colon]
  dsimp only
  rw [nothing]
  rfl

theorem headersAfter_of_value {value : Text} (cut : header = name ++ ':' :: value)
    (noColon : ':' ∉ name) (hasValue : value ≠ []) :
    headersAfter headerCollection (header ++ lineEnd.text) =
      insertBack (startedBy header headerCollection) name (withoutBlank value) := by
  have colon : findFirstOf [':'] header = some name.length := by
    rw [cut, findFirstOf_singleton_append noColon]
  have before : substr header 0 name.length = name := by
    rw [cut, substr_zero_append]
  have behind : substrFrom header (name.length + 1) = value := by
    rw [cut, substrFrom_append_cons]
  rw [headersAfter, requestHeaderCallback]
  dsimp only
  rw [trimLineEnd_append ends, colon]
  dsimp only
  rw [before, behind]
  cases value with
  | nil => contradiction
  | cons first rest =>
      have blank : (if first = ' ' then rest else first :: rest) = withoutBlank (first :: rest) := by
        split
        · rename_i isBlank
          rw [isBlank, withoutBlank]
        · rename_i other
          rw [withoutBlank]
          intro tail isBlank
          exact absurd (List.cons.inj isBlank).1 other
      dsimp only
      rw [blank]
      change Except.map _ (insertBack (startedBy header headerCollection) name _ >>= _) = _
      cases insertBack (startedBy header headerCollection) name (withoutBlank (first :: rest)) <;> rfl

end

/-! ## One block -/

/-- The headers behind a status line, which may have a colon itself. -/
def statusHeaders (status : Text) : Except ErrorData HTTPHeaders :=
  let internal := HTTPHeaders.empty.insert responseStatus status
  if ':' ∈ status then
    let name := status.takeWhile (· ≠ ':')
    match status.drop (name.length + 1) with
    | [] => throw outOfRange
    | value => .ok (internal.insert name (withoutBlank value))
  else .ok internal

def fieldInserted (headers : HTTPHeaders) (field : HeaderField) : Except ErrorData HTTPHeaders :=
  if field.value = [] then throw outOfRange
  else .ok (headers.insert field.name (withoutBlank field.value))

/-- The headers behind a block. -/
def blockHeaders (block : HeaderBlock) : Except ErrorData HTTPHeaders :=
  statusHeaders block.status >>= fun headers => block.fields.foldlM fieldInserted headers

theorem headersAfter_status (block : HeaderBlock) (headerCollection : List HTTPHeaders) :
    headersAfter headerCollection (block.status ++ block.statusEnd.text) =
      (statusHeaders block.status).map (headerCollection ++ [·]) := by
  have started : startedBy block.status headerCollection =
      headerCollection ++ [HTTPHeaders.empty.insert responseStatus block.status] := by
    rw [startedBy, if_pos (startsWith_iff.mpr block.isStatus)]
  by_cases colon : ':' ∈ block.status
  · obtain ⟨name, value, cut, noColon⟩ := List.eq_append_cons_of_mem colon
    have isName : block.status.takeWhile (· ≠ ':') = name := by
      rw [cut, takeWhile_ne_append noColon]
    have isValue : block.status.drop (name.length + 1) = value := by
      rw [cut]
      exact substrFrom_append_cons name ':' value
    rw [statusHeaders]
    dsimp only
    rw [if_pos colon, isName, isValue]
    cases value with
    | nil => exact headersAfter_of_no_value block.ends headerCollection cut noColon
    | cons first rest =>
        rw [headersAfter_of_value block.ends headerCollection cut noColon (List.cons_ne_nil _ _),
          started, insertBack_append]
        rfl
  · rw [headersAfter_of_no_colon block.ends headerCollection colon, started, statusHeaders]
    dsimp only
    rw [if_neg colon]
    rfl

/-- A header line is no status line. -/
theorem HeaderField.startedBy_line (field : HeaderField) (headerCollection : List HTTPHeaders) :
    startedBy field.line headerCollection = headerCollection := by
  rw [startedBy, if_neg]
  rw [startsWith_iff]
  intro starts
  have slash : '/' ∈ "HTTP/".toList := by decide
  rcases List.prefix_or_prefix_of_prefix starts
    (show field.name ++ [':'] <+: field.line from ⟨field.value, by
      rw [HeaderField.line, List.append_assoc]; rfl⟩) with inName | inStatus
  · rcases List.mem_append.mp (inName.subset slash) with inName | isColon
    · exact field.token.2 inName
    · exact absurd isColon (by decide)
  · have colon := inStatus.subset (List.mem_append_right field.name List.mem_cons_self)
    exact absurd colon (by decide)

theorem headersAfter_field (field : HeaderField) (earlier : List HTTPHeaders)
    (headers : HTTPHeaders) :
    headersAfter (earlier ++ [headers]) field.text =
      (fieldInserted headers field).map (earlier ++ [·]) := by
  have ends : field.lineEnd.Ends field.line := field.ends
  rw [HeaderField.text, fieldInserted]
  split
  · rename_i empty
    have cut : field.line = field.name ++ [':'] := by
      rw [HeaderField.line, empty]
    exact headersAfter_of_no_value ends _ cut field.token.1
  · rename_i hasValue
    have cut : field.line = field.name ++ ':' :: field.value := rfl
    rw [headersAfter_of_value ends _ cut field.token.1 hasValue, field.startedBy_line,
      insertBack_append]
    rfl

theorem headersAfter_empty (lineEnd : LineEnd) (headerCollection : List HTTPHeaders) :
    headersAfter headerCollection lineEnd.text = .ok headerCollection := by
  have ends : lineEnd.Ends [] := by
    cases lineEnd with
    | crlf => trivial
    | lf => exact fun last => nomatch last
  have started : startedBy [] headerCollection = headerCollection := by
    rw [startedBy, if_neg (by decide)]
  rw [← List.nil_append lineEnd.text, headersAfter_of_no_colon ends _ List.not_mem_nil, started]

theorem foldlM_headersAfter_fields (fields : List HeaderField) (earlier : List HTTPHeaders)
    (headers : HTTPHeaders) :
    (fields.map HeaderField.text).foldlM headersAfter (earlier ++ [headers]) =
      (fields.foldlM fieldInserted headers).map (earlier ++ [·]) := by
  induction fields generalizing headers with
  | nil => rfl
  | cons field fields inductionHypothesis =>
      rw [List.map_cons, List.foldlM_cons, List.foldlM_cons, headersAfter_field]
      cases inserted : fieldInserted headers field with
      | error error => rfl
      | ok headers => exact inductionHypothesis headers

/-- A block adds its headers behind those of earlier blocks. -/
theorem foldlM_headersAfter_lines (block : HeaderBlock) (earlier : List HTTPHeaders) :
    block.lines.foldlM headersAfter earlier = (blockHeaders block).map (earlier ++ [·]) := by
  rw [HeaderBlock.lines, List.foldlM_append, List.foldlM_cons, headersAfter_status, blockHeaders]
  cases started : statusHeaders block.status with
  | error error => rfl
  | ok headers =>
      change ((block.fields.map HeaderField.text).foldlM headersAfter (earlier ++ [headers]) >>= _) = _
      rw [foldlM_headersAfter_fields]
      change _ = Except.map (earlier ++ [·]) (block.fields.foldlM fieldInserted headers)
      cases block.fields.foldlM fieldInserted headers with
      | error error => rfl
      | ok headers =>
          change [block.emptyEnd.text].foldlM headersAfter (earlier ++ [headers]) = _
          rw [List.foldlM_cons, headersAfter_empty]
          rfl

/-! ## All lines -/

theorem receiveLines_eq (lines : List Text) (headerCollection : List HTTPHeaders) :
    receiveLines lines headerCollection =
      (lines.foldlM headersAfter headerCollection).map (lines.map List.length, ·) := by
  induction lines generalizing headerCollection with
  | nil => rfl
  | cons line lines inductionHypothesis =>
      rw [receiveLines, requestHeaderCallback_eq, List.foldlM_cons]
      cases headersAfter headerCollection line with
      | error error => rfl
      | ok headers =>
          change (receiveLines lines headers >>= _) = _
          rw [inductionHypothesis]
          change _ = Except.map _ (lines.foldlM headersAfter headers)
          cases lines.foldlM headersAfter headers <;> rfl

theorem foldlM_headersAfter_blocks (blocks : List HeaderBlock) (earlier : List HTTPHeaders) :
    (blocks.flatMap HeaderBlock.lines).foldlM headersAfter earlier =
      (blocks.mapM blockHeaders).map (earlier ++ ·) := by
  induction blocks generalizing earlier with
  | nil =>
      rw [List.flatMap_nil, List.mapM_nil, List.foldlM_nil]
      exact congrArg Except.ok (List.append_nil earlier).symm
  | cons block blocks inductionHypothesis =>
      rw [List.flatMap_cons, List.foldlM_append, foldlM_headersAfter_lines, List.mapM_cons]
      cases blockHeaders block with
      | error error => rfl
      | ok headers =>
          change (blocks.flatMap HeaderBlock.lines).foldlM headersAfter (earlier ++ [headers]) = _
          rw [inductionHypothesis]
          change _ = Except.map _ (List.mapM blockHeaders blocks >>= _)
          cases List.mapM blockHeaders blocks with
          | error error => rfl
          | ok others => exact congrArg Except.ok (List.append_assoc earlier [headers] others)

/-! ## Reported headers -/

/-- A block whose lines all have something behind their first colon, if they have one. -/
structure HeaderBlock.Splits (block : HeaderBlock) : Prop where
  status : ∀ name, ':' ∉ name → block.status ≠ name ++ [':']
  fields : ∀ field ∈ block.fields, field.value ≠ []

theorem foldlM_fieldInserted_iff (fields : List HeaderField) (headers : HTTPHeaders) :
    (∃ result, fields.foldlM fieldInserted headers = .ok result) ↔
      ∀ field ∈ fields, field.value ≠ [] := by
  induction fields generalizing headers with
  | nil => exact iff_of_true ⟨headers, rfl⟩ (by simp)
  | cons field fields inductionHypothesis =>
      rw [List.foldlM_cons, List.forall_mem_cons]
      by_cases empty : field.value = []
      · rw [fieldInserted, if_pos empty]
        constructor
        · rintro ⟨result, impossible⟩
          contradiction
        · exact fun hasValue => absurd empty hasValue.1
      · rw [fieldInserted, if_neg empty]
        change (∃ result, fields.foldlM fieldInserted _ = .ok result) ↔ _
        rw [inductionHypothesis]
        exact (and_iff_right empty).symm

theorem foldlM_fieldInserted {fields : List HeaderField} {headers : HTTPHeaders}
    (hasValues : ∀ field ∈ fields, field.value ≠ []) :
    fields.foldlM fieldInserted headers = .ok
      ((fields.map fun field => (field.name, withoutBlank field.value)).foldl
        (fun headers header => headers.insert header.1 header.2) headers) := by
  induction fields generalizing headers with
  | nil => rfl
  | cons field fields inductionHypothesis =>
      rw [List.forall_mem_cons] at hasValues
      rw [List.foldlM_cons, fieldInserted, if_neg hasValues.1]
      exact inductionHypothesis hasValues.2

theorem statusHeaders_iff (status : Text) :
    (∃ headers, statusHeaders status = .ok headers) ↔ ∀ name, ':' ∉ name → status ≠ name ++ [':'] := by
  rw [statusHeaders]
  dsimp only
  by_cases colon : ':' ∈ status
  · obtain ⟨name, value, rfl, noColon⟩ := List.eq_append_cons_of_mem colon
    have behind : (name ++ ':' :: value).drop (name.length + 1) = value :=
      substrFrom_append_cons name ':' value
    rw [if_pos colon, takeWhile_ne_append noColon, behind]
    cases value with
    | nil =>
        constructor
        · rintro ⟨headers, impossible⟩
          contradiction
        · exact fun splits => absurd rfl (splits name noColon)
    | cons first rest =>
        refine iff_of_true ⟨_, rfl⟩ ?_
        intro other otherFree same
        have cut := (append_cons_inj noColon otherFree).mp same
        exact absurd cut.2 (List.cons_ne_nil first rest)
  · rw [if_neg colon]
    refine iff_of_true ⟨_, rfl⟩ ?_
    rintro name - rfl
    exact colon (List.mem_append_right name List.mem_cons_self)

/-- The lines of a block are split exactly if none ends with its first colon. -/
theorem blockHeaders_iff (block : HeaderBlock) :
    (∃ headers, blockHeaders block = .ok headers) ↔ block.Splits := by
  rw [blockHeaders]
  constructor
  · rintro ⟨headers, done⟩
    obtain ⟨started, isStarted, inserted⟩ := bind_eq_ok_iff.mp done
    constructor
    · exact (statusHeaders_iff block.status).mp ⟨started, isStarted⟩
    · exact (foldlM_fieldInserted_iff block.fields started).mp ⟨headers, inserted⟩
  · rintro ⟨status, fields⟩
    obtain ⟨started, isStarted⟩ := (statusHeaders_iff block.status).mpr status
    rw [isStarted]
    exact (foldlM_fieldInserted_iff block.fields started).mpr fields

/-- What is reported of the headers of a block. -/
theorem entries_responseHeaders (earlier : List HTTPHeaders) (headers : HTTPHeaders) :
    (responseHeaders (earlier ++ [headers])).entries =
      headers.entries.filter fun header => header.1 ≠ responseStatus := by
  have asFilter : ∀ (entries : List (Text × Text)) (start : HTTPHeaders),
      entries.foldl (fun inserted header =>
          if header.1 = responseStatus then inserted else inserted.insert header.1 header.2) start =
        (entries.filter fun header => header.1 ≠ responseStatus).foldl
          (fun inserted header => inserted.insert header.1 header.2) start := by
    intro entries
    induction entries with
    | nil => exact fun _ => rfl
    | cons header entries inductionHypothesis =>
        intro start
        rw [List.foldl_cons, inductionHypothesis]
        by_cases internal : header.1 = responseStatus
        · rw [if_pos internal, List.filter_cons_of_neg (by simpa using internal)]
        · rw [if_neg internal, List.filter_cons_of_pos (by simpa using internal), List.foldl_cons]
  have distinct : ((headers.entries.filter fun header => header.1 ≠ responseStatus).map
      fun header => lower header.1).Nodup :=
    headers.distinct.sublist (List.filter_sublist.map _)
  rw [responseHeaders, List.getLast?_concat]
  dsimp only
  rw [asFilter, entries_foldl_insert, List.filter_eq_self.mpr (by simp [HTTPHeaders.names, HTTPHeaders.empty]),
    firstOfEach_of_nodup distinct]
  rfl

theorem mem_of_mem_firstOfEach {headers : List (Text × Text)} {header : Text × Text}
    (member : header ∈ firstOfEach headers) : header ∈ headers := by
  induction headers with
  | nil => exact member
  | cons first rest inductionHypothesis =>
      rw [firstOfEach] at member
      rcases List.mem_cons.mp member with rfl | later
      · exact List.mem_cons_self
      · exact List.mem_cons_of_mem _ (inductionHypothesis (List.mem_of_mem_filter later))

/-- Without a colon in its status line the fields of a block are reported. -/
theorem reported_of_no_colon {block : HeaderBlock} {headers : HTTPHeaders}
    (noColon : ':' ∉ block.status) (splits : block.Splits)
    (received : blockHeaders block = .ok headers) :
    (headers.entries.filter fun header => header.1 ≠ responseStatus) =
      firstOfEach block.pairs := by
  have started : statusHeaders block.status =
      .ok (HTTPHeaders.empty.insert responseStatus block.status) := by
    rw [statusHeaders]
    dsimp only
    rw [if_neg noColon]
  have internal : (HTTPHeaders.empty.insert responseStatus block.status).entries =
      [(responseStatus, block.status)] := HTTPHeaders.entries_insert List.not_mem_nil _
  have names : (HTTPHeaders.empty.insert responseStatus block.status).names =
      [lower responseStatus] := by
    rw [HTTPHeaders.names, internal, List.map_singleton]
  rw [blockHeaders, started] at received
  change block.fields.foldlM fieldInserted _ = _ at received
  rw [foldlM_fieldInserted splits.fields, Except.ok.injEq] at received
  have pairsEq : (block.fields.map fun field => (field.name, withoutBlank field.value)).filter
      (fun header => lower header.1 ∉
        (HTTPHeaders.empty.insert responseStatus block.status).names) = block.pairs := by
    rw [HeaderBlock.pairs, names]
    apply List.filter_congr
    intro header _
    simp
  rw [← received, entries_foldl_insert, pairsEq, internal, List.singleton_append,
    List.filter_cons_of_neg (by simp), List.filter_eq_self]
  intro header member
  have kept := List.of_mem_filter (mem_of_mem_firstOfEach member)
  rw [decide_eq_true_iff] at kept ⊢
  exact fun same => kept (congrArg lower same)

/-- With one, it is reported as a header of its own. -/
theorem not_reported_of_colon {block : HeaderBlock} {headers : HTTPHeaders}
    (colon : ':' ∈ block.status) (received : blockHeaders block = .ok headers) :
    (headers.entries.filter fun header => header.1 ≠ responseStatus) ≠
      firstOfEach block.pairs := by
  obtain ⟨started, isStarted, inserted⟩ := bind_eq_ok_iff.mp received
  obtain ⟨name, value, cut, noColon⟩ := List.eq_append_cons_of_mem colon
  have slash : '/' ∈ name := by
    have starts := block.isStatus
    rw [cut] at starts
    rcases List.prefix_or_prefix_of_prefix starts
      (show name ++ [':'] <+: name ++ ':' :: value from ⟨value, by rw [List.append_assoc]; rfl⟩)
      with inName | inStatus
    · rcases List.mem_append.mp (inName.subset (show '/' ∈ "HTTP/".toList by decide)) with
        inName | isColon
      · exact inName
      · exact absurd isColon (by decide)
    · have colon := inStatus.subset (List.mem_append_right name List.mem_cons_self)
      exact absurd colon (by decide)
  have startedEq : started = (HTTPHeaders.empty.insert responseStatus block.status).insert name
      (withoutBlank value) := by
    have isName : block.status.takeWhile (· ≠ ':') = name := by
      rw [cut, takeWhile_ne_append noColon]
    have isValue : block.status.drop (name.length + 1) = value := by
      rw [cut]
      exact substrFrom_append_cons name ':' value
    rw [statusHeaders] at isStarted
    dsimp only at isStarted
    rw [if_pos colon, isName, isValue] at isStarted
    cases value with
    | nil => contradiction
    | cons first rest => exact (Except.ok.inj isStarted).symm
  have internal : (HTTPHeaders.empty.insert responseStatus block.status).entries =
      [(responseStatus, block.status)] := HTTPHeaders.entries_insert List.not_mem_nil _
  have absent : lower name ∉ (HTTPHeaders.empty.insert responseStatus block.status).names := by
    rw [HTTPHeaders.names, internal, List.map_singleton, List.mem_singleton]
    intro same
    have inName : '/' ∈ lower name := (mem_lower_iff (by decide)).mpr slash
    have none : '/' ∉ lower responseStatus := by decide
    rw [same] at inName
    exact none inName
  have splits := (foldlM_fieldInserted_iff block.fields started).mp ⟨headers, inserted⟩
  rw [foldlM_fieldInserted splits, Except.ok.injEq] at inserted
  have member : (name, withoutBlank value) ∈ headers.entries := by
    rw [← inserted, entries_foldl_insert, startedEq, HTTPHeaders.entries_insert absent]
    exact List.mem_append_left _ (List.mem_append_right _ List.mem_cons_self)
  have kept : (name, withoutBlank value) ∈
      headers.entries.filter fun header => header.1 ≠ responseStatus := by
    rw [List.mem_filter, decide_eq_true_iff]
    refine ⟨member, ?_⟩
    rintro rfl
    exact absurd slash (by decide)
  intro same
  rw [same] at kept
  have inPairs := List.mem_of_mem_filter (mem_of_mem_firstOfEach kept)
  obtain ⟨field, -, fieldEq⟩ := List.mem_map.mp inPairs
  apply field.token.2
  rw [(Prod.mk.inj fieldEq).1]
  exact slash

theorem mapM_blockHeaders_iff (blocks : List HeaderBlock) :
    (∃ headers, blocks.mapM blockHeaders = .ok headers) ↔ ∀ block ∈ blocks, block.Splits := by
  induction blocks with
  | nil => exact iff_of_true ⟨[], rfl⟩ (by simp)
  | cons block blocks inductionHypothesis =>
      rw [List.mapM_cons, List.forall_mem_cons, ← inductionHypothesis, ← blockHeaders_iff]
      constructor
      · rintro ⟨headers, done⟩
        obtain ⟨first, isFirst, rest⟩ := bind_eq_ok_iff.mp done
        obtain ⟨others, areOthers, -⟩ := bind_eq_ok_iff.mp rest
        exact ⟨⟨first, isFirst⟩, others, areOthers⟩
      · rintro ⟨⟨first, isFirst⟩, others, areOthers⟩
        rw [isFirst, areOthers]
        exact ⟨first :: others, rfl⟩

theorem receiveLines_blocks (blocks : List HeaderBlock) (last : HeaderBlock) :
    receiveLines (blocks.flatMap HeaderBlock.lines ++ last.lines) [] =
      (blocks.mapM blockHeaders >>= fun earlier =>
        (blockHeaders last).map fun headers => earlier ++ [headers]).map
          ((blocks.flatMap HeaderBlock.lines ++ last.lines).map List.length, ·) := by
  rw [receiveLines_eq, List.foldlM_append, foldlM_headersAfter_blocks]
  cases blocks.mapM blockHeaders with
  | error error => rfl
  | ok earlier =>
      change Except.map _ (last.lines.foldlM headersAfter ([] ++ earlier)) = _
      rw [foldlM_headersAfter_lines]
      rfl

/-- The callback takes all lines and the response has the headers of the last block
exactly if no line ends with its first colon and the last status line has no colon. -/
theorem reportsLastBlock_iff (messages : Messages) (blocks : List HeaderBlock)
    (last : HeaderBlock) :
    ReportsLastBlock messages blocks last ↔
      (∀ block ∈ blocks ++ [last], block.Splits) ∧ ':' ∉ last.status := by
  rw [ReportsLastBlock, receiveLines_blocks, List.forall_mem_append, List.forall_mem_singleton]
  constructor
  · rintro ⟨headerCollection, received, reported⟩
    cases earlierEq : blocks.mapM blockHeaders with
    | error error =>
        rw [earlierEq] at received
        contradiction
    | ok earlier =>
        cases lastEq : blockHeaders last with
        | error error =>
            rw [earlierEq, lastEq] at received
            contradiction
        | ok headers =>
            rw [earlierEq, lastEq] at received
            have collected := (Prod.mk.inj (Except.ok.inj received)).2
            refine ⟨⟨(mapM_blockHeaders_iff blocks).mp ⟨earlier, earlierEq⟩,
              (blockHeaders_iff last).mp ⟨headers, lastEq⟩⟩, ?_⟩
            intro colon
            apply not_reported_of_colon colon lastEq
            rw [← reported, ← collected, ← entries_responseHeaders earlier]
            rfl
  · rintro ⟨⟨earlierSplit, lastSplits⟩, noColon⟩
    obtain ⟨earlier, earlierEq⟩ := (mapM_blockHeaders_iff blocks).mpr earlierSplit
    obtain ⟨headers, lastEq⟩ := (blockHeaders_iff last).mpr lastSplits
    refine ⟨earlier ++ [headers], ?_, ?_⟩
    · rw [earlierEq, lastEq]
      rfl
    · rw [← reported_of_no_colon noColon lastSplits lastEq, ← entries_responseHeaders earlier]
      rfl

/-- A header without a value throws, and a status line with a colon is reported as a
header. -/
theorem empty_value_throws :
    let field : HeaderField := ⟨"ETag".toList, [], .crlf, by decide, trivial⟩
    let block : HeaderBlock :=
      ⟨"HTTP/1.1 200 OK".toList, .crlf, [field], .crlf, by decide, trivial⟩
    let colon : HeaderBlock :=
      ⟨"HTTP/1.1 200 OK: done".toList, .crlf, [], .crlf, by decide, trivial⟩
    receiveLines block.lines [] = .error outOfRange ∧
      colon.pairs = [] ∧
      (receiveLines colon.lines []).map (fun received => (responseHeaders received.2).entries) =
        .ok [("HTTP/1.1 200 OK".toList, "done".toList)] := by
  decide

end Httpfs.Http.Curl
