import Httpfs.Http.File.Transfer
import Httpfs.Http.HuggingFace.ListResult
import Httpfs.Http.HuggingFace.Url

/-!
# Requests of a listing

A directory is listed page by page.  Where the `Link` header of a page names a next
page, that one is requested next.
-/

namespace Httpfs.Http.HuggingFace

open File FullDownload Text

/-! ## Link headers -/

/-- The pieces that `getline` reads: behind a last separator there is none. -/
def lines (separator : Char) (text : Text) : List Text :=
  let pieces := text.splitOn separator
  if pieces.getLast? = some [] then pieces.dropLast else pieces

def unexpectedLinkHeader (linkHeaderContent : Text) : ErrorData :=
  .io ("Unexpected link header for huggingface pagination: " ++ String.ofList linkHeaderContent)

def nextUrlOfLinks (linkHeaderContent : Text) : List Text → Except ErrorData Text
  | [] => throw (.io "Failed to parse Link header for paginated response, pagination support")
  | split :: rest =>
      match lines ';' split with
      | [target, relation] =>
          if trim relation = "rel=\"next\"".toList then
            let target := trim target
            if !startsWith target "<".toList || !endsWith target ">".toList then
              throw (unexpectedLinkHeader linkHeaderContent)
            else .ok (substr target 1 (target.length - 2))
          else nextUrlOfLinks linkHeaderContent rest
      | _ => throw (unexpectedLinkHeader linkHeaderContent)

def parseNextUrlFromLinkHeader (linkHeaderContent : Text) : Except ErrorData Text :=
  nextUrlOfLinks linkHeaderContent (lines ',' linkHeaderContent)

/-! ## One page -/

/-- Who answers a GET of a URL. -/
abbrev TreeServer := Text → Exchange

/-- What the handlers of a request write. -/
structure ListingBuffers where
  response : Block := []
  linkHeaderResult : String := ""
  deriving DecidableEq, Repr

/-- The bytes of a block as a text. -/
def ofBlock (block : Block) : Text :=
  block.map fun byte => Char.ofNat byte.toNat

/-- The URL that is requested for a page: an absolute URL of the endpoint stays, and
anything else is put behind the endpoint. -/
def requestUrl (endpoint nextPageUrl : Text) : Text :=
  let fragment :=
    if startsWith nextPageUrl endpoint then substrFrom nextPageUrl endpoint.length else nextPageUrl
  let fragment := if startsWith fragment "/".toList then fragment else '/' :: fragment
  endpoint ++ fragment

/-- `GetHTTPStatusError` of a listing. -/
def listingError (util : HTTPUtil) (response : HTTPResponse) (nextPageUrl : Text) : ErrorData :=
  responseError response
    ("HTTP GET error listing '" ++ String.ofList nextPageUrl ++ "' (HTTP " ++
      toString response.status ++ " " ++ util.statusMessage response.status ++ ")")

def listRequest (util : HTTPUtil) (nextPageUrl : Text) : GetRequestInfo ListingBuffers where
  headers := []
  responseHandler response := do
    if 400 ≤ response.status then throw (listingError util response nextPageUrl)
    else
      match response.header? "Link" with
      | some link => do
          modify fun buffers => { buffers with linkHeaderResult := link }
          pure true
      | none => pure true
  contentHandler chunk := do
    modify fun buffers => { buffers with response := buffers.response ++ chunk }
    pure true

/-- `ListHFRequest`: the text of a page, and the next page, empty behind the last. -/
def listHFRequest (util : HTTPUtil) (server : TreeServer) (url : ParsedHFUrl)
    (nextPageUrl : Text) : Except ErrorData (Text × Text) :=
  let (reply, buffers) :=
    ((listRequest util nextPageUrl).send util (server (requestUrl url.endpoint nextPageUrl))).run {}
  match reply with
  | .error error => throw error
  | .ok res =>
      if res.hasRequestError then
        throw (.io (res.requestError ++ " error for HTTP GET to '" ++
          String.ofList nextPageUrl ++ "'"))
      else if res.status ≠ 200 then throw (listingError util res nextPageUrl)
      else if buffers.linkHeaderResult ≠ "" then do
        let next ← parseNextUrlFromLinkHeader buffers.linkHeaderResult.toList
        pure (ofBlock buffers.response, next)
      else pure (ofBlock buffers.response, [])

/-! ## Answered requests -/

/-- The server answers a URL with a body and a `Link` header, if it sends one. -/
def Answers (server : TreeServer) (url body : Text) (link : Option Text) : Prop :=
  ∃ headers rawBody chunks,
    server url = ⟨[], .answered ⟨200, "", headers, rawBody⟩ chunks⟩ ∧
      ofBlock chunks.flatten = body ∧
      (⟨200, "", headers, rawBody⟩ : HTTPResponse).header? "Link" = link.map String.ofList

theorem run_deliver_listRequest (util : HTTPUtil) (nextPageUrl : Text) (chunks : List Block)
    (buffers : ListingBuffers) :
    ((listRequest util nextPageUrl).deliver chunks).run buffers =
      (.ok true, { buffers with response := buffers.response ++ chunks.flatten }) := by
  induction chunks generalizing buffers with
  | nil =>
      rw [List.flatten_nil, List.append_nil]
      rfl
  | cons chunk rest inductionHypothesis =>
      have first : ((listRequest util nextPageUrl).contentHandler chunk).run buffers =
          (.ok true, { buffers with response := buffers.response ++ chunk }) := rfl
      rw [GetRequestInfo.deliver, Action.run_bind_of_ok first, if_pos rfl, inductionHypothesis,
        List.flatten_cons, List.append_assoc]

theorem run_responseHandler_listRequest (util : HTTPUtil) (nextPageUrl : Text)
    {response : HTTPResponse} (small : response.status < 400) (buffers : ListingBuffers) :
    ((listRequest util nextPageUrl).responseHandler response).run buffers =
      (.ok true, { buffers with
        linkHeaderResult := (response.header? "Link").getD buffers.linkHeaderResult }) := by
  rw [listRequest]
  dsimp only
  rw [if_neg (Nat.not_le_of_lt small)]
  cases response.header? "Link" with
  | none => rfl
  | some link => rfl

/-- What an attempt leaves in the buffers. -/
def ListingBuffers.after (buffers : ListingBuffers) : Attempt → ListingBuffers
  | .unanswered _ => buffers
  | .answered response chunks =>
      if 400 ≤ response.status then buffers
      else ⟨buffers.response ++ chunks.flatten,
        (response.header? "Link").getD buffers.linkHeaderResult⟩

theorem run_attempt_listRequest_of_small (util : HTTPUtil) (nextPageUrl : Text)
    {response : HTTPResponse} (small : response.status < 400) (chunks : List Block)
    (buffers : ListingBuffers) :
    ((listRequest util nextPageUrl).attempt (.answered response chunks)).run buffers =
      (.ok response, buffers.after (.answered response chunks)) := by
  have handled := run_responseHandler_listRequest util nextPageUrl
    (show (started response).status < 400 from small) buffers
  rw [GetRequestInfo.attempt, Action.run_bind_of_ok handled, if_pos rfl,
    Action.run_bind_of_ok (run_deliver_listRequest util nextPageUrl chunks _),
    ListingBuffers.after, if_neg (Nat.not_le_of_lt small)]
  rfl

theorem run_attempt_listRequest (util : HTTPUtil) (nextPageUrl : Text) (attempt : Attempt)
    (buffers : ListingBuffers) :
    (((listRequest util nextPageUrl).attempt attempt).run buffers).2 = buffers.after attempt := by
  cases attempt with
  | unanswered error => rfl
  | answered response chunks =>
      by_cases small : response.status < 400
      · rw [run_attempt_listRequest_of_small util nextPageUrl small]
      · have refused : ((listRequest util nextPageUrl).responseHandler (started response)).run
            buffers = (.error (listingError util (started response) nextPageUrl), buffers) := by
          rw [listRequest]
          dsimp only
          rw [if_pos (show 400 ≤ (started response).status from Nat.not_lt.mp small)]
          rfl
        rw [GetRequestInfo.attempt, Action.run_bind_of_error refused, ListingBuffers.after,
          if_pos (Nat.not_lt.mp small)]

theorem afterFailed_listRequest (util : HTTPUtil) (nextPageUrl : Text) (failed : List Attempt)
    (buffers : ListingBuffers) :
    (listRequest util nextPageUrl).afterFailed failed buffers =
      failed.foldl ListingBuffers.after buffers := by
  induction failed generalizing buffers with
  | nil => rfl
  | cons attempt failed inductionHypothesis =>
      rw [List.foldl_cons, ← inductionHypothesis, ← run_attempt_listRequest util nextPageUrl]
      rfl

/-- What a request returns, whose last attempt is a success. -/
def ListingBuffers.page (buffers : ListingBuffers) : Except ErrorData (Text × Text) :=
  if buffers.linkHeaderResult = "" then .ok (ofBlock buffers.response, [])
  else (parseNextUrlFromLinkHeader buffers.linkHeaderResult.toList).map
    (ofBlock buffers.response, ·)

theorem listHFRequest_of_answered {util : HTTPUtil} {server : TreeServer} {url : ParsedHFUrl}
    {nextPageUrl : Text} {failed : List Attempt} {response : HTTPResponse} {chunks : List Block}
    (answered : server (requestUrl url.endpoint nextPageUrl) =
      ⟨failed, .answered response chunks⟩)
    (status : response.status = 200) (noError : response.requestError = "") :
    listHFRequest util server url nextPageUrl =
      ((failed.foldl ListingBuffers.after {}).after (.answered response chunks)).page := by
  have sent : ((listRequest util nextPageUrl).send util
      (server (requestUrl url.endpoint nextPageUrl))).run {} =
      (.ok response, (failed.foldl ListingBuffers.after {}).after (.answered response chunks)) := by
    have succeeds : util.success response = true :=
      (util.success_iff response).mpr ⟨noError, .inl (by omega)⟩
    rw [GetRequestInfo.run_send, answered]
    dsimp only
    rw [afterFailed_listRequest, run_attempt_listRequest_of_small util nextPageUrl
      (show response.status < 400 by omega), util.report_of_success _ _ succeeds]
  have noRequestError : ¬ response.hasRequestError = true := by
    rw [HTTPResponse.hasRequestError, noError]
    decide
  rw [listHFRequest, sent]
  dsimp only
  rw [if_neg noRequestError, if_neg (not_not.mpr status), ListingBuffers.page]
  generalize (failed.foldl ListingBuffers.after {}).after (.answered response chunks) = buffers
  by_cases noLink : buffers.linkHeaderResult = ""
  · rw [if_neg (not_not.mpr noLink), if_pos noLink]
    rfl
  · rw [if_pos noLink, if_neg noLink]
    cases parseNextUrlFromLinkHeader buffers.linkHeaderResult.toList <;> rfl

/-- A page that is answered is read, and its `Link` header, unless it is empty. -/
theorem listHFRequest_of_answers {util : HTTPUtil} {server : TreeServer} {url : ParsedHFUrl}
    {nextPageUrl body : Text} {link : Option Text}
    (answers : Answers server (requestUrl url.endpoint nextPageUrl) body link) :
    listHFRequest util server url nextPageUrl =
      if link.getD [] = [] then .ok (body, [])
      else (parseNextUrlFromLinkHeader (link.getD [])).map (body, ·) := by
  rcases answers with ⟨headers, rawBody, chunks, answered, isBody, isLink⟩
  have buffers : ({} : ListingBuffers).after (.answered ⟨200, "", headers, rawBody⟩ chunks) =
      ⟨chunks.flatten, (link.map String.ofList).getD ""⟩ := by
    rw [ListingBuffers.after, isLink]
    rfl
  rw [listHFRequest_of_answered answered rfl rfl, List.foldl_nil, buffers, ListingBuffers.page,
    isBody]
  cases link with
  | none => rfl
  | some header =>
      rw [Option.map_some, Option.getD_some, Option.getD_some, String.toList_ofList]
      cases header with
      | nil => rfl
      | cons first rest =>
          rw [if_neg (by simp), if_neg (List.cons_ne_nil first rest)]

/-! ## Links of one target -/

/-- The header that names a next page. -/
def linkTo (target : Text) : Text :=
  '<' :: target ++ ">; rel=\"next\"".toList

theorem lines_of_not_mem {separator : Char} {text : Text} (nonempty : text ≠ [])
    (free : separator ∉ text) : lines separator text = [text] := by
  rw [lines, List.splitOn_eq_singleton free, if_neg]
  simpa using nonempty

theorem lines_append_cons {separator : Char} {front : Text} (free : separator ∉ front)
    (back : Text) : lines separator (front ++ separator :: back) = front :: lines separator back := by
  have pieces := List.splitOn_ne_nil separator back
  rw [lines, lines, List.splitOn_append_cons_self_of_not_mem free,
    List.getLast?_cons_of_ne_nil pieces]
  split
  · rw [List.dropLast_cons_of_ne_nil pieces]
  · rfl

theorem lines_ne_nil (separator : Char) {text : Text} (nonempty : text ≠ []) :
    lines separator text ≠ [] := by
  by_cases separated : separator ∈ text
  · rcases List.eq_append_cons_of_mem separated with ⟨front, back, rfl, free⟩
    rw [lines_append_cons free]
    exact List.cons_ne_nil _ _
  · rw [lines_of_not_mem nonempty separated]
    exact List.cons_ne_nil _ _

/-- The pieces have only bytes of the text. -/
theorem mem_of_mem_lines {separator byte : Char} {text piece : Text}
    (isPiece : piece ∈ lines separator text) (member : byte ∈ piece) : byte ∈ text := by
  induction length : text.length using Nat.strong_induction_on generalizing text with
  | _ size inductionHypothesis =>
      by_cases separated : separator ∈ text
      · rcases List.eq_append_cons_of_mem separated with ⟨front, back, rfl, free⟩
        rw [lines_append_cons free] at isPiece
        rw [List.length_append, List.length_cons] at length
        rcases List.mem_cons.mp isPiece with rfl | later
        · exact List.mem_append_left _ member
        · exact List.mem_append_right _ (List.mem_cons_of_mem _
            (inductionHypothesis back.length (by omega) later rfl))
      · cases text with
        | nil => contradiction
        | cons first rest =>
            rw [lines_of_not_mem (List.cons_ne_nil first rest) separated,
              List.mem_singleton] at isPiece
            exact isPiece ▸ member

/-- A target without the angle bracket it starts or ends with is refused. -/
theorem nextUrlOfLinks_cons_of_unbracketed {content split target relation : Text}
    {rest : List Text} (pieces : lines ';' split = [target, relation])
    (unbracketed : '<' ∉ target ∨ '>' ∉ target)
    (goesOn : trim relation ≠ "rel=\"next\"".toList →
      nextUrlOfLinks content rest = .error (unexpectedLinkHeader content)) :
    nextUrlOfLinks content (split :: rest) = .error (unexpectedLinkHeader content) := by
  have refused : (!startsWith (trim target) "<".toList || !endsWith (trim target) ">".toList) =
      true := by
    rw [Bool.or_eq_true, Bool.not_eq_true', Bool.not_eq_true', Bool.eq_false_iff,
      Bool.eq_false_iff]
    rcases unbracketed with noOpening | noClosing
    · left
      intro starts
      have isPrefix := startsWith_iff.mp starts
      exact noOpening (mem_of_mem_trim (isPrefix.subset List.mem_cons_self))
    · right
      intro ends
      have isSuffix := List.isSuffixOf_iff_suffix.mp ends
      exact noClosing (mem_of_mem_trim (isSuffix.subset List.mem_cons_self))
  rw [nextUrlOfLinks, pieces]
  dsimp only
  split
  · rfl
  · rename_i other
    exact goesOn other

theorem nextUrlOfLinks_cons_of_length {content split : Text} {rest : List Text}
    (pieces : (lines ';' split).length ≠ 2) :
    nextUrlOfLinks content (split :: rest) = .error (unexpectedLinkHeader content) := by
  rw [nextUrlOfLinks]
  split
  · rename_i found
    rw [found] at pieces
    contradiction
  · rfl

/-- The end of the header of a link, behind the target. -/
def linkEnd : Text :=
  ">; rel=\"next\"".toList

theorem lines_linkEnd {front : Text} (free : ';' ∉ front) :
    lines ';' (front ++ linkEnd) = [front ++ ['>'], " rel=\"next\"".toList] := by
  have cut : front ++ linkEnd = (front ++ ['>']) ++ ';' :: " rel=\"next\"".toList := by
    rw [List.append_assoc]
    rfl
  have closingFree : ';' ∉ front ++ ['>'] := by
    simp [free]
  rw [cut, lines_append_cons closingFree, lines_of_not_mem (by decide) (by decide)]

theorem length_lines_linkEnd {front : Text} (semicolon : ';' ∈ front) :
    (lines ';' (front ++ linkEnd)).length ≠ 2 := by
  rcases List.eq_append_cons_of_mem semicolon with ⟨first, second, rfl, free⟩
  rw [List.append_assoc, List.cons_append, lines_append_cons free]
  by_cases more : ';' ∈ second
  · rcases List.eq_append_cons_of_mem more with ⟨third, fourth, rfl, secondFree⟩
    rw [List.append_assoc, List.cons_append, lines_append_cons secondFree]
    have more := List.length_pos_iff.mpr
      (lines_ne_nil ';' (List.append_ne_nil_of_right_ne_nil fourth (by decide : linkEnd ≠ [])))
    rw [List.length_cons, List.length_cons]
    omega
  · rw [lines_linkEnd more]
    exact fun two => absurd two (by simp)

/-- A piece that does not start with the bracket of the target is refused. -/
theorem nextUrlOfLinks_rest {content target : Text} (noOpening : '<' ∉ target) :
    nextUrlOfLinks content (lines ',' (target ++ linkEnd)) =
      .error (unexpectedLinkHeader content) := by
  induction length : target.length using Nat.strong_induction_on generalizing target with
  | _ size inductionHypothesis =>
      by_cases comma : ',' ∈ target
      · rcases List.eq_append_cons_of_mem comma with ⟨front, back, rfl, free⟩
        rw [List.append_assoc, List.cons_append, lines_append_cons free]
        have goesOn : nextUrlOfLinks content (lines ',' (back ++ linkEnd)) =
            .error (unexpectedLinkHeader content) := by
          apply inductionHypothesis back.length _ _ rfl
          · rw [← length, List.length_append, List.length_cons]
            omega
          · exact fun member => noOpening (List.mem_append_right _ (List.mem_cons_of_mem _ member))
        by_cases two : (lines ';' front).length = 2
        · rcases List.length_eq_two.mp two with ⟨first, second, pieces⟩
          apply nextUrlOfLinks_cons_of_unbracketed pieces _ fun _ => goesOn
          left
          intro member
          have isPiece : first ∈ lines ';' front := pieces ▸ List.mem_cons_self
          exact noOpening (List.mem_append_left _ (mem_of_mem_lines isPiece member))
        · exact nextUrlOfLinks_cons_of_length two
      · have free : ',' ∉ target ++ linkEnd := by
          intro member
          rcases List.mem_append.mp member with inTarget | inEnd
          · exact comma inTarget
          · exact absurd inEnd (by decide)
        rw [lines_of_not_mem (List.append_ne_nil_of_right_ne_nil _ (by decide)) free]
        by_cases semicolon : ';' ∈ target
        · exact nextUrlOfLinks_cons_of_length (length_lines_linkEnd semicolon)
        · apply nextUrlOfLinks_cons_of_unbracketed (lines_linkEnd semicolon)
          · left
            simp [noOpening]
          · intro other
            exact absurd (by decide) other

/-- A target without commas and semicolons is read from the header; with one, the
header is refused. -/
theorem parseNextUrlFromLinkHeader_linkTo {target : Text} (noOpening : '<' ∉ target)
    (noClosing : '>' ∉ target) :
    parseNextUrlFromLinkHeader (linkTo target) =
      if ',' ∉ target ∧ ';' ∉ target then .ok target
      else .error (unexpectedLinkHeader (linkTo target)) := by
  have header : linkTo target = ('<' :: target) ++ linkEnd := rfl
  rw [parseNextUrlFromLinkHeader]
  generalize contentEq : linkTo target = content
  rw [header] at contentEq
  by_cases comma : ',' ∈ target
  · rw [if_neg fun free => free.1 comma, ← contentEq]
    rcases List.eq_append_cons_of_mem comma with ⟨front, back, rfl, free⟩
    have cut : '<' :: (front ++ ',' :: back) ++ linkEnd =
        ('<' :: front) ++ ',' :: (back ++ linkEnd) := by
      simp
    have frontFree : ',' ∉ '<' :: front := by
      simp [free]
    rw [cut, lines_append_cons frontFree]
    generalize ('<' :: front) ++ ',' :: (back ++ linkEnd) = content
    have goesOn : nextUrlOfLinks content (lines ',' (back ++ linkEnd)) =
        .error (unexpectedLinkHeader content) :=
      nextUrlOfLinks_rest fun member =>
        noOpening (List.mem_append_right _ (List.mem_cons_of_mem _ member))
    by_cases two : (lines ';' ('<' :: front)).length = 2
    · rcases List.length_eq_two.mp two with ⟨first, second, pieces⟩
      apply nextUrlOfLinks_cons_of_unbracketed pieces _ fun _ => goesOn
      right
      intro member
      have isPiece : first ∈ lines ';' ('<' :: front) := pieces ▸ List.mem_cons_self
      rcases List.mem_cons.mp (mem_of_mem_lines isPiece member) with isOpening | inFront
      · exact absurd isOpening (by decide)
      · exact noClosing (List.mem_append_left _ inFront)
    · exact nextUrlOfLinks_cons_of_length two
  · have free : ',' ∉ ('<' :: target) ++ linkEnd := by
      intro member
      rcases List.mem_append.mp member with inTarget | inEnd
      · rcases List.mem_cons.mp inTarget with isOpening | inTarget
        · exact absurd isOpening (by decide)
        · exact comma inTarget
      · exact absurd inEnd (by decide)
    rw [← contentEq, lines_of_not_mem (List.append_ne_nil_of_right_ne_nil _ (by decide)) free]
    by_cases semicolon : ';' ∈ target
    · rw [if_neg fun plain => plain.2 semicolon]
      exact nextUrlOfLinks_cons_of_length
        (length_lines_linkEnd (List.mem_cons_of_mem '<' semicolon))
    · have openedFree : ';' ∉ '<' :: target := by
        simp [semicolon]
      have trimmed : trim ('<' :: target ++ ['>']) = '<' :: target ++ ['>'] := by
        have front : ('<' :: target ++ ['>']).dropWhile isSpace = '<' :: target ++ ['>'] :=
          List.dropWhile_cons_of_neg (by decide)
        have back : ('<' :: target ++ ['>']).reverse.dropWhile isSpace =
            ('<' :: target ++ ['>']).reverse := by
          rw [List.reverse_append, List.reverse_singleton, List.singleton_append,
            List.dropWhile_cons_of_neg (by decide)]
        rw [trim, front, back, List.reverse_reverse]
      have bracketed : ¬ (!startsWith ('<' :: target ++ ['>']) "<".toList ||
          !endsWith ('<' :: target ++ ['>']) ">".toList) = true := by
        have starts : startsWith ('<' :: target ++ ['>']) "<".toList = true :=
          startsWith_iff.mpr ⟨target ++ ['>'], rfl⟩
        have ends : endsWith ('<' :: target ++ ['>']) ">".toList = true :=
          List.isSuffixOf_iff_suffix.mpr ⟨'<' :: target, rfl⟩
        rw [starts, ends]
        decide
      have inside : substr ('<' :: target ++ ['>']) 1 (('<' :: target ++ ['>']).length - 2) =
          target := by
        have cut : '<' :: target ++ ['>'] = ['<'] ++ (target ++ ['>']) := rfl
        apply substr_of_eq cut rfl
        simp
      have isNext : trim " rel=\"next\"".toList = "rel=\"next\"".toList := by decide
      rw [if_pos ⟨comma, semicolon⟩, nextUrlOfLinks, lines_linkEnd openedFree]
      dsimp only
      rw [if_pos isNext, trimmed, if_neg bracketed, inside]

/-! ## Targets -/

/-- A target that names a URL of the endpoint, whole or from the root on.  Brackets
delimit a target, and none is part of it. -/
structure Refers (endpoint target url : Text) : Prop where
  names : ∃ rest, url = endpoint ++ '/' :: rest ∧ (target = url ∨ target = '/' :: rest)
  noOpening : '<' ∉ target
  noClosing : '>' ∉ target

private theorem startsWith_slash (rest : Text) : startsWith ('/' :: rest) "/".toList = true :=
  startsWith_iff.mpr ⟨rest, rfl⟩

theorem requestUrl_of_endpoint (endpoint rest : Text) :
    requestUrl endpoint (endpoint ++ '/' :: rest) = endpoint ++ '/' :: rest := by
  rw [requestUrl, if_pos (startsWith_append endpoint _), substrFrom_append,
    startsWith_slash, if_pos rfl]

/-- What a target names is what is requested for it. -/
theorem Refers.requestUrl_eq {endpoint target url : Text} (refers : Refers endpoint target url)
    (absolute : ∃ first scheme, endpoint = first :: scheme ∧ first ≠ '/') :
    requestUrl endpoint target = url := by
  rcases refers.names with ⟨rest, rfl, rfl | rfl⟩
  · exact requestUrl_of_endpoint endpoint rest
  · rcases absolute with ⟨first, scheme, rfl, other⟩
    have notWhole : ¬ startsWith ('/' :: rest) (first :: scheme) = true := by
      rw [startsWith_iff]
      intro isPrefix
      exact other (List.cons_prefix_cons.mp isPrefix).1
    rw [requestUrl, if_neg notWhole, startsWith_slash, if_pos rfl]

theorem Refers.ne_nil {endpoint target url : Text} (refers : Refers endpoint target url) :
    target ≠ [] := by
  rcases refers.names with ⟨rest, rfl, rfl | rfl⟩
  · exact List.append_ne_nil_of_right_ne_nil _ (List.cons_ne_nil _ _)
  · exact List.cons_ne_nil _ _

end Httpfs.Http.HuggingFace
