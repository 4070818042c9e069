import Httpfs.Http.HuggingFace.Listing

/-!
# Repeated requests for a page

The handlers of a request for a page write into buffers that live as long as the
request, not as long as an attempt.  What an attempt delivers before it fails stays
in front of the body of the next one, and its `Link` header stays unless the next
answer has one too.
-/

namespace Httpfs.Http.HuggingFace

open File FullDownload

/-- The bytes that an attempt delivers. -/
def deliveredBy : Attempt → Block
  | .unanswered _ => []
  | .answered response chunks => if 400 ≤ response.status then [] else chunks.flatten

/-- The `Link` header that an attempt leaves behind. -/
def linkAfter (link : String) : Attempt → String
  | .unanswered _ => link
  | .answered response _ =>
      if 400 ≤ response.status then link else (response.header? "Link").getD link

/-- What an attempt alone is a page of: its body, and the page its `Link` header names. -/
def pageOf (response : HTTPResponse) (chunks : List Block) : Except ErrorData (Text × Text) :=
  let body := ofBlock chunks.flatten
  let link := (response.header? "Link").getD ""
  if link = "" then .ok (body, []) else (parseNextUrlFromLinkHeader link.toList).map (body, ·)

theorem foldl_after_eq (failed : List Attempt) (buffers : ListingBuffers) :
    failed.foldl ListingBuffers.after buffers =
      ⟨buffers.response ++ failed.flatMap deliveredBy,
        failed.foldl linkAfter buffers.linkHeaderResult⟩ := by
  induction failed generalizing buffers with
  | nil => rw [List.foldl_nil, List.flatMap_nil, List.append_nil, List.foldl_nil]
  | cons attempt failed inductionHypothesis =>
      rw [List.foldl_cons, List.foldl_cons, List.flatMap_cons, inductionHypothesis,
        ← List.append_assoc]
      cases attempt with
      | unanswered error =>
          rw [ListingBuffers.after, deliveredBy, linkAfter, List.append_nil]
      | answered response chunks =>
          rw [ListingBuffers.after, deliveredBy, linkAfter]
          split
          · rw [List.append_nil]
          · rfl

/-- Nothing of the failed attempts is left where the last one is read: they delivered
no byte, and its own `Link` header or none of theirs names a page.  A header that is
refused hides what was delivered. -/
def NothingLeft (failed : List Attempt) (response : HTTPResponse) : Prop :=
  let stale := failed.foldl linkAfter ""
  let own := (response.header? "Link").getD stale
  if (response.header? "Link").getD "" = "" then
    failed.flatMap deliveredBy = [] ∧
      (own = "" ∨ parseNextUrlFromLinkHeader own.toList = .ok [])
  else
    failed.flatMap deliveredBy = [] ∨
      ∃ error, parseNextUrlFromLinkHeader own.toList = .error error

theorem ofBlock_append (front back : Block) :
    ofBlock (front ++ back) = ofBlock front ++ ofBlock back :=
  List.map_append

theorem ofBlock_append_eq_iff {front back : Block} :
    ofBlock (front ++ back) = ofBlock back ↔ front = [] := by
  rw [ofBlock_append, List.append_left_eq_self, ofBlock, List.map_eq_nil_iff]

theorem map_page_eq_iff {delivered body : Block} {next : Except ErrorData Text} :
    next.map (ofBlock (delivered ++ body), ·) = next.map (ofBlock body, ·) ↔
      delivered = [] ∨ ∃ error, next = .error error := by
  cases next with
  | error error => exact iff_of_true rfl (.inr ⟨error, rfl⟩)
  | ok nextPageUrl =>
      constructor
      · intro same
        left
        cases delivered with
        | nil => rfl
        | cons byte delivered =>
            have bodies := congrArg Prod.fst (Except.ok.inj same)
            exact absurd (ofBlock_append_eq_iff.mp bodies) (List.cons_ne_nil _ _)
      · rintro (rfl | ⟨error, impossible⟩)
        · rfl
        · contradiction

theorem map_page_eq_last_iff {delivered body : Block} {next : Except ErrorData Text} :
    next.map (ofBlock (delivered ++ body), ·) = .ok (ofBlock body, []) ↔
      delivered = [] ∧ next = .ok [] := by
  cases next with
  | error error =>
      constructor
      · intro impossible
        contradiction
      · rintro ⟨_, impossible⟩
        contradiction
  | ok nextPageUrl =>
      constructor
      · intro same
        obtain ⟨bodies, nexts⟩ := Prod.mk.inj (Except.ok.inj same)
        exact ⟨ofBlock_append_eq_iff.mp bodies, congrArg Except.ok nexts⟩
      · rintro ⟨rfl, isLast⟩
        cases isLast
        rfl

/-- A page is what its last attempt alone is a page of exactly if nothing of the failed
attempts is left. -/
theorem listHFRequest_eq_pageOf_iff {util : HTTPUtil} {server : TreeServer} {url : ParsedHFUrl}
    {nextPageUrl : Text} {failed : List Attempt} {response : HTTPResponse} {chunks : List Block}
    (answered : server (requestUrl url.endpoint nextPageUrl) =
      ⟨failed, .answered response chunks⟩)
    (status : response.status = 200) (noError : response.requestError = "") :
    listHFRequest util server url nextPageUrl = pageOf response chunks ↔
      NothingLeft failed response := by
  have small : ¬ 400 ≤ response.status := by omega
  have empty : ({} : ListingBuffers) = ⟨[], ""⟩ := rfl
  rw [listHFRequest_of_answered answered status noError, empty, foldl_after_eq,
    ListingBuffers.after, if_neg small, ListingBuffers.page, pageOf, NothingLeft, List.nil_append]
  generalize failed.flatMap deliveredBy = delivered
  generalize failed.foldl linkAfter "" = stale
  dsimp only
  cases response.header? "Link" with
  | none =>
      rw [Option.getD_none, Option.getD_none, if_pos rfl, if_pos rfl]
      by_cases noStale : stale = ""
      · rw [if_pos noStale, Except.ok.injEq, Prod.mk.injEq, ofBlock_append_eq_iff]
        exact ⟨fun same => ⟨same.1, .inl noStale⟩, fun left => ⟨left.1, rfl⟩⟩
      · rw [if_neg noStale, map_page_eq_last_iff, or_iff_right noStale]
  | some link =>
      rw [Option.getD_some, Option.getD_some]
      by_cases noLink : link = ""
      · rw [if_pos noLink, if_pos noLink, if_pos noLink, Except.ok.injEq, Prod.mk.injEq,
          ofBlock_append_eq_iff]
        exact ⟨fun same => ⟨same.1, .inl noLink⟩, fun left => ⟨left.1, rfl⟩⟩
      · rw [if_neg noLink, if_neg noLink, if_neg noLink, map_page_eq_iff]

/-! ## A page that was begun twice -/

def okResponse (headers : List (String × String)) : HTTPResponse :=
  ⟨200, "", headers, ""⟩

/-- An attempt that had no answer leaves nothing. -/
theorem listHFRequest_eq_pageOf_iff_unanswered :
    listHFRequest HTTPUtil.plain
        (fun _ => ⟨[.unanswered "timeout"], .answered (okResponse []) [[91, 93]]⟩)
        {} "/api".toList = pageOf (okResponse []) [[91, 93]] := by
  have noLink : ((okResponse []).header? "Link").getD "" = "" := rfl
  have nothing : NothingLeft [.unanswered "timeout"] (okResponse []) := by
    unfold NothingLeft
    dsimp only
    rw [if_pos noLink]
    exact ⟨rfl, .inl rfl⟩
  exact (listHFRequest_eq_pageOf_iff rfl rfl rfl).mpr nothing

/-- The first attempt broke off after a bracket; the page has that bracket twice. -/
theorem listHFRequest_begun_twice :
    ¬ ∀ (util : HTTPUtil) (server : TreeServer) (url : ParsedHFUrl) (nextPageUrl : Text)
      (failed : List Attempt) (response : HTTPResponse) (chunks : List Block),
      server (requestUrl url.endpoint nextPageUrl) = ⟨failed, .answered response chunks⟩ →
      response.status = 200 → response.requestError = "" →
      listHFRequest util server url nextPageUrl = pageOf response chunks := by
  intro always
  have same := always HTTPUtil.plain
    (fun _ => ⟨[.answered ⟨200, "broken off", [], ""⟩ [[91]]],
      .answered (okResponse []) [[91, 93]]⟩)
    {} "/api".toList _ _ _ rfl rfl rfl
  exact absurd same (by decide)

end Httpfs.Http.HuggingFace
