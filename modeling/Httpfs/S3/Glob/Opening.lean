import Httpfs.S3.Glob.Result
import Httpfs.S3.UrlParts

/-!
# Opening a walk

What the constructor stores of a pattern: the parts of its URL, the parameters
they resolve to and the path of the first list requests, which is the URL up
to the first wildcard.
-/

namespace Httpfs.S3

open Text

/-! ## Resolving -/

theorem readQueryParams_compatibility {decode : Text → Text} {urlQueryParam : Text}
    {params read : S3AuthParams} (reads : readQueryParams decode urlQueryParam params = .ok read) :
    read.s3UrlCompatibilityMode = params.s3UrlCompatibilityMode := by
  unfold readQueryParams at reads
  split at reads
  · cases reads
    rfl
  · obtain ⟨queryParams, -, reads⟩ := bind_eq_ok_iff.mp reads
    obtain ⟨⟨useSsl, afterSsl⟩, -, reads⟩ := bind_eq_ok_iff.mp reads
    obtain ⟨⟨requesterPays, remaining⟩, -, reads⟩ := bind_eq_ok_iff.mp reads
    simp only at reads
    split at reads
    · contradiction
    · cases reads
      rfl

/-- The parts of a resolution. -/
theorem resolve_eq_ok_iff {decode : Text → Text} {url : Text} {params finalized : S3AuthParams}
    {parsedUrl : ParsedS3Url} :
    resolve decode url params = .ok (parsedUrl, finalized) ↔
      ∃ first read, parse url params = .ok first ∧
        readQueryParams decode first.queryParam params = .ok read ∧
        finalizeAuthParams read = .ok finalized ∧ parse url finalized = .ok parsedUrl := by
  simp only [resolve, bind_eq_ok_iff]
  constructor
  · rintro ⟨first, parsed, read, reads, finalized, finalizes, second, again, ⟨⟩⟩
    exact ⟨first, read, parsed, reads, finalizes, again⟩
  · rintro ⟨first, read, parsed, reads, finalizes, again⟩
    exact ⟨first, parsed, read, reads, _, finalizes, _, again, rfl⟩

/-- The URL without its query string is what stands before the first question mark. -/
theorem parse_trimmedS3Url {url : Text} {params : S3AuthParams}
    (mode : params.s3UrlCompatibilityMode = false) {parsedUrl : ParsedS3Url}
    (parses : parse url params = .ok parsedUrl) :
    parsedUrl.trimmedS3Url = url.takeWhile (· ≠ '?') := by
  obtain ⟨urlPrefix, -, parses⟩ := bind_eq_ok_iff.mp parses
  simp only at parses
  split at parses
  · contradiction
  · rename_i slashPos
    split at parses
    · contradiction
    · simp only [mode, Bool.false_eq_true, if_false] at parses
      split at parses
      · contradiction
      · cases parses
        exact splitQuery_trimmed url _

namespace Glob

variable {environment : Environment} {globPattern : Text} {authParams : S3AuthParams}
variable {walk : S3GlobResult}

/-- The bytes at which the literal part of a pattern ends. -/
def wildcards : Text :=
  "*[\\".toList

/-- The literal part of a pattern. -/
def literalPart (pattern : Text) : Text :=
  pattern.takeWhile (· ∉ wildcards)

/-- What the constructor stores when the pattern has a wildcard. -/
theorem openGlob_eq_ok {result : S3GlobResult}
    (mode : authParams.s3UrlCompatibilityMode = false)
    (opens : openGlob environment globPattern authParams = .ok result)
    (unfinished : result.finished = false) :
    resolve environment.decode globPattern authParams =
        .ok (result.parsedS3Url, result.authParams) ∧
      (∃ position, findFirstOf wildcards result.parsedS3Url.trimmedS3Url = some position) ∧
      result = { globPattern, authParams := result.authParams, parsedS3Url := result.parsedS3Url
                 sharedPath := literalPart result.parsedS3Url.trimmedS3Url } := by
  rw [openGlob, mode] at opens
  simp only [Bool.false_eq_true, if_false] at opens
  obtain ⟨⟨parsedS3Url, resolved⟩, resolves, opens⟩ := bind_eq_ok_iff.mp opens
  simp only at opens
  split at opens
  · cases opens
    contradiction
  · rename_i position found
    cases opens
    have cut := substr_findFirstOf found
    refine ⟨resolves, ⟨position, found⟩, ?_⟩
    simp only [literalPart, wildcards, cut]
    rfl

/-- A walk is either over at once, with the pattern as its only file, or has all to do. -/
theorem openGlob_cases (opens : openGlob environment globPattern authParams = .ok walk) :
    walk.finished = true ∧ walk.expandedFiles = [globPattern] ∧ walk.sharedPath = [] ∨
      walk.finished = false ∧ authParams.s3UrlCompatibilityMode = false := by
  rw [openGlob] at opens
  split at opens
  · cases opens
    exact .inl ⟨rfl, rfl, rfl⟩
  · rename_i plainMode
    rcases bind_eq_ok_iff.mp opens with ⟨⟨parsedS3Url, resolved⟩, -, opens⟩
    dsimp only at opens
    split at opens
    · cases opens
      exact .inl ⟨rfl, rfl, rfl⟩
    · cases opens
      exact .inr ⟨rfl, Bool.not_eq_true _ ▸ plainMode⟩

/-- A walk just opened on a pattern that is the given parts. -/
structure Opened (environment : Environment) (globPattern : Text) (authParams : S3AuthParams)
    (walk : S3GlobResult) (scheme bucket tail : Text) : Prop where
  plain : PlainScheme scheme
  noSlash : '/' ∉ bucket
  noQuestion : '?' ∉ bucket
  nonempty : bucket ≠ []
  pattern_eq : globPattern = scheme ++ "://".toList ++ bucket ++ '/' :: tail
  mode : walk.authParams.s3UrlCompatibilityMode = false
  resolves : resolve environment.decode globPattern authParams =
    .ok (walk.parsedS3Url, walk.authParams)
  parsed_eq : walk.parsedS3Url = parsedParts walk.authParams (lower scheme ++ "://".toList) bucket
    (scheme ++ "://".toList ++ bucket) tail
  shared_eq : walk.sharedPath =
    scheme ++ "://".toList ++ bucket ++ '/' :: literalPart walk.parsedS3Url.key
  walk_eq : walk = { globPattern, authParams := walk.authParams,
                     parsedS3Url := walk.parsedS3Url, sharedPath := walk.sharedPath }

/-- The literal part of a key is the literal part of what stands before its query string. -/
theorem literalPart_splitRest {rest : Text}
    (wild : ∃ byte ∈ rest.takeWhile (· ≠ '?'), byte ∈ wildcards) :
    literalPart (splitRest rest).2.2 = literalPart (rest.takeWhile (· ≠ '?')) := by
  by_cases question : '?' ∈ rest
  · obtain ⟨key, queryParam, rfl, free⟩ := List.eq_append_cons_of_mem question
    rw [takeWhile_ne_append free] at wild ⊢
    rw [splitRest_append free]
    cases queryParam with
    | cons first queryParam => rfl
    | nil =>
        obtain ⟨byte, member, isWild⟩ := wild
        change literalPart (key ++ ['?']) = literalPart key
        rw [literalPart, literalPart, List.takeWhile_append, if_neg]
        intro whole
        have kept := List.takeWhile_eq_self_iff.mp
          ((List.takeWhile_sublist _).eq_of_length whole) byte member
        exact of_decide_eq_true kept isWild
  · rw [takeWhile_ne_of_not_mem question, splitRest_of_not_mem question]

private theorem literal_append {front : Text} (question : '?' ∉ front)
    (literal : ∀ byte ∈ front, byte ∉ wildcards) (back : Text) :
    literalPart ((front ++ back).takeWhile (· ≠ '?')) =
      front ++ literalPart (back.takeWhile (· ≠ '?')) := by
  rw [takeWhile_append question, literalPart, List.takeWhile_append_of_pos]
  · rfl
  · intro byte member
    exact decide_eq_true (literal byte member)

private theorem mem_literalPart_takeWhile {text : Text} {byte : Char}
    (member : byte ∈ literalPart (text.takeWhile (· ≠ '?'))) :
    byte ≠ '?' ∧ byte ∉ wildcards := by
  rw [literalPart] at member
  constructor
  · have kept := List.mem_takeWhile_imp ((List.takeWhile_sublist _).subset member)
    exact of_decide_eq_true kept
  · have kept := List.mem_takeWhile_imp member
    exact of_decide_eq_true kept

private theorem separator_literal : ∀ byte ∈ "://".toList, byte ∉ wildcards := by
  decide

/-- A walk whose first list request can be built was opened on parts. -/
theorem exists_opened
    (hasScheme : ∃ scheme rest, globPattern = scheme ++ "://".toList ++ rest ∧ PlainScheme scheme)
    (mode : authParams.s3UrlCompatibilityMode = false)
    (opens : openGlob environment globPattern authParams = .ok walk)
    (unfinished : walk.finished = false) {listed : ParsedS3Url}
    (parses : parse walk.sharedPath walk.authParams = .ok listed) :
    ∃ scheme bucket tail, Opened environment globPattern authParams walk scheme bucket tail := by
  obtain ⟨scheme, rest, rfl, plain⟩ := hasScheme
  obtain ⟨resolves, ⟨position, found⟩, walkEq⟩ := openGlob_eq_ok mode opens unfinished
  obtain ⟨first, read, parsesFirst, reads, finalizes, parsesAgain⟩ := resolve_eq_ok_iff.mp resolves
  have resolvedMode : walk.authParams.s3UrlCompatibilityMode = false := by
    rw [finalizeAuthParams_compatibility finalizes, readQueryParams_compatibility reads, mode]
  have trimmed := parse_trimmedS3Url resolvedMode parsesAgain
  have frontQuestion : '?' ∉ scheme ++ "://".toList := by
    rw [List.mem_append, not_or]
    exact ⟨plain '?' (by decide), by decide⟩
  have frontLiteral : ∀ byte ∈ scheme ++ "://".toList, byte ∉ wildcards := by
    intro byte member
    rcases List.mem_append.mp member with inScheme | inSeparator
    · intro wild
      exact plain byte (List.mem_append_right ":/?".toList wild) inScheme
    · exact separator_literal byte inSeparator
  have shared : walk.sharedPath =
      scheme ++ "://".toList ++ literalPart (rest.takeWhile (· ≠ '?')) := by
    rw [walkEq]
    simp only [trimmed]
    exact literal_append frontQuestion frontLiteral rest
  rw [shared] at parses
  obtain ⟨bucket, literal, cut, noSlash, nonempty⟩ := exists_bucket_of_parse plain parses
  have bucketFree : ∀ byte ∈ bucket ++ ['/'], byte ≠ '?' ∧ byte ∉ wildcards := by
    intro byte member
    have kept : byte ∈ literalPart (rest.takeWhile (· ≠ '?')) := by
      rw [cut, ← List.singleton_append, ← List.append_assoc]
      exact List.mem_append_left literal member
    exact mem_literalPart_takeWhile kept
  have bucketQuestion : '?' ∉ bucket ++ ['/'] := fun member => (bucketFree _ member).1 rfl
  obtain ⟨remaining, whole⟩ : literalPart (rest.takeWhile (· ≠ '?')) <+: rest :=
    (List.takeWhile_prefix _).trans (List.takeWhile_prefix _)
  rw [cut] at whole
  have restEq : rest = bucket ++ ['/'] ++ (literal ++ remaining) := by
    rw [← whole, List.append_assoc, List.append_assoc, List.cons_append, List.singleton_append]
  generalize literal ++ remaining = tail at restEq
  subst restEq
  have noQuestion : '?' ∉ bucket := fun member =>
    bucketQuestion (List.mem_append_left ['/'] member)
  have patternEq : scheme ++ "://".toList ++ (bucket ++ ['/'] ++ tail) =
      scheme ++ "://".toList ++ bucket ++ '/' :: tail := by
    simp
  have parsedEq := parse_append plain noSlash noQuestion nonempty resolvedMode tail
  rw [← patternEq, parsesAgain] at parsedEq
  have keyEq : walk.parsedS3Url.key = (splitRest tail).2.2 := by
    rw [Except.ok.inj parsedEq]
    rfl
  have wild : ∃ byte ∈ tail.takeWhile (· ≠ '?'), byte ∈ wildcards := by
    obtain ⟨byte, member, isWild⟩ := exists_of_findFirstOf found
    refine ⟨byte, ?_, isWild⟩
    rw [trimmed, takeWhile_append frontQuestion, takeWhile_append bucketQuestion] at member
    rcases List.mem_append.mp member with inFront | member
    · exact absurd isWild (frontLiteral byte inFront)
    · rcases List.mem_append.mp member with inBucket | member
      · exact absurd isWild (bucketFree byte inBucket).2
      · exact member
  refine ⟨scheme, bucket, tail, plain, noSlash, noQuestion, nonempty, patternEq, resolvedMode,
    resolves, Except.ok.inj parsedEq, ?_, ?_⟩
  · rw [shared, literal_append bucketQuestion (fun byte member => (bucketFree byte member).2),
      keyEq, literalPart_splitRest wild]
    simp
  · rw [walkEq]

end Glob

end Httpfs.S3
